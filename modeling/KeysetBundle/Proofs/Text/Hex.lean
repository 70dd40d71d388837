import KeysetBundle.Text.Hex

/-!
# The digits of a code unit

The four digits with which an escape writes a code unit name that unit.
-/

namespace KeysetBundle.Text

theorem hexValue?_unitDigits {n : Nat} (hn : n < 65536) :
    hexValue? [hexDigit (n / 4096 % 16), hexDigit (n / 256 % 16),
      hexDigit (n / 16 % 16), hexDigit (n % 16)] = some n := by
  have hdigit : ∀ m, hexDigitValue? (hexDigit (m % 16)) = some (m % 16) :=
    fun m => hexDigitValue?_hexDigit (Nat.mod_lt m (by decide))
  simp only [hexValue?, List.foldl_cons, List.foldl_nil, hdigit, Option.bind_eq_bind,
    Option.bind_some, Option.some.injEq]
  omega

end KeysetBundle.Text
