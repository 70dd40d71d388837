/-!
# Hexadecimal digits

The digits with which escapes write code units.

* `hexDigitValue?_hexDigit` — a written digit reads back.
-/

namespace KeysetBundle.Text

/-- The digit of a value below 16, in lower case. -/
def hexDigit (n : Nat) : Char :=
  if n < 10 then Char.ofNat (48 + n) else Char.ofNat (87 + n)

/-- The value of a digit in either case. -/
def hexDigitValue? (c : Char) : Option Nat :=
  if '0' ≤ c ∧ c ≤ '9' then some (c.toNat - 48)
  else if 'a' ≤ c ∧ c ≤ 'f' then some (c.toNat - 87)
  else if 'A' ≤ c ∧ c ≤ 'F' then some (c.toNat - 55)
  else none

/-- Whether a character is a digit. -/
def isHexDigit (c : Char) : Bool := (hexDigitValue? c).isSome

/-- The number that digits write. -/
def hexValue? (digits : List Char) : Option Nat :=
  digits.foldl (fun n? c => do some (16 * (← n?) + (← hexDigitValue? c))) (some 0)

theorem hexDigitValue?_hexDigit {n : Nat} (h : n < 16) : hexDigitValue? (hexDigit n) = some n := by
  have all : ∀ m, m < 16 → hexDigitValue? (hexDigit m) = some m := by decide
  exact all n h

end KeysetBundle.Text
