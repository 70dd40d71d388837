import KeysetBundle.Decimal.Digits

/-!
# Array indices

Objects of a script list the properties whose names are array indices first, in numeric order. An
array index is a number below `2 ^ 32 - 1`, written in base ten without sign or leading zeros.
-/

namespace KeysetBundle

/-- One more than the largest array index: `2 ^ 32 - 1`. -/
def arrayIndexLimit : Nat := 4294967295

/-- The number of an array index, `none` for every other name. -/
def arrayIndex? (key : String) : Option Nat :=
  match key.toList with
  | ['0'] => some 0
  | '0' :: _ => none
  | digits => (Decimal.value? digits).filter (· < arrayIndexLimit)

end KeysetBundle
