/-!
# Digit sequences

Reading a sequence of ASCII digits as a number in base ten.
-/

namespace KeysetBundle.Decimal

/-- The value of an ASCII digit. -/
def digitValue (c : Char) : Nat := c.toNat - 48

/-- The number that a sequence of digits extends: each digit is worth ten of the next. -/
def extendValue (start : Nat) (digits : List Char) : Nat :=
  digits.foldl (fun n c => 10 * n + digitValue c) start

/-- The number written by one or more ASCII digits and nothing else. -/
def value? (digits : List Char) : Option Nat :=
  if !digits.isEmpty && digits.all Char.isDigit then some (extendValue 0 digits) else none

end KeysetBundle.Decimal
