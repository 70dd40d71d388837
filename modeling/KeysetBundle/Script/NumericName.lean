import KeysetBundle.Decimal.Shortest

/-!
# Names made from numbers

A property may be named by a number. A whole number below `10 ^ 21` is written as an integer of 64
bits, the largest of them standing for all larger ones; any other number is written with the
fewest digits and without an exponent.
-/

namespace KeysetBundle.Script

open KeysetBundle.Decimal

/-- The largest integer of 64 bits, which is the largest one that a name spells out. -/
def maxWholeName : Nat := 9223372036854775807

/-- The bound `10 ^ 21`, below which a whole number is written as an integer. -/
def wholeNameLimit : Nat := 1000000000000000000000

/-- The shortest digits of a value without an exponent. -/
def positionalName (mantissa : Nat) (exponent : Int) : String :=
  if mantissa = 0 then "0" else (shortest mantissa exponent).positional

/-- The name of the property that a number stands for. -/
def numericName (value : Binary64) : String :=
  match value with
  | .infinite => "inf"
  | .finite mantissa exponent =>
    match value.whole? with
    | some n =>
      if n < wholeNameLimit then toString (min n maxWholeName)
      else positionalName mantissa exponent
    | none => positionalName mantissa exponent

end KeysetBundle.Script
