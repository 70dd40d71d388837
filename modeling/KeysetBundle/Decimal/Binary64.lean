/-!
# Numbers with 53 binary digits

The non-negative values of the binary64 format and the rounding of an exact ratio to the nearest
of them. All arithmetic is exact, on natural numbers.
-/

namespace KeysetBundle.Decimal

/-- A power of two. -/
def twoPow (n : Nat) : Nat := Nat.pow 2 n

/-- A power of ten. -/
def tenPow (n : Nat) : Nat := Nat.pow 10 n

/-- A non-negative binary64 value. -/
inductive Binary64
  /-- The number `mantissa * 2 ^ exponent`. -/
  | finite (mantissa : Nat) (exponent : Int)
  /-- Infinity, to which every number beyond the range rounds. -/
  | infinite
  deriving DecidableEq, Repr, Inhabited

/-- The quotient rounded to the nearest integer, a half to the even one. -/
def roundQuotient (num den : Nat) : Nat :=
  let quotient := num / den
  let twice := 2 * (num % den)
  if twice < den then quotient
  else if den < twice then quotient + 1
  else quotient + quotient % 2

namespace Binary64

/-- The exponent of the smallest positive value. -/
def minExponent : Int := -1074

/-- The largest exponent of a finite value with a full mantissa. -/
def maxExponent : Int := 971

/-- Zero. -/
def zero : Binary64 := .finite 0 minExponent

/-- The value with the given mantissa and exponent, once the mantissa has at most 53 digits or is
`2 ^ 53`. -/
def pack (mantissa : Nat) (exponent : Int) : Binary64 :=
  let (mantissa, exponent) :=
    if mantissa = twoPow 53 then (twoPow 52, exponent + 1) else (mantissa, exponent)
  if maxExponent < exponent then .infinite else .finite mantissa exponent

/-- The numerator and denominator of `num / den / 2 ^ exponent`. -/
def scale (num den : Nat) (exponent : Int) : Nat × Nat :=
  (num * twoPow (-exponent).toNat, den * twoPow exponent.toNat)

/-- The exponent at which the ratio has a mantissa of 53 digits, or the smallest exponent. -/
def exponentFor (num den : Nat) : Int :=
  let low : Int := max ((num.log2 : Int) - (den.log2 : Int) - 53) minExponent
  let (n, d) := scale num den low
  if n / d < twoPow 53 then low else low + 1

/-- The value nearest to a ratio, an exact half going to the even mantissa. -/
def ofRatio (num den : Nat) : Binary64 :=
  if num = 0 then zero
  else
    let exponent := exponentFor num den
    let (n, d) := scale num den exponent
    pack (roundQuotient n d) exponent

/-- The value nearest to `digits * 10 ^ exponent`, where `digits` has `count` digits. Powers far
outside the range are not computed. -/
def ofDecimal (digits count : Nat) (exponent : Int) : Binary64 :=
  if digits = 0 then zero
  else if 400 < exponent + count then .infinite
  else if exponent + count < -400 then zero
  else ofRatio (digits * tenPow exponent.toNat) (tenPow (-exponent).toNat)

/-- The value of one digit more in the given base, rounded. -/
def extend (base : Nat) (value : Binary64) (digit : Nat) : Binary64 :=
  match value with
  | .infinite => .infinite
  | .finite mantissa exponent =>
    ofRatio
      (mantissa * twoPow exponent.toNat * base + digit * twoPow (-exponent).toNat)
      (twoPow (-exponent).toNat)

/-- The value of a sequence of digits in the given base, rounded after each digit. -/
def ofDigits (base : Nat) (digits : List Nat) : Binary64 :=
  digits.foldl (extend base) zero

/-- The number, if it is whole. -/
def whole? : Binary64 → Option Nat
  | .infinite => none
  | .finite mantissa exponent =>
    let divisor := twoPow (-exponent).toNat
    if mantissa % divisor = 0 then some (mantissa / divisor * twoPow exponent.toNat) else none

end Binary64

end KeysetBundle.Decimal
