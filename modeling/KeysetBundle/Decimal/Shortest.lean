import KeysetBundle.Decimal.Binary64

/-!
# The shortest decimal of a value

The decimal with the fewest digits among those that round to a given binary64 value, and of these
the one nearest to the value. For each number of digits the two neighbours of the value on the
decimal grid are tried in exact arithmetic.
-/

namespace KeysetBundle.Decimal

/-- The number `digits * 10 ^ exponent`. -/
structure Scaled where
  /-- The digits as a number. -/
  digits : Nat
  /-- The power of ten of the last digit. -/
  exponent : Int
  deriving DecidableEq, Repr, Inhabited

/-- The order of a decimal and of `n * 2 ^ q`. -/
def Scaled.compareBinary (d : Scaled) (n : Nat) (q : Int) : Ordering :=
  compare (d.digits * tenPow d.exponent.toNat * twoPow (-q).toNat)
    (n * twoPow q.toNat * tenPow (-d.exponent).toNat)

/-- Whether a decimal rounds to `mantissa * 2 ^ exponent`: it lies within half a step of the value,
and the ends count if the mantissa is even. The step below a power of two is half as wide. -/
def Scaled.roundsTo (d : Scaled) (mantissa : Nat) (exponent : Int) : Bool :=
  let narrow := mantissa = twoPow 52 ∧ Binary64.minExponent < exponent
  let low := d.compareBinary (4 * mantissa - if narrow then 1 else 2) (exponent - 2)
  let high := d.compareBinary (4 * mantissa + 2) (exponent - 2)
  let ends := mantissa % 2 == 0
  (low == .gt || (ends && low == .eq)) && (high == .lt || (ends && high == .eq))

/-- The value in steps of `10 ^ power`, rounded down. -/
def floorAt (mantissa : Nat) (exponent power : Int) : Nat :=
  (mantissa * twoPow exponent.toNat * tenPow (-power).toNat) /
    (twoPow (-exponent).toNat * tenPow power.toNat)

/-- The least power of ten above the value. -/
def magnitude (mantissa : Nat) (exponent : Int) : Int :=
  let guess : Int := ((mantissa.log2 : Int) + exponent) * 30103 / 100000 - 1
  let above (power : Int) : Bool := floorAt mantissa exponent power == 0
  (([0, 1, 2, 3].map fun (i : Int) => guess + i).find? above).getD (guess + 4)

/-- The better of the two decimals with `count` digits around the value, if one rounds to it. -/
def candidate? (mantissa : Nat) (exponent : Int) (count : Nat) : Option Scaled :=
  let power := magnitude mantissa exponent - count
  let below := floorAt mantissa exponent power
  let lower : Scaled := ⟨below, power⟩
  let upper : Scaled := ⟨below + 1, power⟩
  match lower.roundsTo mantissa exponent, upper.roundsTo mantissa exponent with
  | false, false => none
  | true, false => some lower
  | false, true => some upper
  | true, true =>
    -- The lower one is nearer if the middle of the two lies above the value.
    match (⟨2 * below + 1, power⟩ : Scaled).compareBinary (2 * mantissa) exponent with
    | .gt => some lower
    | .lt => some upper
    | .eq => some (if below % 2 = 0 then lower else upper)

/-- The exact decimal of a value. -/
def exactDecimal (mantissa : Nat) (exponent : Int) : Scaled :=
  ⟨mantissa * twoPow exponent.toNat * Nat.pow 5 (-exponent).toNat, -((-exponent).toNat : Int)⟩

/-- The decimal without up to `count` zeros at its end. -/
def Scaled.strip : Nat → Scaled → Scaled
  | 0, d => d
  | count + 1, d =>
    if d.digits ≠ 0 ∧ d.digits % 10 = 0 then strip count ⟨d.digits / 10, d.exponent + 1⟩ else d

/-- The shortest decimal that rounds to `mantissa * 2 ^ exponent`. -/
def shortest (mantissa : Nat) (exponent : Int) : Scaled :=
  match ((List.range 17).map (· + 1)).findSome? (candidate? mantissa exponent) with
  | some d => d.strip 17
  | none => exactDecimal mantissa exponent

/-- A decimal written without an exponent. -/
def Scaled.positional (d : Scaled) : String :=
  let digits := (toString d.digits).toList
  let places := (-d.exponent).toNat
  if places = 0 then String.ofList (digits ++ List.replicate d.exponent.toNat '0')
  else if places < digits.length then
    String.ofList (digits.take (digits.length - places) ++
      '.' :: digits.drop (digits.length - places))
  else String.ofList ('0' :: '.' :: List.replicate (places - digits.length) '0' ++ digits)

end KeysetBundle.Decimal
