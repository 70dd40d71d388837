/-!
# Code points with surrogate halves

An escape in a script may name half of a surrogate pair, so the value of a literal is a sequence
of code points in which halves can occur. It is a text if each high half is followed by a low one
and no other half is left; the two halves then stand for one character.
-/

namespace KeysetBundle.Text

/-- Whether a code point is the first half of a pair. -/
def isHighHalf (n : Nat) : Bool := 0xd800 ≤ n && n < 0xdc00

/-- Whether a code point is the second half of a pair. -/
def isLowHalf (n : Nat) : Bool := 0xdc00 ≤ n && n < 0xe000

/-- The character of a pair of halves. -/
def joinedHalves (high low : Nat) : Char :=
  Char.ofNat (0x10000 + (high - 0xd800) * 0x400 + (low - 0xdc00))

/-- The text of a sequence of code points, if no half is left alone. -/
def joinHalves? : List Nat → Option (List Char)
  | [] => some []
  | [n] => if isHighHalf n || isLowHalf n then none else some [Char.ofNat n]
  | n :: m :: rest =>
    if isHighHalf n then
      if isLowHalf m then (joinHalves? rest).map (joinedHalves n m :: ·) else none
    else if isLowHalf n then none
    else (joinHalves? (m :: rest)).map (Char.ofNat n :: ·)

/-- The text of a sequence of code points as a string. -/
def ofCodePoints? (points : List Nat) : Option String :=
  (joinHalves? points).map String.ofList

end KeysetBundle.Text
