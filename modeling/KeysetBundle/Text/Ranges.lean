/-!
# Sets of characters as ranges

A character property is given by the ranges of code points that have it.
-/

namespace KeysetBundle.Text

/-- Whether a code point lies in one of the ranges, ends included. -/
def inRanges (ranges : List (Nat × Nat)) (n : Nat) : Bool :=
  ranges.any fun range => range.1 ≤ n && n ≤ range.2

end KeysetBundle.Text
