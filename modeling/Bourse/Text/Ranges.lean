/-!
Sets of characters given by ascending ranges of code points.
-/
namespace Bourse.Text

/-- Whether a code point lies in one of the ranges, both ends included. -/
def inRanges (ranges : Array (Nat × Nat)) (code : Nat) : Bool :=
  ranges.any fun range => range.1 ≤ code && code ≤ range.2

end Bourse.Text
