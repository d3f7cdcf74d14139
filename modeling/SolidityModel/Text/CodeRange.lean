/-!
# Ranges of code points

A class of characters is given by a table of inclusive ranges of code points.
-/

namespace SolidityModel

namespace Text

/-- Whether a code point lies in one of the given inclusive ranges. -/
def inRanges (ranges : List (Nat × Nat)) (code : Nat) : Bool :=
  ranges.any fun (first, last) => first ≤ code && code ≤ last

end Text

end SolidityModel
