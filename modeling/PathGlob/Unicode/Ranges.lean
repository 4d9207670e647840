/-!
# Ranges of code points

A character property is a table of ranges of code points.
-/

namespace PathGlob

namespace Unicode

/-- The character lies in one of the ranges, ends included. -/
def inRanges (ranges : List (Nat × Nat)) (c : Char) : Bool :=
  ranges.any fun r => r.1 ≤ c.toNat && c.toNat ≤ r.2

end Unicode

end PathGlob
