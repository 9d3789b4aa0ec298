/-!
# Ranges of code points

A property of characters that no formula gives is held as a list of closed ranges of code points.
This file holds the membership test for such a list.
-/

namespace CardFilter

/-- The code point `n` lies in one of the closed ranges. -/
def inRanges (ranges : List (Nat × Nat)) (n : Nat) : Bool :=
  ranges.any fun r => r.1 ≤ n && n ≤ r.2

end CardFilter
