/-!
# ChipEight.Text.Ranges

Sets of code points, given by the ranges that they consist of.
-/

namespace ChipEight.Text

/-- Ranges of code points; both ends of a range belong to it. -/
abbrev Ranges := List (Nat × Nat)

/-- Whether a code point lies in one of the ranges. -/
def Ranges.contains (ranges : Ranges) (n : Nat) : Bool :=
  ranges.any fun range => range.1 ≤ n && n ≤ range.2

end ChipEight.Text
