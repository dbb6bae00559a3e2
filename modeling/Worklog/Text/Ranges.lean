/-!
# Classes of characters

A class of characters is a list of inclusive ranges of code points.
-/

namespace Worklog.Text

/-- Whether the code point of `c` lies in one of the ranges. -/
def inRanges (ranges : List (Nat × Nat)) (c : Char) : Bool :=
  ranges.any fun r => r.1 ≤ c.toNat && c.toNat ≤ r.2

end Worklog.Text
