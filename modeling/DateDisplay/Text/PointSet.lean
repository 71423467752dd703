/-!
# Sets of code points

A class of characters is given by the ranges of code points that belong to it, both ends
included.
-/

namespace DateDisplay

namespace Text

/-- A set of code points, as the ranges that make it up. -/
abbrev PointSet := List (Nat × Nat)

/-- The code point lies in one of the ranges. -/
def PointSet.has (s : PointSet) (n : Nat) : Bool := s.any fun (lo, hi) => lo ≤ n && n ≤ hi

end Text

end DateDisplay
