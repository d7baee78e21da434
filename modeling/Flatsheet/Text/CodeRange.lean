/-!
Sets of characters given by ranges of code points.
-/

namespace Flatsheet

/-- The code points from the first to the second, both included. -/
abbrev CodeRange := Nat × Nat

def isWithin (ranges : List CodeRange) (c : Char) : Bool :=
  ranges.any fun range => range.1 ≤ c.toNat && c.toNat ≤ range.2

end Flatsheet
