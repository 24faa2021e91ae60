/-!
# Ranges of code points

Sets of code points as lists of closed ranges.
-/

namespace I8086

/-- Closed ranges, each with its least and its greatest code point. -/
abbrev Ranges := List (Nat × Nat)

/-- Whether a code point is in one of the ranges. -/
def Ranges.contains (n : Nat) (r : Ranges) : Bool :=
  r.any fun (low, high) => low ≤ n && n ≤ high

end I8086
