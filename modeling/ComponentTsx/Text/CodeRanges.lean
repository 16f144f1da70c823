/-!
# Ranges of code points

A character property is a list of closed ranges of code points, ascending and
apart from each other.
-/

namespace ComponentTsx

set_option autoImplicit false

/-- Closed ranges of code points. -/
abbrev CodeRanges := List (Nat × Nat)

namespace CodeRanges

/-- Whether a code point lies in one of the ranges. -/
def contains (ranges : CodeRanges) (code : Nat) : Bool :=
  ranges.any fun range => decide (range.1 ≤ code) && decide (code ≤ range.2)

/-- Whether each range lies above a bound and is not empty, and the next lies above it. -/
def ascendingFrom (bound : Nat) : CodeRanges → Bool
  | [] => true
  | range :: rest =>
      decide (bound ≤ range.1) && decide (range.1 ≤ range.2) && ascendingFrom (range.2 + 1) rest

/-- The number of code points in ranges that are apart from each other. -/
def size : CodeRanges → Nat
  | [] => 0
  | range :: rest => range.2 + 1 - range.1 + size rest

end CodeRanges

end ComponentTsx
