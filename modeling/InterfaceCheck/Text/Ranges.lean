/-!
# Sets of characters as ranges

A set of characters that a standard lists is kept as its ascending ranges of code points.
-/

namespace InterfaceCheck.Text

/-- A set of code points as ranges, each with its first and last member. -/
abbrev Ranges := List (Nat × Nat)

/-- Whether one of the ranges holds the code point. -/
def Ranges.has (ranges : Ranges) (code : Nat) : Bool :=
  ranges.any fun r => decide (r.1 ≤ code) && decide (code ≤ r.2)

end InterfaceCheck.Text
