/-!
# Ranges of code points

A property of characters is stored as the list of the ranges that have it, in increasing order,
both ends included.
-/

namespace AttributeLint.Text

/-- Ranges of code points, both ends included, in increasing order. -/
abbrev Ranges := List (Nat × Nat)

/-- Whether a code point lies in one of the ranges. -/
def Ranges.contains (rs : Ranges) (code : Nat) : Bool :=
  rs.any fun r => r.1 ≤ code && code ≤ r.2

end AttributeLint.Text
