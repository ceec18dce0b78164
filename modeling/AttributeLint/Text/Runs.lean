/-!
# Runs of code points

A mapping of code points is stored as the list of the runs that it moves: the first and the last code
point of a run, the step from one to the next, and the distance that all of them are moved by.
-/

namespace AttributeLint.Text

/-- Runs of code points that a mapping moves. -/
abbrev Runs := List (Nat × Nat × Nat × Int)

namespace Runs

/-- Where a mapping takes a code point; one that is in no run stays where it is. -/
def move (rs : Runs) (code : Nat) : Nat :=
  match rs.find? fun r => r.1 ≤ code && code ≤ r.2.1 && (code - r.1) % r.2.2.1 == 0 with
  | some r => ((code : Int) + r.2.2.2).toNat
  | none => code

/-- The first code point of a run from a given one on; it may lie behind the run. -/
def firstFrom (first step code : Nat) : Nat :=
  if code ≤ first then first else first + (code - first + step - 1) / step * step

/-- Whether a mapping moves a code point between two others, both of them included. -/
def movesWithin (rs : Runs) (low high : Nat) : Bool :=
  rs.any fun r => firstFrom r.1 r.2.2.1 low ≤ min r.2.1 high

end Runs

end AttributeLint.Text
