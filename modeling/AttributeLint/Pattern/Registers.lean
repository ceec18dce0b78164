import AttributeLint.Pattern.Cursor

/-!
# Registers

While it matches, the matcher keeps two registers: the place that was last noted, and the marks of the
groups.  Group `n` has the marks `2 * n - 2` and `2 * n - 1`, set where it is entered and where it is
left; the marks up to the highest one that was set are valid.  An attempt that fails leaves its
registers behind, and whoever made the attempt decides what of them to take back.
-/

namespace AttributeLint.Pattern

/-- What the matcher keeps while it matches. -/
structure Registers where
  place : Cursor
  /-- The valid marks; none for one that was passed over. -/
  marks : List (Option Nat) := []
  deriving DecidableEq, Repr, Inhabited

namespace Registers

/-- Notes a place. -/
def note (r : Registers) (c : Cursor) : Registers :=
  { r with place := c }

/-- Sets a mark; the marks between it and the highest valid one become valid, but are not set. -/
def mark (r : Registers) (i : Nat) (c : Cursor) : Registers :=
  { r with marks :=
      if i < r.marks.length then r.marks.set i (some c.index)
      else r.marks ++ List.replicate (i - r.marks.length) none ++ [some c.index] }

/-- Where a group begins and ends, if it has taken part. -/
def captured? (r : Registers) (group : Nat) : Option (Nat × Nat) :=
  match r.marks[2 * group - 2]?, r.marks[2 * group - 1]? with
  | some (some first), some (some last) => if first ≤ last then some (first, last) else none
  | _, _ => none

/-- Makes only the marks valid that were so before.  Inside a loop they also get back their values;
elsewhere they keep the values that they have now. -/
def restore (r : Registers) (inLoop : Bool) (marks : List (Option Nat)) : Registers :=
  { r with marks := if inLoop then marks else r.marks.take marks.length }

end Registers

/-- How an attempt ended: whether it led to a match, and the registers. -/
structure Attempt where
  found : Bool
  registers : Registers
  deriving DecidableEq, Repr, Inhabited

namespace Attempt

/-- An attempt that led to nothing. -/
def fail (r : Registers) : Attempt :=
  ⟨false, r⟩

/-- What comes of an attempt if it failed, given what to do with the registers that it left. -/
@[inline] def orElse (a : Attempt) (next : Registers → Attempt) : Attempt :=
  if a.found then a else next a.registers

/-- The attempt, with a place noted if it failed. -/
@[inline] def orNote (a : Attempt) (c : Cursor) : Attempt :=
  a.orElse fun r => fail (r.note c)

end Attempt

/-- What is still to be matched from a cursor on. -/
abbrev Continuation := Cursor → Registers → Attempt

/-- A way to match something from a cursor and then go on. -/
abbrev Matcher := Cursor → Registers → Continuation → Attempt

/-- The end of what is to be matched: the place is noted. -/
def Continuation.stop : Continuation :=
  fun c r => ⟨true, r.note c⟩

end AttributeLint.Pattern
