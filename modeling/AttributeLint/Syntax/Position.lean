import AttributeLint.Data.Basic
import AttributeLint.Number.Integer
import AttributeLint.Syntax.Fault

/-!
# Positions

A node may say where it starts.  Coordinates are integers, or what can be read as one: truth values,
numbers with their fraction cut off, and numbers written as text.  A position with a coordinate that
cannot be read is no position, but an infinite one is refused.
-/

namespace AttributeLint.Syntax

/-- Where a node starts: lines count from one and columns from zero. -/
structure Position where
  line : Int
  column : Int
  deriving DecidableEq, Repr, Inhabited

/-- What is made of a coordinate. -/
inductive Coordinate where
  | at (n : Int)
  | unreadable
  | infinite
  deriving DecidableEq, Repr

/-- Reads a coordinate. -/
def Coordinate.ofData : Data → Coordinate
  | .bool b => .at (if b then 1 else 0)
  | .int n => .at n
  | .float .nan => .unreadable
  | .float (.infinite _) => .infinite
  | .float x => .at x.truncate
  | .str s =>
    match Integer.ofText? s.toList with
    | some n => .at n
    | none => .unreadable
  | _ => .unreadable

namespace Position

/-- A coordinate by its name; it is zero where it is missing. -/
def coordinate (start : Fields) (key : String) : Coordinate :=
  match start.get? key with
  | some d => .ofData d
  | none => .at 0

/-- The position that two coordinates make. -/
def ofStart (start : Fields) : Except Fault (Option Position) :=
  match coordinate start "line" with
  | .infinite => .error .infinitePosition
  | .unreadable => .ok none
  | .at line =>
    match coordinate start "column" with
    | .infinite => .error .infinitePosition
    | .unreadable => .ok none
    | .at column => .ok (some ⟨line, column⟩)

/-- The position of a node. -/
def ofNode (node : Data) : Except Fault (Option Position) :=
  match (node.field "loc").field "start" with
  | .object start => ofStart start
  | _ => .ok none

end Position

end AttributeLint.Syntax
