import AttributeLint.Pattern.Choice
import AttributeLint.Pattern.Input

/-!
# The state of reading a pattern

A pattern is read from left to right.  Every group that is open is a level: what its parenthesis
announced, the alternatives that are complete, and the items of the alternative being read.  Beside
the levels stands what is known of the groups that capture.
-/

namespace AttributeLint.Pattern

/-- What a parenthesis announced. -/
inductive Opening where
  /-- The whole pattern, which no parenthesis opens. -/
  | whole
  | capture (group : Nat)
  | flagged (on off : Flags)
  | atomic
  | ahead (negated : Bool)
  /-- A look behind, with the mark that was set before it. -/
  | behind (negated : Bool) (mark : Option Nat)
  | whether (group : Nat)
  deriving DecidableEq, Repr, Inhabited

/-- A group that is open. -/
structure Level where
  opening : Opening
  /-- The place of its parenthesis. -/
  start : Nat
  /-- Whether blanks and comments are skipped in it. -/
  verbose : Bool
  /-- Its complete alternatives, the last first. -/
  done : List Regex := []
  /-- The items of the alternative being read, the last first. -/
  items : List Regex := []
  deriving Repr, Inhabited

/-- The groups that capture. -/
structure Groups where
  /-- The numbers of the groups that have a name. -/
  names : List (String × Nat) := []
  /-- The widths of the groups from number one on, none for one that is open. -/
  widths : List (Option Width) := []
  /-- The number of the next group when the outermost look behind that is open was opened. -/
  mark : Option Nat := none
  /-- The groups that conditions ask for by number, each with the place where this came first. -/
  asked : List (Nat × Nat) := []
  deriving Repr, Inhabited

/-- Where reading a pattern stands. -/
structure State where
  input : Input
  /-- The flags of the whole pattern. -/
  flags : Flags
  groups : Groups := {}
  /-- The innermost level. -/
  level : Level
  /-- The levels around it, from the inside out. -/
  outer : List Level := []
  deriving Repr, Inhabited

namespace Level

/-- The items of the alternative being read as one expression. -/
def current (l : Level) : Regex :=
  Regex.sequence l.items.reverse

/-- All alternatives as one expression. -/
def body (l : Level) : Regex :=
  Regex.choices (l.current :: l.done).reverse

/-- Adds an item to the alternative being read. -/
def push (l : Level) (r : Regex) : Level :=
  { l with items := r :: l.items }

/-- Completes the alternative being read and starts the next. -/
def split (l : Level) : Level :=
  { l with done := l.current :: l.done, items := [] }

end Level

namespace Groups

/-- The number of the next group. -/
def next (g : Groups) : Nat :=
  g.widths.length + 1

/-- The width of a group that is closed. -/
def closed? (g : Groups) (group : Nat) : Option Width :=
  match group with
  | 0 => none
  | n + 1 => (g.widths[n]?).join

/-- Opens the next group. -/
def openNext (g : Groups) (name : Option String) : Groups :=
  { g with
    names := match name with
      | some name => g.names ++ [(name, g.next)]
      | none => g.names
    widths := g.widths ++ [none] }

/-- Closes a group. -/
def close (g : Groups) (group : Nat) (width : Width) : Groups :=
  { g with widths := g.widths.set (group - 1) (some width) }

/-- Notes that a condition asks for a group by number. -/
def ask (g : Groups) (group place : Nat) : Groups :=
  if g.asked.any (·.1 == group) then g else { g with asked := g.asked ++ [(group, place)] }

/-- Inside a look behind, only groups that were closed before it can be referred to. -/
def checkMark (g : Groups) (group place : Nat) : Except Failure Unit :=
  match g.mark with
  | none => .ok ()
  | some mark =>
    if (g.closed? group).isNone then .error (.at place .openGroup)
    else if mark ≤ group then .error (.at place .groupOfLookbehind)
    else .ok ()

end Groups

namespace State

/-- Adds an item to the innermost level and goes on behind it. -/
def push (s : State) (r : Regex) (i : Input) : State :=
  { s with level := s.level.push r, input := i }

/-- Goes on at another place. -/
def goTo (s : State) (i : Input) : State :=
  { s with input := i }

/-- Opens a level. -/
def enter (s : State) (opening : Opening) (start : Nat) (verbose : Bool) (i : Input) : State :=
  { s with level := { opening, start, verbose }, outer := s.level :: s.outer, input := i }

end State

end AttributeLint.Pattern
