import AttributeLint.Pattern.Regex

/-!
# Places in a text

A cursor is a place between two characters of a text: the characters before it, the nearest first,
those after it, and how many there are before it.
-/

namespace AttributeLint.Pattern

/-- A place in a text. -/
structure Cursor where
  /-- The number of characters before the cursor. -/
  index : Nat
  before : List Char
  after : List Char
  deriving DecidableEq, Repr, Inhabited

namespace Cursor

/-- The whole text. -/
def text (c : Cursor) : List Char :=
  c.before.reverse ++ c.after

/-- The characters between two places of the text.  Those before the cursor are taken from there. -/
def slice (c : Cursor) (first last : Nat) : List Char :=
  if last ≤ c.index then ((c.before.drop (c.index - last)).take (last - first)).reverse
  else (c.text.drop first).take (last - first)

/-- The cursor behind the next character, if that is one of those asked for. -/
def over? (holds : Char → Bool) (c : Cursor) : Option Cursor :=
  match c.after with
  | next :: after => if holds next then some ⟨c.index + 1, next :: c.before, after⟩ else none
  | [] => none

/-- The cursor some characters further back, if there are as many. -/
def back? : Nat → Cursor → Option Cursor
  | 0, c => some c
  | _ + 1, ⟨_, [], _⟩ => none
  | n + 1, ⟨i, b :: before, after⟩ => back? n ⟨i - 1, before, b :: after⟩

/-- The cursor one character further back; at the start of the text, the same. -/
def previous (c : Cursor) : Cursor :=
  (c.back? 1).getD c

/-- How many of the next characters, up to a limit, are among those asked for, and the cursor behind
them. -/
def count (holds : Char → Bool) : Nat → Cursor → Nat × Cursor
  | 0, c => (0, c)
  | limit + 1, c =>
    match c.over? holds with
    | some next =>
      let (n, last) := count holds limit next
      (n + 1, last)
    | none => (0, c)

/-- All cursors from one on, which is told by its index and the characters around it. -/
def onward (index : Nat) (before : List Char) : List Char → List Cursor
  | [] => [⟨index, before, []⟩]
  | c :: after => ⟨index, before, c :: after⟩ :: onward (index + 1) (c :: before) after

/-- All cursors of a text. -/
def all (text : List Char) : List Cursor :=
  onward 0 [] text

end Cursor

/-- Whether the character on one side of a cursor belongs to a word and that on the other does not. -/
def Cursor.atBoundary (isWord : Char → Bool) (c : Cursor) : Bool :=
  c.before.head?.any isWord != c.after.head?.any isWord

end AttributeLint.Pattern
