import AttributeLint.Pattern.Fault
import AttributeLint.Pattern.Token

/-!
# The unread part of a pattern

An input is the tokens that are still to be read and the place of the first of them.  Stepping over a
token looks at the next one, and a backslash at the very end of the pattern is refused at that moment.
-/

namespace AttributeLint.Pattern

/-- The tokens still to be read, and the place of the first of them. -/
structure Input where
  rest : List Token
  place : Nat
  deriving DecidableEq, Repr, Inhabited

namespace Input

/-- The input that starts with some tokens, unless the first of them is a backslash alone. -/
def settle (rest : List Token) (place : Nat) : Except Failure Input :=
  match rest with
  | .dangling :: _ => .error (.at place .danglingBackslash)
  | _ => .ok ⟨rest, place⟩

/-- The input of a whole pattern. -/
def ofChars (source : List Char) : Except Failure Input :=
  settle (tokenize source) 0

/-- Steps over the first token, if there is one. -/
def next (i : Input) : Except Failure (Option Token × Input) :=
  match i.rest with
  | [] => .ok (none, i)
  | t :: rest => do
    let i ← settle rest (i.place + t.width)
    .ok (some t, i)

/-- Steps over the first token if it is this character. -/
def accept (c : Char) (i : Input) : Except Failure (Option Input) :=
  match i.rest with
  | [] => .ok none
  | t :: rest =>
    if t = .plain c then do
      let i ← settle rest (i.place + t.width)
      .ok (some i)
    else .ok none

/-- Whether the first token is this character. -/
def startsWith (c : Char) (i : Input) : Bool :=
  i.rest.head? == some (.plain c)

/-- Reads single characters that satisfy a test, at most as many as the first argument says. -/
def takeWhile (p : Char → Bool) : Nat → Input → Except Failure (List Char × Input)
  | 0, i => .ok ([], i)
  | n + 1, i =>
    match i.rest with
    | .plain c :: rest =>
      if p c then do
        let i ← settle rest (i.place + 1)
        let (cs, i) ← takeWhile p n i
        .ok (c :: cs, i)
      else .ok ([], i)
    | _ => .ok ([], i)

/-- Reads a name up to the character that ends it. -/
def name (what : String) (stop : Char) (i : Input) : Except Failure (List Char × Input) :=
  go [] i.rest i.place
where
  go (done : List Char) : List Token → Nat → Except Failure (List Char × Input)
    | [], place =>
      if done.isEmpty then .error (.at place (.missingName what))
      else .error (.at (place - done.length) (.unterminatedName stop))
    | t :: rest, place => do
      let i ← settle rest (place + t.width)
      if t = .plain stop then
        if done.isEmpty then .error (.at (i.place - 1) (.missingName what)) else .ok (done, i)
      else go (done ++ t.chars) rest (place + t.width)

/-- Steps over all tokens up to and with the first that is this character; none if there is no such
token. -/
def skipPast (c : Char) (i : Input) : Except Failure (Option Input) :=
  go i.rest i.place
where
  go : List Token → Nat → Except Failure (Option Input)
    | [], _ => .ok none
    | t :: rest, place => do
      let i ← settle rest (place + t.width)
      if t = .plain c then .ok (some i) else go rest (place + t.width)

end Input

end AttributeLint.Pattern
