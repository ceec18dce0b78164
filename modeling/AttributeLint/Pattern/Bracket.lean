import AttributeLint.Pattern.Escape

/-!
# Classes in brackets

A class lists single characters, ranges and named classes.  A bracket that comes first stands for
itself, and so does a hyphen that is first or last.
-/

namespace AttributeLint.Pattern.Bracket

/-- A single member. -/
def itemOf : Atom → ClassItem
  | .code n => .code n
  | .category c negated => .category c negated

/-- The member that a token starts. -/
def atom (t : Token) (i : Input) : Except Failure (Atom × Input) :=
  match t with
  | .plain c => .ok (.code c.toNat, i)
  | .escaped c => Escape.inClass c i
  | .dangling => .ok (.code 0x5C, i)

/-- A range between two members, behind which the input stands. -/
def range (t u : Token) (first last : Atom) (i : Input) : Except Failure ClassItem :=
  let fault : Except Failure ClassItem :=
    .error (.at (i.place - (t.width + 1 + u.width)) (.badRange t.text u.text))
  match first, last with
  | .code m, .code n => if n < m then fault else .ok (.range m n)
  | _, _ => fault

/-- The members up to the closing bracket, after the members `done`, the last of them first.  The
opening bracket stands at `start`. -/
def items (start : Nat) : Nat → List ClassItem → Input → Except Failure (List ClassItem × Input)
  | 0, _, _ => .error (.at start .unterminatedClass)
  | n + 1, done, i => do
    match ← i.next with
    | (none, _) => throw (.at start .unterminatedClass)
    | (some t, i) =>
      if t = .plain ']' && !done.isEmpty then return (done.reverse, i)
      let (first, i) ← atom t i
      match ← i.accept '-' with
      | none => items start n (itemOf first :: done) i
      | some i =>
        match ← i.next with
        | (none, _) => throw (.at start .unterminatedClass)
        | (some u, i) =>
          if u = .plain ']' then return ((.code 0x2D :: itemOf first :: done).reverse, i)
          let (last, i) ← atom u i
          let item ← range t u first last i
          items start n (item :: done) i

/-- The expression for the members of a class; a class of one character is that character. -/
def classOf (negated : Bool) (items : List ClassItem) : Regex :=
  match items.eraseDups with
  | [.code n] => .code negated n
  | items => .oneOf negated items

/-- A class whose opening bracket at `start` has been read. -/
def read (start : Nat) (i : Input) : Except Failure (Regex × Input) := do
  let (negated, i) ← match ← i.accept '^' with
    | some i => pure (true, i)
    | none => pure (false, i)
  let (found, i) ← items start (i.rest.length + 1) [] i
  return (classOf negated found, i)

end AttributeLint.Pattern.Bracket
