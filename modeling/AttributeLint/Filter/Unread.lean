import AttributeLint.Data.Text
import AttributeLint.Filter.Expression

/-!
# Values in place of expressions

A value that has not been read as an expression matches nothing: to ask it is refused, whatever it
looks like.
-/

namespace AttributeLint.Filter

/-- A value that stands in place of an expression. -/
structure Unread where
  value : Data
  deriving Repr, Inhabited

namespace Unread

/-- The wording of the refusal. -/
def message (u : Unread) : String :=
  "Unknown rule expression: " ++ u.value.inspect

/-- Asking a value whether it matches an attribute. -/
def holds (u : Unread) (_ : Descriptor) : Except Unread Bool :=
  .error u

/-- Asking a value for each of some attributes. -/
def holdsEach (u : Unread) : List Descriptor → Except Unread (List Bool)
  | [] => .ok []
  | d :: rest => do
    let b ← u.holds d
    let bs ← u.holdsEach rest
    return b :: bs

end Unread

end AttributeLint.Filter
