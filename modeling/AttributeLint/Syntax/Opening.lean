import AttributeLint.Syntax.Attribute

/-!
# Opening elements

The opening part of an element: its tag, its attributes and its position.  An empty value in place of
the attributes means that there are none; the fields of an object and the characters of a text are
no attributes.
-/

namespace AttributeLint.Syntax

/-- The opening part of an element. -/
structure Opening where
  tag : Tag
  entries : List Entry
  position : Option Position
  deriving Repr, Inhabited

namespace Opening

/-- The nodes that a value in place of the attributes lists. -/
def listed (attributes : Data) : Except Fault (List Data) :=
  match attributes with
  | .list items => .ok items
  | .null | .str _ | .object _ | .moment _ => .ok []
  | .bool b => if b then .error (.notIterable attributes.kind) else .ok []
  | .int n => if n == 0 then .ok [] else .error (.notIterable attributes.kind)
  | .float x => if x.isZero then .ok [] else .error (.notIterable attributes.kind)

/-- The entries of a list of nodes. -/
def entriesOf : List Data → Except Fault (List Entry)
  | [] => .ok []
  | node :: rest => do
    let entry ← Entry.ofNode node
    let entries ← entriesOf rest
    return match entry with
      | some entry => entry :: entries
      | none => entries

/-- The opening part of an element, from its fields. -/
def ofFields (fields : Fields) : Except Fault Opening := do
  let node := Data.object fields
  let nodes ← listed (node.field "attributes")
  let entries ← entriesOf nodes
  let position ← Position.ofNode node
  return ⟨Tag.ofNode (node.field "name"), entries, position⟩

/-- The opening part of an element, from its node. -/
def ofNode (node : Data) : Except Fault Opening :=
  match node with
  | .object fields => ofFields fields
  | _ => .error (.noFields node.kind)

/-- The attributes with a name, in their order. -/
def attributes (o : Opening) : List Attribute :=
  o.entries.filterMap fun
    | .attribute a => some a
    | .spread _ => none

end Opening

end AttributeLint.Syntax
