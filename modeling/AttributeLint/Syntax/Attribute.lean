import AttributeLint.Syntax.Position
import AttributeLint.Syntax.Tag

/-!
# Attributes

An attribute of an element has a name, perhaps a value, and a position.  `AttributeValue.literal?` is
the text of a literal value: of one that stands there directly, if it is not empty, and of a string
between braces, also if it is empty.
-/

namespace AttributeLint.Syntax

/-- What stands between braces. -/
inductive Contents where
  | literal (value : Data)
  | empty
  | other (type : String)
  deriving Repr, Inhabited

/-- The value of an attribute. -/
inductive AttributeValue where
  | literal (value : Data)
  | braces (contents : Contents)
  | other (type : String)
  deriving Repr, Inhabited

/-- The name of an attribute. -/
inductive AttributeName where
  | identifier (name : String)
  | namespaced (space name : String)
  deriving DecidableEq, Repr, Inhabited

/-- An attribute with a name. -/
structure Attribute where
  name : AttributeName
  value : Option AttributeValue
  position : Option Position
  deriving Repr, Inhabited

/-- An entry in the list of attributes. -/
inductive Entry where
  | attribute (a : Attribute)
  | spread (position : Option Position)
  deriving Repr, Inhabited

/-- A literal value as text; null has none. -/
def literalText? : Data → Option String
  | .null => none
  | .bool b => some (if b then "true" else "false")
  | .float x => some (if x.isWhole then toString x.truncate else x.text)
  | d => some d.text

/-- What stands between braces, from its node. -/
def Contents.ofNode (node : Data) : Contents :=
  let type := typeOf node
  if type == "Literal" then .literal (node.field "value")
  else if type == "JSXEmptyExpression" then .empty
  else .other type

namespace AttributeValue

/-- The value of an attribute, from its node. -/
def ofNode (node : Data) : Option AttributeValue :=
  match node with
  | .null => none
  | _ =>
    let type := typeOf node
    some <|
      if type == "Literal" then .literal (node.field "value")
      else if type == "JSXExpressionContainer" then .braces (.ofNode (node.field "expression"))
      else .other type

/-- The text of a literal value. -/
def literal? : AttributeValue → Option String
  | .literal d =>
    match literalText? d with
    | some text => if text.isEmpty then none else some text
    | none => none
  | .braces (.literal (.str s)) => some s
  | _ => none

end AttributeValue

namespace AttributeName

/-- The name of an attribute, from its node. -/
def ofNode (node : Data) : AttributeName :=
  if typeOf node == "JSXNamespacedName" then
    .namespaced (identifierName (node.field "namespace")) (identifierName (node.field "name"))
  else .identifier (identifierName node)

/-- A name as it stands in the markup. -/
def text : AttributeName → String
  | .identifier name => name
  | .namespaced space name => space ++ ":" ++ name

end AttributeName

/-- The text of a literal value of an attribute. -/
def Attribute.literal? (a : Attribute) : Option String :=
  a.value.bind AttributeValue.literal?

/-- An entry in the list of attributes, from its node; other nodes are passed over. -/
def Entry.ofNode (node : Data) : Except Fault (Option Entry) :=
  let type := typeOf node
  if type == "JSXSpreadAttribute" then do
    let position ← Position.ofNode node
    return some (.spread position)
  else if type == "JSXAttribute" then do
    let position ← Position.ofNode node
    return some (.attribute
      ⟨.ofNode (node.field "name"), AttributeValue.ofNode (node.field "value"), position⟩)
  else .ok none

end AttributeLint.Syntax
