import AttributeLint.Data.Text

/-!
# Tags

The name of an element: an identifier, a path of them, or one in a namespace.  `Tag.name` writes it
as it stands in the markup.
-/

namespace AttributeLint.Syntax

/-- The type that a node gives for itself; empty where it gives none. -/
def typeOf : Data → String
  | .object fields =>
    match Fields.get? fields "type" with
    | some d => d.text
    | none => ""
  | _ => ""

/-- The name of an identifier; empty where there is no text for it. -/
def identifierName (node : Data) : String :=
  match node.field "name" with
  | .str s => s
  | _ => ""

/-- The name of an element. -/
inductive Tag where
  | identifier (name : String)
  | member (object property : Tag)
  | namespaced (space name : String)
  /-- A node of any other type. -/
  | other (type : String)
  deriving DecidableEq, Repr, Inhabited

namespace Tag

mutual

/-- The tag of a node. -/
def ofNode : Data → Tag
  | .object fields =>
    let node := Data.object fields
    let type := typeOf node
    if type == "JSXIdentifier" then identifier (identifierName node)
    else if type == "JSXMemberExpression" then
      member (ofField "object" fields) (ofField "property" fields)
    else if type == "JSXNamespacedName" then
      namespaced (identifierName (node.field "namespace")) (identifierName (node.field "name"))
    else other type
  | _ => other ""

/-- The tag of the node in a field. -/
def ofField (key : String) : List (String × Data) → Tag
  | [] => other ""
  | (k, d) :: rest => if k == key then ofNode d else ofField key rest

end

/-- A tag as it stands in the markup; empty for a node of another type. -/
def name : Tag → String
  | identifier name => name
  | member object property => object.name ++ "." ++ property.name
  | namespaced space name => space ++ ":" ++ name
  | other _ => ""

end Tag

end AttributeLint.Syntax
