import AttributeLint.Proofs.Fields
import AttributeLint.Proofs.Syntax.NodeType

/-!
# Names and values on the nodes themselves

The readers turn the nodes of tags, names and values into types of their own, and the extractors take
texts from these.  Here the texts are taken from the nodes in one step: `componentOf` the name of a
component, `attributeNameOf` the name of an attribute and `literalOf` its literal value.  Both ways
agree on every value, also on those that no parser writes.
-/

namespace AttributeLint.Syntax

/-! ## Components -/

mutual

/-- The name of a component, from the node of its tag. -/
def componentOf : Data → String
  | .object fields =>
    let node := Data.object fields
    if isNode "JSXIdentifier" node then identifierName node
    else if isNode "JSXMemberExpression" node then
      componentIn "object" fields ++ "." ++ componentIn "property" fields
    else if isNode "JSXNamespacedName" node then
      identifierName (node.field "namespace") ++ ":" ++ identifierName (node.field "name")
    else ""
  | _ => ""

/-- The name of a component, from the node in a field. -/
def componentIn (key : String) : List (String × Data) → String
  | [] => ""
  | (k, d) :: rest => if k == key then componentOf d else componentIn key rest

end

mutual

theorem name_ofNode : ∀ d : Data, (Tag.ofNode d).name = componentOf d
  | .object fields => by
    rw [Tag.ofNode, componentOf, typeOf_beq (by decide), typeOf_beq (by decide), typeOf_beq (by decide)]
    split
    · rw [Tag.name]
    · split
      · rw [Tag.name, name_ofField "object" fields, name_ofField "property" fields]
      · split
        · rw [Tag.name]
        · rw [Tag.name]
  | .null | .bool _ | .int _ | .float _ | .str _ | .moment _ | .list _ => by
    rw [Tag.ofNode, componentOf, Tag.name] <;> nofun

theorem name_ofField (key : String) : ∀ fields : List (String × Data),
    (Tag.ofField key fields).name = componentIn key fields
  | [] => by rw [Tag.ofField, componentIn, Tag.name]
  | (k, d) :: rest => by
    rw [Tag.ofField, componentIn]
    split
    · exact name_ofNode d
    · exact name_ofField key rest

end

/-- The name in a field is that of the field's value. -/
theorem componentIn_eq (key : String) (fields : Fields) :
    componentIn key fields = componentOf ((Data.object fields).field key) := by
  induction fields with
  | nil => rw [componentIn, Data.field_nil, componentOf]; nofun
  | cons field rest ih =>
    obtain ⟨k, d⟩ := field
    rw [componentIn, Data.field_cons, ih]
    by_cases hk : k = key
    · rw [if_pos (beq_iff_eq.mpr hk), if_pos hk]
    · rw [if_neg (by rwa [beq_iff_eq]), if_neg hk]

/-! ## Attributes -/

/-- The name of an attribute, from its node. -/
def attributeNameOf (node : Data) : String :=
  let name := node.field "name"
  if isNode "JSXNamespacedName" name then
    identifierName (name.field "namespace") ++ ":" ++ identifierName (name.field "name")
  else identifierName name

theorem text_ofNode (node : Data) :
    (AttributeName.ofNode (node.field "name")).text = attributeNameOf node := by
  rw [AttributeName.ofNode, attributeNameOf, typeOf_beq (by decide)]
  split
  · rfl
  · rfl

/-- The literal text that the node of an attribute carries: that of a literal which stands there
directly, if it is neither null nor empty, or a text in braces. -/
def literalOf (node : Data) : Option String :=
  let value := node.field "value"
  if isNode "Literal" value then
    match literalText? (value.field "value") with
    | some text => if text.isEmpty then none else some text
    | none => none
  else if isNode "JSXExpressionContainer" value then
    let expression := value.field "expression"
    if isNode "Literal" expression then
      match expression.field "value" with
      | .str s => some s
      | _ => none
    else none
  else none

theorem literal?_contents (expression : Data) :
    AttributeValue.literal? (.braces (.ofNode expression)) =
      if isNode "Literal" expression then
        match expression.field "value" with
        | .str s => some s
        | _ => none
      else none := by
  rw [Contents.ofNode, typeOf_beq (by decide), typeOf_beq (by decide)]
  split
  · cases expression.field "value" <;> rfl
  · split <;> rfl

theorem literal?_ofNode (node : Data) :
    (AttributeValue.ofNode (node.field "value")).bind AttributeValue.literal? = literalOf node := by
  rw [literalOf]
  dsimp only
  by_cases hnull : node.field "value" = .null
  · rw [hnull]; rfl
  · rw [AttributeValue.ofNode]
    · rw [Option.bind_some, typeOf_beq (by decide), typeOf_beq (by decide)]
      split
      · rfl
      · split
        · exact literal?_contents _
        · rfl
    · exact hnull

end AttributeLint.Syntax
