import AttributeLint.Proofs.Syntax.Element
import AttributeLint.Proofs.Syntax.Names
import AttributeLint.Proofs.Syntax.Paths
import Mathlib

/-!
# Values that are read alike

The readers of nodes look up fields by their names, and they look at few of them.  Two values are *akin*
if nothing that can be looked up tells them apart: they are the same scalar, lists of akin items, or
objects with akin values in all fields but some hidden ones, in whatever order the fields stand.

* `Data.ind`: induction over a value, through the items of lists and the values of fields.
* `Akin`: the relation, for given hidden fields; it is reflexive and transitive.
* `Akin.componentOf_eq`, `Akin.attributeNameOf_eq`, `Akin.literalOf_eq`, `Akin.coordinatesOf_eq`: akin
  nodes have the same names, literals and places, if none of the fields for them is hidden.  A literal
  has to be plain: the text of an object shows all its fields.
* `Akin.refusedWith_iff`: akin elements are refused with the same faults.
-/

namespace AttributeLint

namespace Data

/-- Induction over a value, through the items of lists and the values of fields. -/
theorem ind {P : Data → Prop} (scalar : ∀ d, Syntax.isBranch d = false → P d)
    (list : ∀ items, (∀ d ∈ items, P d) → P (.list items))
    (object : ∀ fields, (∀ entry ∈ fields, P entry.2) → P (.object fields)) (d : Data) : P d := by
  refine @Data.rec P (fun items => ∀ d ∈ items, P d) (fun fields => ∀ entry ∈ fields, P entry.2)
    (fun entry => P entry.2) ?null ?bool ?int ?float ?str ?moment list object ?noItem ?item ?noField
    ?field ?entry d
  case null => exact scalar _ rfl
  case bool => exact fun b => scalar _ rfl
  case int => exact fun n => scalar _ rfl
  case float => exact fun x => scalar _ rfl
  case str => exact fun s => scalar _ rfl
  case moment => exact fun m => scalar _ rfl
  case noItem => exact fun d h => absurd h List.not_mem_nil
  case item => exact fun d rest hd hrest => List.forall_mem_cons.mpr ⟨hd, hrest⟩
  case noField => exact fun entry h => absurd h List.not_mem_nil
  case field => exact fun entry rest he hrest => List.forall_mem_cons.mpr ⟨he, hrest⟩
  case entry => exact fun key d hd => hd

end Data

namespace Syntax

/-! ## The relation -/

/-- Values that cannot be told apart by looking up fields that are not hidden. -/
inductive Akin (hidden : List String) : Data → Data → Prop
  | scalar {d : Data} (hd : isBranch d = false) : Akin hidden d d
  | list {items items' : List Data} (hlength : items.length = items'.length)
      (h : ∀ i hi hi', Akin hidden (items.get ⟨i, hi⟩) (items'.get ⟨i, hi'⟩)) :
      Akin hidden (.list items) (.list items')
  | object {fields fields' : Fields}
      (hnone : ∀ key ∉ hidden, fields.get? key = none ↔ fields'.get? key = none)
      (h : ∀ key ∉ hidden, ∀ d d', fields.get? key = some d → fields'.get? key = some d' →
        Akin hidden d d') :
      Akin hidden (.object fields) (.object fields')

/-- Two lookups find nothing or related values. -/
theorem rel_iff {R : Data → Data → Prop} {x y : Option Data} :
    Option.Rel R x y ↔ (x = none ↔ y = none) ∧ ∀ d d', x = some d → y = some d' → R d d' := by
  constructor
  · intro h
    cases h with
    | none => exact ⟨Iff.rfl, by simp⟩
    | some h => exact ⟨by simp, by simpa using h⟩
  · rintro ⟨hnone, h⟩
    cases hx : x with
    | none => rw [hnone.mp hx]; exact .none
    | some d =>
      cases hy : y with
      | none => rw [hnone.mpr hy] at hx; cases hx
      | some d' => exact .some (h d d' hx hy)

namespace Akin

variable {hidden : List String} {d d' d'' : Data} {key : String}

theorem of_rel {fields fields' : Fields}
    (h : ∀ key ∉ hidden, Option.Rel (Akin hidden) (fields.get? key) (fields'.get? key)) :
    Akin hidden (.object fields) (.object fields') :=
  .object (fun key hk => (rel_iff.mp (h key hk)).1) fun key hk => (rel_iff.mp (h key hk)).2

theorem of_forall₂ {items items' : List Data} (h : List.Forall₂ (Akin hidden) items items') :
    Akin hidden (.list items) (.list items') :=
  .list (List.forall₂_iff_get.mp h).1 (List.forall₂_iff_get.mp h).2

theorem refl (d : Data) : Akin hidden d d := by
  induction d using Data.ind with
  | scalar d hd => exact .scalar hd
  | list items ih => exact .list rfl fun i hi _ => ih _ (List.get_mem items ⟨i, hi⟩)
  | object fields ih =>
    refine .object (fun _ _ => Iff.rfl) fun key _ d d' hd hd' => ?_
    rw [hd] at hd'
    cases hd'
    exact ih _ (Fields.mem_of_get? hd)

theorem trans (h : Akin hidden d d') : ∀ {d''}, Akin hidden d' d'' → Akin hidden d d'' := by
  induction h with
  | scalar _ => exact id
  | list hlength _ ih =>
    intro d'' h'
    cases h' with
    | scalar hd => cases hd
    | list hlength' h' =>
      refine .list (hlength.trans hlength') fun i hi hi' => ?_
      exact ih i hi (hlength ▸ hi) (h' i (hlength ▸ hi) hi')
  | @object fields fields' hnone _ ih =>
    intro d'' h'
    cases h' with
    | scalar hd => cases hd
    | object hnone' h' =>
      refine .object (fun key hk => (hnone key hk).trans (hnone' key hk)) ?_
      intro key hk d d'' hd hd''
      cases hmiddle : fields'.get? key with
      | none =>
        rw [(hnone key hk).mpr hmiddle] at hd
        cases hd
      | some d' => exact ih key hk d d' hd hmiddle (h' key hk d' d'' hmiddle hd'')

theorem field (h : Akin hidden d d') (hk : key ∉ hidden) :
    Akin hidden (d.field key) (d'.field key) := by
  cases h with
  | scalar _ => exact refl _
  | list _ _ => exact refl _
  | @object fields fields' hnone h =>
    have hrel := rel_iff.mpr ⟨hnone key hk, h key hk⟩
    rw [Data.field, Data.field]
    generalize fields.get? key = x at hrel ⊢
    generalize fields'.get? key = y at hrel ⊢
    cases hrel with
    | none => exact refl _
    | some h => exact h

theorem eq_of_scalar (h : Akin hidden d d') (hd : isBranch d = false) : d' = d := by
  cases h with
  | scalar _ => rfl
  | list _ _ => cases hd
  | object _ _ => cases hd

theorem str_iff (h : Akin hidden d d') (s : String) : d = .str s ↔ d' = .str s := by
  cases h with
  | scalar _ => exact Iff.rfl
  | list _ _ => simp
  | object _ _ => simp

theorem kind_eq (h : Akin hidden d d') : d.kind = d'.kind := by
  cases h <;> rfl

theorem isScalar_iff (h : Akin hidden d d') : IsScalar d ↔ IsScalar d' := by
  cases h <;> exact Iff.rfl

theorem forall₂ {items items' : List Data} (h : Akin hidden (.list items) (.list items')) :
    List.Forall₂ (Akin hidden) items items' := by
  cases h with
  | scalar hd => cases hd
  | list hlength h => exact List.forall₂_iff_get.mpr ⟨hlength, h⟩

theorem isOpening_eq {fields fields' : Fields} (h : Akin hidden (.object fields) (.object fields'))
    (htype : "type" ∉ hidden) : isOpening fields = isOpening fields' := by
  rw [Bool.eq_iff_iff, isOpening_iff, isOpening_iff]
  exact (h.field htype).str_iff _

end Akin

/-! ## Names and literals -/

/-- The fields of nodes that are looked up, beside those for their places. -/
def nodeKeys : List String :=
  ["type", "name", "attributes", "object", "property", "namespace", "value", "expression"]

/-- The fields in which the place of a node is written. -/
def placeKeys : List String :=
  ["loc", "start", "line", "column"]

/-- The literal that stands directly in an attribute, if there is one, is a scalar. -/
def PlainLiteral (node : Data) : Prop :=
  isNode "Literal" (node.field "value") = true →
    isBranch ((node.field "value").field "value") = false

namespace Akin

variable {hidden : List String} {d d' : Data} (h : Akin hidden d d')
  (hnode : ∀ key ∈ nodeKeys, key ∉ hidden)
include h hnode

theorem isNode_eq (type : String) : isNode type d = isNode type d' := by
  have htype := h.field (hnode "type" (by decide))
  rw [Bool.eq_iff_iff, isNode_iff, isNode_iff, htype.str_iff]

theorem identifierName_eq : identifierName d = identifierName d' := by
  have hname := h.field (hnode "name" (by decide))
  rw [identifierName, identifierName]
  generalize d.field "name" = name at hname ⊢
  generalize d'.field "name" = name' at hname ⊢
  cases hname <;> rfl

/-- Akin tags name the same component.  The induction is on the relation, since a tag has tags in it. -/
theorem componentOf_eq : componentOf d = componentOf d' := by
  have hobject := hnode "object" (by decide)
  have hproperty := hnode "property" (by decide)
  induction h with
  | scalar _ => rfl
  | list _ _ _ => simp [componentOf]
  | @object fields fields' hnone hsome ih =>
    have hakin : Akin hidden (.object fields) (.object fields') := .object hnone hsome
    have hfield : ∀ key ∉ hidden, componentOf ((Data.object fields).field key) =
        componentOf ((Data.object fields').field key) := by
      intro key hk
      have hrel := rel_iff.mpr ⟨hnone key hk, ih key hk⟩
      rw [Data.field, Data.field]
      generalize fields.get? key = x at hrel ⊢
      generalize fields'.get? key = y at hrel ⊢
      cases hrel with
      | none => rfl
      | some h => exact h
    rw [componentOf, componentOf, hakin.isNode_eq hnode, hakin.isNode_eq hnode,
      hakin.isNode_eq hnode, hakin.identifierName_eq hnode, componentIn_eq, componentIn_eq,
      componentIn_eq, componentIn_eq, hfield _ hobject, hfield _ hproperty,
      (hakin.field (hnode "namespace" (by decide))).identifierName_eq hnode,
      (hakin.field (hnode "name" (by decide))).identifierName_eq hnode]

theorem attributeNameOf_eq : attributeNameOf d = attributeNameOf d' := by
  have hname := h.field (hnode "name" (by decide))
  rw [attributeNameOf, attributeNameOf, hname.isNode_eq hnode, hname.identifierName_eq hnode,
    (hname.field (hnode "namespace" (by decide))).identifierName_eq hnode,
    (hname.field (hnode "name" (by decide))).identifierName_eq hnode]

theorem literalOf_eq (hplain : PlainLiteral d) : literalOf d = literalOf d' := by
  have hvalue := h.field (hnode "value" (by decide))
  have hexpression := hvalue.field (hnode "expression" (by decide))
  rw [literalOf, literalOf]
  dsimp only
  rw [← hvalue.isNode_eq hnode "Literal", ← hvalue.isNode_eq hnode "JSXExpressionContainer",
    ← hexpression.isNode_eq hnode "Literal"]
  split
  · next hliteral =>
    rw [(hvalue.field (hnode "value" (by decide))).eq_of_scalar (hplain hliteral)]
  · have htext := hexpression.field (hnode "value" (by decide))
    generalize ((d.field "value").field "expression").field "value" = text at htext ⊢
    generalize ((d'.field "value").field "expression").field "value" = text' at htext ⊢
    cases htext <;> rfl

/-- The items in the lists of attributes are akin, one by one. -/
theorem itemsOf_forall₂ : List.Forall₂ (Akin hidden) (itemsOf d) (itemsOf d') := by
  have hattributes := h.field (hnode "attributes" (by decide))
  rw [itemsOf, itemsOf]
  generalize d.field "attributes" = attributes at hattributes ⊢
  generalize d'.field "attributes" = attributes' at hattributes ⊢
  cases hattributes with
  | list hlength hitems => exact (Akin.list hlength hitems).forall₂
  | object _ _ => exact .nil
  | scalar hd =>
    split
    · cases hd
    · exact .nil

theorem isEntry_iff : IsEntry d ↔ IsEntry d' := by
  rw [IsEntry, IsEntry, h.isNode_eq hnode, h.isNode_eq hnode]

end Akin

/-! ## Places and refusals -/

/-- The line and the column that a node names, whether or not they can be read. -/
def coordinatesOf (node : Data) : Option (Coordinate × Coordinate) :=
  match (node.field "loc").field "start" with
  | .object start => some (Position.coordinate start "line", Position.coordinate start "column")
  | _ => none

/-- The position of a line and a column, if both can be read. -/
def positionAt : Coordinate × Coordinate → Option Position
  | (.at line, .at column) => some ⟨line, column⟩
  | _ => none

theorem startOf_eq_bind (node : Data) : startOf node = (coordinatesOf node).bind positionAt := by
  rw [startOf, coordinatesOf]
  cases (node.field "loc").field "start" with
  | object start =>
    dsimp only
    rw [Option.bind_some]
    cases Position.coordinate start "line" <;> cases Position.coordinate start "column" <;> rfl
  | _ => rfl

theorem startsAtInfinity_iff_coordinates {node : Data} :
    StartsAtInfinity node ↔ ∃ line column, coordinatesOf node = some (line, column) ∧
      (line = .infinite ∨ (∃ n, line = .at n) ∧ column = .infinite) := by
  constructor
  · rintro ⟨start, hs, hi⟩
    refine ⟨_, _, by rw [coordinatesOf, hs], ?_⟩
    rwa [coordinate_eq_infinite_iff, coordinate_eq_infinite_iff]
  · rintro ⟨line, column, hc, hi⟩
    unfold coordinatesOf at hc
    split at hc
    · next start hs =>
      cases hc
      refine ⟨start, hs, ?_⟩
      rwa [← coordinate_eq_infinite_iff, ← coordinate_eq_infinite_iff]
    · cases hc

namespace Akin

variable {hidden : List String} {d d' : Data} (h : Akin hidden d d')

include h in
theorem coordinate_eq : Coordinate.ofData d = Coordinate.ofData d' := by
  cases h <;> rfl

theorem coordinate_get? {start start' : Fields} (h : Akin hidden (.object start) (.object start'))
    {key : String} (hk : key ∉ hidden) :
    Position.coordinate start key = Position.coordinate start' key := by
  cases h with
  | scalar hd => cases hd
  | object hnone hsome =>
    have hrel := rel_iff.mpr ⟨hnone key hk, hsome key hk⟩
    rw [Position.coordinate, Position.coordinate]
    generalize start.get? key = x at hrel ⊢
    generalize start'.get? key = y at hrel ⊢
    cases hrel with
    | none => rfl
    | some h => exact h.coordinate_eq

variable (hplace : ∀ key ∈ placeKeys, key ∉ hidden)
include h hplace

theorem coordinatesOf_eq : coordinatesOf d = coordinatesOf d' := by
  have hstart := (h.field (hplace "loc" (by decide))).field (hplace "start" (by decide))
  rw [coordinatesOf, coordinatesOf]
  generalize (d.field "loc").field "start" = start at hstart ⊢
  generalize (d'.field "loc").field "start" = start' at hstart ⊢
  cases hstart with
  | scalar _ => rfl
  | list _ _ => rfl
  | object hnone hsome =>
    have hobject := Akin.object hnone hsome
    dsimp only
    rw [hobject.coordinate_get? (hplace "line" (by decide)),
      hobject.coordinate_get? (hplace "column" (by decide))]

theorem startOf_eq : startOf d = startOf d' := by
  rw [startOf_eq_bind, startOf_eq_bind, h.coordinatesOf_eq hplace]

theorem startsAtInfinity_iff : StartsAtInfinity d ↔ StartsAtInfinity d' := by
  rw [startsAtInfinity_iff_coordinates, startsAtInfinity_iff_coordinates, h.coordinatesOf_eq hplace]

/-- **Akin elements are refused alike**: both with the same fault, or neither. -/
theorem refusedWith_iff (hnode : ∀ key ∈ nodeKeys, key ∉ hidden) (f : Fault) :
    RefusedWith d f ↔ RefusedWith d' f := by
  have hattributes := h.field (hnode "attributes" (by decide))
  have hitems : (∃ node ∈ itemsOf d, IsEntry node ∧ StartsAtInfinity node) ↔
      ∃ node ∈ itemsOf d', IsEntry node ∧ StartsAtInfinity node := by
    have hforall := h.itemsOf_forall₂ hnode
    generalize itemsOf d = items at hforall ⊢
    generalize itemsOf d' = items' at hforall ⊢
    induction hforall with
    | nil => exact Iff.rfl
    | cons hd _ ih =>
      rw [List.exists_mem_cons_iff, List.exists_mem_cons_iff]
      exact or_congr (and_congr (hd.isEntry_iff hnode) (hd.startsAtInfinity_iff hplace)) ih
  rw [RefusedWith, RefusedWith, Refused, Refused, hitems, h.startsAtInfinity_iff hplace,
    hattributes.isScalar_iff, hattributes.kind_eq]

end Akin

end Syntax

end AttributeLint
