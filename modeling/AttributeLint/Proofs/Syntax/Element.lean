import AttributeLint.Proofs.Readers
import AttributeLint.Proofs.Syntax.NodeType
import AttributeLint.Syntax.Opening

/-!
# What an element is read as, and when it is refused

The readers of positions, entries and elements either give a part of the tree in a handier form or
refuse it.  Here both are said on the node itself.

* `ofNode_of_startsAtInfinity`, `ofNode_of_not_startsAtInfinity`: a node is read at the place that it
  names (`startOf`), unless it starts at infinity (`StartsAtInfinity`).
* `ofFields_read`: the attributes of an element are the nodes of type `JSXAttribute` in its list of
  attributes, in their order.
* `ofFields_error_iff`: an element is refused exactly if a number or `true` stands in place of its
  attributes, or if it or one of its entries starts at infinity (`Refused`).
* `ofFields_eq_error_iff`: which fault it is refused with (`RefusedWith`).
-/

namespace AttributeLint.Syntax

/-! ## Positions -/

/-- Whether a coordinate is an infinite number. -/
def IsInfinite (start : Fields) (key : String) : Prop :=
  ∃ negative, start.get? key = some (.float (.infinite negative))

/-- A node starts at infinity if its line is infinite, or if its line can be read and its column is
infinite. -/
def StartsAtInfinity (node : Data) : Prop :=
  ∃ start, (node.field "loc").field "start" = .object start ∧
    (IsInfinite start "line" ∨
      (∃ line, Position.coordinate start "line" = .at line) ∧ IsInfinite start "column")

/-- The place that a node names, if it names one with a line and a column that can be read. -/
def startOf (node : Data) : Option Position :=
  match (node.field "loc").field "start" with
  | .object start =>
    match Position.coordinate start "line", Position.coordinate start "column" with
    | .at line, .at column => some ⟨line, column⟩
    | _, _ => none
  | _ => none

theorem coordinate_eq_infinite_iff {start : Fields} {key : String} :
    Position.coordinate start key = .infinite ↔ IsInfinite start key := by
  unfold Position.coordinate IsInfinite
  cases hget : start.get? key with
  | none => simp
  | some d =>
    cases d with
    | float x => cases x <;> simp [Coordinate.ofData]
    | str s => cases h : Integer.ofText? s.toList <;> simp [Coordinate.ofData, h]
    | _ => simp [Coordinate.ofData]

theorem ofNode_of_startsAtInfinity {node : Data} (h : StartsAtInfinity node) :
    Position.ofNode node = .error .infinitePosition := by
  obtain ⟨start, hs, hinf⟩ := h
  rw [Position.ofNode, hs]
  dsimp only
  rw [Position.ofStart]
  rcases hinf with hl | ⟨⟨line, hl⟩, hc⟩
  · rw [coordinate_eq_infinite_iff.mpr hl]
  · rw [hl, coordinate_eq_infinite_iff.mpr hc]

theorem ofNode_of_not_startsAtInfinity {node : Data} (h : ¬ StartsAtInfinity node) :
    Position.ofNode node = .ok (startOf node) := by
  rw [Position.ofNode, startOf]
  cases hs : (node.field "loc").field "start" with
  | object start =>
    have hl : Position.coordinate start "line" ≠ .infinite := fun hl =>
      h ⟨start, hs, Or.inl (coordinate_eq_infinite_iff.mp hl)⟩
    dsimp only
    rw [Position.ofStart]
    cases hline : Position.coordinate start "line" with
    | infinite => exact absurd hline hl
    | unreadable => rfl
    | «at» line =>
      cases hcol : Position.coordinate start "column" with
      | infinite =>
        exact absurd ⟨start, hs, Or.inr ⟨⟨line, hline⟩, coordinate_eq_infinite_iff.mp hcol⟩⟩ h
      | unreadable => rfl
      | «at» column => rfl
  | _ => rfl

/-! ## Entries -/

/-- The types of the nodes that are read as entries of a list of attributes. -/
def IsEntry (node : Data) : Prop :=
  isNode "JSXAttribute" node = true ∨ isNode "JSXSpreadAttribute" node = true

/-- The attribute that a node of type `JSXAttribute` is. -/
def attributeOf (node : Data) : Attribute :=
  ⟨.ofNode (node.field "name"), AttributeValue.ofNode (node.field "value"), startOf node⟩

/-- The attribute that an entry is. -/
def Entry.attribute? : Entry → Option Attribute
  | .attribute a => some a
  | .spread _ => none

theorem attributes_eq (o : Opening) : o.attributes = o.entries.filterMap Entry.attribute? := by
  rw [Opening.attributes]
  congr 1

theorem entry_of_attribute {node : Data} (h : isNode "JSXAttribute" node = true) :
    Entry.ofNode node = (Position.ofNode node).map fun position =>
      some (.attribute { attributeOf node with position }) := by
  rw [Entry.ofNode]
  dsimp only
  rw [typeOf_beq (by decide), typeOf_beq (by decide), isNode_of_isNode h, h]
  cases Position.ofNode node <;> rfl

theorem entry_of_spread {node : Data} (h : isNode "JSXSpreadAttribute" node = true) :
    Entry.ofNode node = (Position.ofNode node).map fun position => some (.spread position) := by
  rw [Entry.ofNode, typeOf_beq (by decide), h]
  cases Position.ofNode node <;> rfl

theorem entry_of_other {node : Data} (h : ¬ IsEntry node) : Entry.ofNode node = .ok none := by
  rw [IsEntry, not_or, Bool.not_eq_true, Bool.not_eq_true] at h
  rw [Entry.ofNode, typeOf_beq (by decide), typeOf_beq (by decide), h.1, h.2]
  rfl

/-- An entry that starts at infinity is refused. -/
theorem entry_refused {node : Data} (h : IsEntry node) (hi : StartsAtInfinity node) :
    Entry.ofNode node = .error .infinitePosition := by
  rcases h with h | h
  · rw [entry_of_attribute h, ofNode_of_startsAtInfinity hi]; rfl
  · rw [entry_of_spread h, ofNode_of_startsAtInfinity hi]; rfl

/-- Any other node is read, and it is an attribute exactly if its type says so. -/
theorem entry_read {node : Data} (h : ¬ (IsEntry node ∧ StartsAtInfinity node)) :
    ∃ entry, Entry.ofNode node = .ok entry ∧
      entry.bind Entry.attribute? =
        if isNode "JSXAttribute" node then some (attributeOf node) else none := by
  by_cases ha : isNode "JSXAttribute" node = true
  · have hi : ¬ StartsAtInfinity node := fun hi => h ⟨Or.inl ha, hi⟩
    rw [entry_of_attribute ha, ofNode_of_not_startsAtInfinity hi, if_pos ha]
    exact ⟨_, rfl, rfl⟩
  · rw [if_neg ha]
    by_cases hs : isNode "JSXSpreadAttribute" node = true
    · have hi : ¬ StartsAtInfinity node := fun hi => h ⟨Or.inr hs, hi⟩
      rw [entry_of_spread hs, ofNode_of_not_startsAtInfinity hi]
      exact ⟨_, rfl, rfl⟩
    · rw [entry_of_other (fun he => he.elim ha hs)]
      exact ⟨_, rfl, rfl⟩

theorem entriesOf_refused {nodes : List Data}
    (h : ∃ node ∈ nodes, IsEntry node ∧ StartsAtInfinity node) :
    Opening.entriesOf nodes = .error .infinitePosition := by
  induction nodes with
  | nil => obtain ⟨node, hn, _⟩ := h; exact absurd hn List.not_mem_nil
  | cons node rest ih =>
    rw [Opening.entriesOf]
    by_cases hr : IsEntry node ∧ StartsAtInfinity node
    · rw [entry_refused hr.1 hr.2]; rfl
    · obtain ⟨entry, he, _⟩ := entry_read hr
      obtain ⟨other, ho, hor⟩ := h
      have hrest : other ∈ rest := by
        rcases List.mem_cons.mp ho with rfl | ho
        · exact absurd hor hr
        · exact ho
      rw [he, ih ⟨other, hrest, hor⟩]; rfl

theorem entriesOf_read {nodes : List Data}
    (h : ¬ ∃ node ∈ nodes, IsEntry node ∧ StartsAtInfinity node) :
    ∃ entries, Opening.entriesOf nodes = .ok entries ∧
      entries.filterMap Entry.attribute? =
        (nodes.filter (isNode "JSXAttribute")).map attributeOf := by
  induction nodes with
  | nil => exact ⟨[], rfl, rfl⟩
  | cons node rest ih =>
    have hn : ¬ (IsEntry node ∧ StartsAtInfinity node) := fun hn =>
      h ⟨node, List.mem_cons_self, hn⟩
    obtain ⟨entry, he, ha⟩ := entry_read hn
    obtain ⟨entries, hes, has⟩ := ih fun ⟨other, ho, hor⟩ =>
      h ⟨other, List.mem_cons_of_mem _ ho, hor⟩
    rw [Opening.entriesOf, he, hes]
    refine ⟨_, rfl, ?_⟩
    cases entry with
    | none =>
      cases hd : isNode "JSXAttribute" node with
      | true => rw [hd] at ha; exact absurd ha (by simp)
      | false => simpa [hd] using has
    | some entry =>
      cases hd : isNode "JSXAttribute" node with
      | true =>
        rw [hd] at ha
        have ha' : entry.attribute? = some (attributeOf node) := by simpa using ha
        simp [hd, ha', has]
      | false =>
        rw [hd] at ha
        have ha' : entry.attribute? = none := by simpa using ha
        simp [hd, ha', has]

/-! ## Elements -/

/-- The nodes in the list of attributes of an element. -/
def itemsOf (element : Data) : List Data :=
  match element.field "attributes" with
  | .list items => items
  | _ => []

/-- Whether a value in place of the attributes of an element is `true` or a number that is not zero. -/
def IsScalar : Data → Prop
  | .bool b => b = true
  | .int n => n ≠ 0
  | .float x => x.isZero = false
  | _ => False

/-- An element is refused if a scalar stands in place of its attributes, or if an entry or the element
itself starts at infinity. -/
def Refused (element : Data) : Prop :=
  IsScalar (element.field "attributes") ∨
    (∃ node ∈ itemsOf element, IsEntry node ∧ StartsAtInfinity node) ∨ StartsAtInfinity element

theorem listed_refused {attributes : Data} (h : IsScalar attributes) :
    Opening.listed attributes = .error (.notIterable attributes.kind) := by
  cases attributes with
  | bool b => rw [IsScalar] at h; rw [h]; rfl
  | int n => rw [Opening.listed, if_neg (by simpa [IsScalar] using h)]
  | float x => rw [IsScalar] at h; rw [Opening.listed, h]; rfl
  | _ => exact absurd h id

theorem listed_read {element : Data} (h : ¬ IsScalar (element.field "attributes")) :
    Opening.listed (element.field "attributes") = .ok (itemsOf element) := by
  rw [itemsOf]
  cases ha : element.field "attributes" with
  | bool b =>
    rw [ha] at h
    cases b with
    | true => exact absurd rfl h
    | false => rfl
  | int n =>
    rw [ha] at h
    have hn : n = 0 := by simpa [IsScalar] using h
    rw [hn]; rfl
  | float x =>
    rw [ha] at h
    have hx : x.isZero = true := by simpa [IsScalar] using h
    rw [Opening.listed, hx]; rfl
  | _ => rfl

/-- The fault that an element is refused with: what stands in place of the attributes comes before the
places. -/
def RefusedWith (element : Data) (f : Fault) : Prop :=
  IsScalar (element.field "attributes") ∧ f = .notIterable (element.field "attributes").kind ∨
    ¬ IsScalar (element.field "attributes") ∧ Refused element ∧ f = .infinitePosition

theorem refused_iff {element : Data} : Refused element ↔ ∃ f, RefusedWith element f := by
  constructor
  · intro h
    by_cases hs : IsScalar (element.field "attributes")
    · exact ⟨_, Or.inl ⟨hs, rfl⟩⟩
    · exact ⟨_, Or.inr ⟨hs, h, rfl⟩⟩
  · rintro ⟨f, ⟨hs, -⟩ | ⟨-, h, -⟩⟩
    · exact Or.inl hs
    · exact h

theorem ofFields_refusedWith {fields : Fields} {f : Fault} (h : RefusedWith (.object fields) f) :
    Opening.ofFields fields = .error f := by
  rw [Opening.ofFields]
  rcases h with ⟨hs, rfl⟩ | ⟨hs, hr, rfl⟩
  · rw [listed_refused hs]; rfl
  · rw [listed_read hs]
    show (Opening.entriesOf _ >>= _) = _
    by_cases he : ∃ node ∈ itemsOf (.object fields), IsEntry node ∧ StartsAtInfinity node
    · rw [entriesOf_refused he]; rfl
    · obtain ⟨entries, hes, _⟩ := entriesOf_read he
      have hi : StartsAtInfinity (.object fields) := (hr.resolve_left hs).resolve_left he
      rw [hes, ofNode_of_startsAtInfinity hi]; rfl

theorem ofFields_refused {fields : Fields} (h : Refused (.object fields)) :
    ∃ f, Opening.ofFields fields = .error f := by
  obtain ⟨f, hf⟩ := refused_iff.mp h
  exact ⟨f, ofFields_refusedWith hf⟩

/-- **An element that is not refused is read from its node**: its tag from the field `name`, its
attributes from the nodes of type `JSXAttribute` in their order. -/
theorem ofFields_read {fields : Fields} (h : ¬ Refused (.object fields)) :
    ∃ o, Opening.ofFields fields = .ok o ∧ o.tag = Tag.ofNode ((Data.object fields).field "name") ∧
      o.attributes =
        ((itemsOf (.object fields)).filter (isNode "JSXAttribute")).map attributeOf := by
  rw [Refused, not_or, not_or] at h
  obtain ⟨hs, he, hi⟩ := h
  obtain ⟨entries, hes, ha⟩ := entriesOf_read he
  refine ⟨⟨Tag.ofNode ((Data.object fields).field "name"), entries, startOf (.object fields)⟩,
    ?_, rfl, ?_⟩
  · rw [Opening.ofFields, listed_read hs]
    show (Opening.entriesOf _ >>= _) = _
    rw [hes, ofNode_of_not_startsAtInfinity hi]; rfl
  · rw [attributes_eq, ha]

/-- An element is refused exactly if its node is one to refuse. -/
theorem ofFields_error_iff {fields : Fields} :
    (∃ f, Opening.ofFields fields = .error f) ↔ Refused (.object fields) := by
  constructor
  · rintro ⟨f, hf⟩
    by_cases h : Refused (.object fields)
    · exact h
    · obtain ⟨o, ho, _⟩ := ofFields_read h
      rw [ho] at hf
      cases hf
  · exact ofFields_refused

/-- **Which fault an element is refused with.** -/
theorem ofFields_eq_error_iff {fields : Fields} {f : Fault} :
    Opening.ofFields fields = .error f ↔ RefusedWith (.object fields) f := by
  constructor
  · intro h
    obtain ⟨g, hg⟩ := refused_iff.mp (ofFields_error_iff.mp ⟨f, h⟩)
    rw [ofFields_refusedWith hg] at h
    cases h
    exact hg
  · exact ofFields_refusedWith

end AttributeLint.Syntax
