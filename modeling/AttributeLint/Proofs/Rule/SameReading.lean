import AttributeLint.Proofs.Rule.Findings
import AttributeLint.Proofs.Syntax.Akin

/-!
# Elements that are linted alike

A rule sees of an element only whether it is refused, and with which fault, and the findings on it.

* `findingsOn_of_items`: attributes with the same names and literals, one by one, give the same findings
  but for their places.
* `SameReading`: elements with the same faults and the same findings.  Akin elements are read the same,
  if their literals are plain (`sameReading_of_akin`).
* `visitAll_congr`: **elements that are read the same, one by one, are linted with the same outcome.**
* `lint_log`: where linting succeeds, the log ends with the number of elements.
-/

namespace AttributeLint

open Files (Path)
open AttributeLint.Filter (Descriptor)
open Syntax

/-! ## Findings on related elements -/

/-- Nodes of attributes with the same name and the same literal, or nodes of something else. -/
structure SameAttribute (node node' : Data) : Prop where
  isNode_eq : isNode "JSXAttribute" node = isNode "JSXAttribute" node'
  name_eq : attributeNameOf node = attributeNameOf node'
  literal_eq : isNode "JSXAttribute" node = true → literalOf node = literalOf node'

section Related

variable {R : Data → Data → Prop} {rule : String} {file : Option Path} {g : Finding → Finding}

/-- Items that are the same attributes, one by one, give the same findings but for what `g` changes. -/
theorem findingsOn_of_items {element element' : Data} (keep : Descriptor → Bool)
    (hcomponent : componentOf (element.field "name") = componentOf (element'.field "name"))
    (hitems : List.Forall₂ R (itemsOf element) (itemsOf element'))
    (hsame : ∀ node node', R node node' → SameAttribute node node')
    (hfinding : ∀ node node' d, R node node' →
      findingAt rule file node' d = g (findingAt rule file node d)) :
    findingsOn keep rule file element' = (findingsOn keep rule file element).map g := by
  rw [findingsOn, findingsOn, literalsOn, literalsOn, ← hcomponent]
  generalize componentOf (element.field "name") = component
  generalize itemsOf element = items at hitems ⊢
  generalize itemsOf element' = items' at hitems ⊢
  induction hitems with
  | nil => rfl
  | @cons node node' _ _ hnode _ ih =>
    have hs := hsame node node' hnode
    by_cases ha : isNode "JSXAttribute" node = true
    · have ha' : isNode "JSXAttribute" node' = true := hs.isNode_eq ▸ ha
      rw [List.filter_cons_of_pos ha, List.filter_cons_of_pos ha', List.filterMap_cons,
        List.filterMap_cons, ← hs.literal_eq ha, ← hs.name_eq]
      cases literalOf node with
      | none => exact ih
      | some value =>
        rw [Option.map_some, Option.map_some]
        dsimp only
        rw [List.filter_cons, List.filter_cons]
        dsimp only
        split
        · rw [List.map_cons, List.map_cons, List.map_cons, hfinding node node' _ hnode, ih]
        · exact ih
    · have ha' : ¬ isNode "JSXAttribute" node' = true := hs.isNode_eq ▸ ha
      rw [List.filter_cons_of_neg ha, List.filter_cons_of_neg ha']
      exact ih

end Related

/-! ## Plain literals -/

/-- No attribute that can be reached in a tree has an object or a list in a literal that stands directly
in it. -/
def PlainLiterals (tree : Data) : Prop :=
  ∀ path node, Leads tree path node → isNode "JSXAttribute" node = true → PlainLiteral node

theorem plainLiterals_scalar {d : Data} (hd : isBranch d = false) : PlainLiterals d := by
  intro path node h
  cases h with
  | here _ =>
    intro ha
    cases d with
    | list items => cases hd
    | object fields => cases hd
    | _ => cases ha
  | item _ _ => cases hd
  | field _ _ _ => cases hd

theorem plainLiterals_list {items : List Data} :
    PlainLiterals (.list items) ↔ ∀ d ∈ items, PlainLiterals d := by
  constructor
  · intro h d hd path node hp
    obtain ⟨i, hi⟩ := List.mem_iff_getElem?.mp hd
    exact h (i :: path) node (.item hi hp)
  · intro h path node hp
    cases hp with
    | here _ =>
      intro ha
      cases ha
    | item hi hp => exact h _ (List.mem_of_getElem? hi) _ node hp

theorem plainLiterals_object {fields : Fields} :
    PlainLiterals (.object fields) ↔
      (isNode "JSXAttribute" (.object fields) = true → PlainLiteral (.object fields)) ∧
        ∀ entry ∈ fields, isSkipped entry.1 = false → PlainLiterals entry.2 := by
  constructor
  · intro h
    refine ⟨h [] _ (.here _), fun entry he hs path node hp => ?_⟩
    obtain ⟨i, hi⟩ := List.mem_iff_getElem?.mp he
    exact h (i :: path) node (.field hi (isSkipped_eq_false_iff.mp hs) hp)
  · rintro ⟨hhere, hfields⟩ path node hp
    cases hp with
    | here _ => exact hhere
    | field hi hk hp =>
      exact hfields _ (List.mem_of_getElem? hi) (isSkipped_eq_false_iff.mpr hk) _ node hp

instance (node : Data) : Decidable (PlainLiteral node) :=
  inferInstanceAs (Decidable (_ → _))

mutual

/-- Whether the literals in a tree are plain can be decided by going through it. -/
def decidePlain : (d : Data) → Decidable (PlainLiterals d)
  | .object fields =>
    haveI := decidePlainFields fields
    decidable_of_iff' _ plainLiterals_object
  | .list items =>
    haveI := decidePlainItems items
    decidable_of_iff' _ plainLiterals_list
  | .null => isTrue (plainLiterals_scalar rfl)
  | .bool _ => isTrue (plainLiterals_scalar rfl)
  | .int _ => isTrue (plainLiterals_scalar rfl)
  | .float _ => isTrue (plainLiterals_scalar rfl)
  | .str _ => isTrue (plainLiterals_scalar rfl)
  | .moment _ => isTrue (plainLiterals_scalar rfl)

/-- The same for the items of a list. -/
def decidePlainItems : (items : List Data) → Decidable (∀ d ∈ items, PlainLiterals d)
  | [] => isTrue fun _ h => absurd h List.not_mem_nil
  | d :: rest =>
    haveI := decidePlain d
    haveI := decidePlainItems rest
    decidable_of_iff' _ List.forall_mem_cons

/-- The same for the fields of an object that are entered. -/
def decidePlainFields : (fields : List (String × Data)) →
    Decidable (∀ entry ∈ fields, isSkipped entry.1 = false → PlainLiterals entry.2)
  | [] => isTrue fun _ h => absurd h List.not_mem_nil
  | (_, d) :: rest =>
    haveI := decidePlain d
    haveI := decidePlainFields rest
    decidable_of_iff' _ List.forall_mem_cons

end

instance : DecidablePred PlainLiterals :=
  decidePlain

theorem leads_append {d e f : Data} {path path' : List Nat} (h : Leads d path e)
    (h' : Leads e path' f) : Leads d (path ++ path') f := by
  induction h with
  | here _ => exact h'
  | item hi _ ih => exact .item hi (ih h')
  | field hi hk _ ih => exact .field hi hk (ih h')

/-- The items in the list of attributes of an element can be reached where the element can. -/
theorem leads_of_mem_itemsOf {fields : Fields} {node : Data} (h : node ∈ itemsOf (.object fields)) :
    ∃ path, Leads (.object fields) path node := by
  rw [itemsOf, Data.field] at h
  cases hget : fields.get? "attributes" with
  | none => rw [hget] at h; cases h
  | some d =>
    rw [hget, Option.getD_some] at h
    cases d with
    | list items =>
      obtain ⟨i, hi⟩ := List.mem_iff_getElem?.mp (Fields.mem_of_get? hget)
      obtain ⟨j, hj⟩ := List.mem_iff_getElem?.mp h
      exact ⟨[i, j], .field hi (by decide) (.item hj (.here node))⟩
    | _ => cases h

theorem PlainLiterals.of_mem {tree : Data} (h : PlainLiterals tree) {fields : Fields}
    (hf : fields ∈ listing tree) :
    ∀ node ∈ itemsOf (.object fields), isNode "JSXAttribute" node = true → PlainLiteral node := by
  intro node hn ha
  rw [← map_placed, List.mem_map] at hf
  obtain ⟨⟨path, _⟩, hp, rfl⟩ := hf
  obtain ⟨path', hpath'⟩ := leads_of_mem_itemsOf hn
  exact h _ node (leads_append (mem_placed_iff.mp hp).1 hpath') ha

/-! ## Elements that are read the same -/

/-- Elements that are refused with the same fault or not at all, and on which the same is found. -/
structure SameReading (fields fields' : Fields) : Prop where
  refusedWith : ∀ f, RefusedWith (.object fields) f ↔ RefusedWith (.object fields') f
  findings : ∀ keep rule file,
    findingsOn keep rule file (.object fields') = findingsOn keep rule file (.object fields)

theorem SameReading.refused_iff {fields fields' : Fields} (h : SameReading fields fields') :
    Refused (.object fields) ↔ Refused (.object fields') := by
  rw [Syntax.refused_iff, Syntax.refused_iff]
  exact exists_congr h.refusedWith

theorem sameAttribute_of_akin {hidden : List String} (hnode : ∀ key ∈ nodeKeys, key ∉ hidden)
    {node node' : Data} (h : Akin hidden node node')
    (hplain : isNode "JSXAttribute" node = true → PlainLiteral node) : SameAttribute node node' where
  isNode_eq := h.isNode_eq hnode _
  name_eq := h.attributeNameOf_eq hnode
  literal_eq ha := h.literalOf_eq hnode (hplain ha)

/-- **Akin elements are read the same**, unless a literal is not plain or a field that is read is
hidden. -/
theorem sameReading_of_akin {hidden : List String} (hnode : ∀ key ∈ nodeKeys, key ∉ hidden)
    (hplace : ∀ key ∈ placeKeys, key ∉ hidden) {fields fields' : Fields}
    (h : Akin hidden (.object fields) (.object fields'))
    (hplain : ∀ node ∈ itemsOf (.object fields), isNode "JSXAttribute" node = true →
      PlainLiteral node) : SameReading fields fields' where
  refusedWith := h.refusedWith_iff hplace hnode
  findings keep rule file := by
    have hname := (h.field (hnode "name" (by decide))).componentOf_eq hnode
    have hitems := (List.forall₂_and_left _ _).mpr ⟨hplain, h.itemsOf_forall₂ hnode⟩
    rw [findingsOn_of_items (g := id) keep hname hitems, List.map_id]
    · exact fun node node' hn => sameAttribute_of_akin hnode hn.2 hn.1
    · intro node node' d hn
      rw [findingAt, findingAt, hn.2.startOf_eq hplace]
      rfl

/-! ## Whole trees -/

theorem visit_eq {fields : Fields} {o : Opening} (h : Opening.ofFields fields = .ok o) (r : Rule)
    (c : Collector) :
    r.visit o c = { c with
      findings := c.findings ++ findingsOn r.options.reports c.rule c.file (.object fields) } := by
  rw [← visit_findings h]
  rfl

/-- **Elements that are read the same, one by one, are linted with the same outcome**, whatever was
written to the log before. -/
theorem visitAll_congr (r : Rule) (source : String) {elements elements' : List Fields}
    (h : List.Forall₂ SameReading elements elements') :
    ∀ (log log' : List String) (visited : Nat) (c : Collector),
      (r.visitAll source log visited c elements).outcome =
        (r.visitAll source log' visited c elements').outcome := by
  induction h with
  | nil => exact fun _ _ _ _ => rfl
  | @cons fields fields' _ _ hs _ ih =>
    intro log log' visited c
    rw [Rule.visitAll, Rule.visitAll]
    cases ho : Opening.ofFields fields with
    | error f => rw [ofFields_refusedWith ((hs.refusedWith f).mp (ofFields_eq_error_iff.mp ho))]
    | ok o =>
      have hr : ¬ Refused (.object fields') := by
        rw [← hs.refused_iff, ← ofFields_error_iff, ho]
        rintro ⟨f, ⟨⟩⟩
      obtain ⟨o', ho', -⟩ := ofFields_read hr
      rw [ho']
      dsimp only
      rw [visit_eq ho, visit_eq ho', hs.findings]
      exact ih _ _ _ _

theorem lint_congr_of_sameReading (r : Rule) (file : Option Path) {tree tree' : Data}
    (h : List.Forall₂ SameReading (listing tree) (listing tree')) :
    (r.lint file tree).outcome = (r.lint file tree').outcome := by
  unfold Rule.lint
  rw [openings_eq_listing, openings_eq_listing]
  exact visitAll_congr r _ h _ _ _ _

/-- The line of the log that tells how many elements were visited. -/
def visitedLine (source : String) (visited : Nat) : String :=
  "Visited " ++ toString visited ++ " opening elements in " ++ source

theorem visitAll_log (r : Rule) (source : String) (elements : List Fields) :
    ∀ (log : List String) (visited : Nat) (c : Collector) (fs : List Finding),
      (r.visitAll source log visited c elements).outcome = .ok fs →
        (r.visitAll source log visited c elements).log.getLast? =
          some (visitedLine source (visited + elements.length)) := by
  induction elements with
  | nil =>
    intro log visited c fs _
    rw [Rule.visitAll, List.getLast?_concat]
    rfl
  | cons fields rest ih =>
    intro log visited c fs h
    rw [Rule.visitAll] at h ⊢
    cases ho : Opening.ofFields fields with
    | error f => rw [ho] at h; cases h
    | ok o =>
      rw [ho] at h
      dsimp only at h ⊢
      rw [ih _ _ _ _ h, List.length_cons, Nat.add_right_comm, Nat.add_assoc]

/-- The name of a tree in the log. -/
def sourceOf : Option Path → String
  | some path => path.text
  | none => "<input>"

/-- Where linting succeeds, the log ends with the number of elements in the tree. -/
theorem lint_log {r : Rule} {file : Option Path} {tree : Data} {fs : List Finding}
    (h : (r.lint file tree).outcome = .ok fs) :
    (r.lint file tree).log.getLast? =
      some (visitedLine (sourceOf file) (listing tree).length) := by
  unfold Rule.lint at h ⊢
  rw [visitAll_log r _ _ _ _ _ fs h, openings_eq_listing, Nat.zero_add]
  cases file <;> rfl

end AttributeLint
