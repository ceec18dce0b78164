import AttributeLint.Proofs.Rule.SameReading

/-!
# The order of fields

The fields of the objects in a tree may stand in another order.  The walk then comes to the elements in
another order, but it comes to the same ones, and each of them is read as before.

* `Reordered`: the values that come of a value by changing the order of fields, at any depth.
* `Reordered.akin`: no lookup tells them apart.
* `Shuffled`: lists of elements that are akin, one by one, once they are put in the same order.
* `Reordered.shuffled`: the elements of reordered trees are shuffled.  The induction is along the rules
  of `Reordered`, with one lemma for objects.
* `lint_of_reordered`: **the order of fields changes only the order of findings.**
-/

namespace AttributeLint

open Files (Path)
open Syntax

/-! ## Values with their fields in another order -/

/-- What comes of a value by changing the order of fields, at any depth.  An object whose fields change
places has no name twice. -/
inductive Reordered : Data → Data → Prop
  | refl (d : Data) : Reordered d d
  | trans {d d' d'' : Data} (h : Reordered d d') (h' : Reordered d' d'') : Reordered d d''
  | keys {fields fields' : Fields} (hn : fields.keys.Nodup) (hp : fields.Perm fields') :
      Reordered (.object fields) (.object fields')
  | inField (before after : Fields) {key : String} {d d' : Data} (h : Reordered d d') :
      Reordered (.object (before ++ (key, d) :: after)) (.object (before ++ (key, d') :: after))
  | inItem (before after : List Data) {d d' : Data} (h : Reordered d d') :
      Reordered (.list (before ++ d :: after)) (.list (before ++ d' :: after))

theorem rel_refl {R : Data → Data → Prop} (hrefl : ∀ d, R d d) (x : Option Data) :
    Option.Rel R x x := by
  cases x with
  | none => exact .none
  | some d => exact .some (hrefl d)

/-- Where a field has a related value, related values are looked up. -/
theorem rel_get?_inField {R : Data → Data → Prop} (hrefl : ∀ d, R d d) (before after : Fields)
    {key : String} {d d' : Data} (h : R d d') (other : String) :
    Option.Rel R (Fields.get? (before ++ (key, d) :: after) other)
      (Fields.get? (before ++ (key, d') :: after) other) := by
  induction before with
  | nil =>
    rw [List.nil_append, List.nil_append, Fields.get?_cons, Fields.get?_cons]
    split
    · exact .some h
    · exact rel_refl hrefl _
  | cons entry before ih =>
    obtain ⟨k, e⟩ := entry
    rw [List.cons_append, List.cons_append, Fields.get?_cons, Fields.get?_cons]
    split
    · exact .some (hrefl e)
    · exact ih

theorem Reordered.akin {d d' : Data} (h : Reordered d d') : Akin [] d d' := by
  induction h with
  | refl d => exact .refl d
  | trans _ _ ih ih' => exact ih.trans ih'
  | keys hn hp =>
    refine .of_rel fun key _ => ?_
    rw [Fields.get?_perm hp hn]
    exact rel_refl .refl _
  | inField before after _ ih =>
    exact .of_rel fun other _ => rel_get?_inField .refl before after ih other
  | inItem before after _ ih =>
    have hsame : ∀ items : List Data, List.Forall₂ (Akin []) items items :=
      fun items => List.forall₂_same.mpr fun d _ => .refl d
    exact .of_forall₂ (List.rel_append (hsame before) (.cons ih (hsame after)))

/-! ## Elements in another order -/

/-- Lists of elements that are akin, one by one, once they are put in the same order. -/
def Shuffled (elements elements' : List Fields) : Prop :=
  ∃ middle, List.Forall₂ (fun fields fields' => Akin [] (.object fields) (.object fields')) elements
    middle ∧ middle.Perm elements'

namespace Shuffled

variable {elements elements' elements'' others others' : List Fields}

theorem of_perm (h : elements.Perm elements') : Shuffled elements elements' :=
  ⟨elements, List.forall₂_same.mpr fun _ _ => .refl _, h⟩

theorem refl (elements : List Fields) : Shuffled elements elements :=
  of_perm (.refl _)

theorem trans (h : Shuffled elements elements') (h' : Shuffled elements' elements'') :
    Shuffled elements elements'' := by
  obtain ⟨middle, hm, hp⟩ := h
  obtain ⟨middle', hm', hp'⟩ := h'
  -- The second step is taken before the first list is put in order.
  obtain ⟨last, hl, hq⟩ := List.perm_comp_forall₂ hp hm'
  refine ⟨last, ?_, hq.trans hp'⟩
  clear hp hq
  induction hm generalizing last with
  | nil => exact hl
  | cons hakin _ ih =>
    cases hl with
    | cons hakin' hl => exact .cons (hakin.trans hakin') (ih _ hl)

theorem append (h : Shuffled elements elements') (h' : Shuffled others others') :
    Shuffled (elements ++ others) (elements' ++ others') := by
  obtain ⟨middle, hm, hp⟩ := h
  obtain ⟨middle', hm', hp'⟩ := h'
  exact ⟨middle ++ middle', List.rel_append hm hm', hp.append hp'⟩

theorem cons {fields fields' : Fields} (hakin : Akin [] (.object fields) (.object fields'))
    (h : Shuffled elements elements') : Shuffled (fields :: elements) (fields' :: elements') := by
  obtain ⟨middle, hm, hp⟩ := h
  exact ⟨fields' :: middle, .cons hakin hm, hp.cons _⟩

theorem length_eq (h : Shuffled elements elements') : elements.length = elements'.length := by
  obtain ⟨middle, hm, hp⟩ := h
  exact hm.length_eq.trans hp.length_eq

end Shuffled

/-- The elements in a field, if it is entered. -/
def listingEntry (entry : String × Data) : List Fields :=
  if isSkipped entry.1 then [] else listing entry.2

theorem listingFields_eq_flatMap (fields : Fields) :
    listingFields fields = fields.flatMap listingEntry := by
  induction fields with
  | nil => rw [listingFields, List.flatMap_nil]
  | cons entry rest ih =>
    obtain ⟨key, d⟩ := entry
    rw [listingFields, List.flatMap_cons, ih, listingEntry]
    split <;> rfl

/-- Objects list shuffled elements if they are akin and their fields do. -/
theorem shuffled_object {fields fields' : Fields} (hakin : Akin [] (.object fields) (.object fields'))
    (h : Shuffled (fields.flatMap listingEntry) (fields'.flatMap listingEntry)) :
    Shuffled (listing (.object fields)) (listing (.object fields')) := by
  rw [← listingFields_eq_flatMap, ← listingFields_eq_flatMap] at h
  rw [listing, listing, ← hakin.isOpening_eq List.not_mem_nil]
  split
  · exact h.cons hakin
  · exact h

/-- **The elements of reordered trees are the same but for their order** and the order of their
fields. -/
theorem Reordered.shuffled {d d' : Data} (h : Reordered d d') :
    Shuffled (listing d) (listing d') := by
  induction h with
  | refl d => exact .refl _
  | trans _ _ ih ih' => exact ih.trans ih'
  | keys hn hp => exact shuffled_object (Reordered.keys hn hp).akin (.of_perm (hp.flatMap_right _))
  | @inField before after key d d' h ih =>
    refine shuffled_object (Reordered.inField before after h).akin ?_
    have hentry : Shuffled (listingEntry (key, d)) (listingEntry (key, d')) := by
      rw [listingEntry, listingEntry]
      split
      · exact .refl _
      · exact ih
    rw [List.flatMap_append, List.flatMap_append, List.flatMap_cons, List.flatMap_cons]
    exact (Shuffled.refl _).append (hentry.append (.refl _))
  | inItem before after _ ih =>
    rw [listing, listing, ← flatMap_listing, ← flatMap_listing, List.flatMap_append,
      List.flatMap_append, List.flatMap_cons, List.flatMap_cons]
    exact (Shuffled.refl _).append (ih.append (.refl _))

/-! ## Findings in another order -/

/-- Elements in another order are refused or linted together, with the findings in another order. -/
theorem visitAll_perm (r : Rule) (source : String) (log : List String) (visited : Nat)
    (c : Collector) {elements elements' : List Fields} (h : elements.Perm elements') :
    Together List.Perm (r.visitAll source log visited c elements).outcome
      (r.visitAll source log visited c elements').outcome := by
  have hforth : ∀ {elements elements' : List Fields}, elements.Perm elements' → ∀ fs,
      (r.visitAll source log visited c elements).outcome = .ok fs →
        ∃ fs', (r.visitAll source log visited c elements').outcome = .ok fs' ∧ fs.Perm fs' := by
    intro elements elements' h fs hfs
    obtain ⟨hr, rfl⟩ := (visitAll_ok_iff r source _ log visited c fs).mp hfs
    refine ⟨_, (visitAll_ok_iff r source _ log visited c _).mpr ⟨?_, rfl⟩, ?_⟩
    · exact fun fields hf => hr fields (h.mem_iff.mpr hf)
    · exact (h.flatMap_right _).append_left _
  refine ⟨hforth h, fun fs' hfs' => ?_⟩
  obtain ⟨fs, hfs, hp⟩ := hforth h.symm fs' hfs'
  exact ⟨fs, hfs, hp.symm⟩

/-- Shuffled elements of which the first have plain literals are read the same, one by one. -/
theorem Shuffled.sameReading {elements elements' : List Fields} (h : Shuffled elements elements')
    (hplain : ∀ fields ∈ elements, ∀ node ∈ itemsOf (.object fields),
      isNode "JSXAttribute" node = true → PlainLiteral node) :
    ∃ middle, List.Forall₂ SameReading elements middle ∧ middle.Perm elements' := by
  obtain ⟨middle, hm, hp⟩ := h
  have hboth := (List.forall₂_and_left _ _).mpr ⟨hplain, hm⟩
  refine ⟨middle, hboth.imp fun fields fields' hf => ?_, hp⟩
  exact sameReading_of_akin (by simp) (by simp) hf.2 hf.1

/-- **The order of fields changes only the order of findings.**  Trees whose fields stand in another
order are refused together; if they are not, the findings in the one are those in the other in some
order, and the logs end with the same number of elements. -/
theorem lint_of_reordered {tree tree' : Data} (h : Reordered tree tree') (hplain : PlainLiterals tree)
    (r : Rule) (file : Option Path) :
    Together List.Perm (r.lint file tree).outcome (r.lint file tree').outcome ∧
      ∀ fs, (r.lint file tree).outcome = .ok fs →
        ∃ n, (r.lint file tree).log.getLast? = some (visitedLine (sourceOf file) n) ∧
          (r.lint file tree').log.getLast? = some (visitedLine (sourceOf file) n) := by
  have hlint : Together List.Perm (r.lint file tree).outcome (r.lint file tree').outcome := by
    obtain ⟨middle, hm, hp⟩ := h.shuffled.sameReading fun fields => hplain.of_mem
    unfold Rule.lint
    rw [openings_eq_listing, openings_eq_listing, visitAll_congr r _ hm _ []]
    exact visitAll_perm r _ _ _ _ hp
  refine ⟨hlint, fun fs hfs => ⟨(listing tree).length, lint_log hfs, ?_⟩⟩
  obtain ⟨fs', hfs', -⟩ := hlint.forth fs hfs
  rw [lint_log hfs', h.shuffled.length_eq]

theorem lint_of_reordered_sample :
    let box := elementNode "Box" [attributeNode "a" (literalNode (.str "x"))]
    let row := elementNode "Row" [attributeNode "b" (literalNode (.int 1))]
    let row' := elementNode "Row" [
      attributeNode "b" (.object [("value", .int 1), ("type", .str "Literal")])]
    let tree : Data := .object [("left", box), ("right", row)]
    let tree' : Data := .object [("right", row'), ("left", box)]
    let f : Finding := { rule := Rule.id, message := Rule.message ⟨"Box", "a", "x"⟩ }
    let f' : Finding := { rule := Rule.id, message := Rule.message ⟨"Row", "b", "1"⟩ }
    let r : Rule := {}
    Reordered tree tree' ∧ PlainLiterals tree ∧ (r.lint none tree).outcome = .ok [f, f'] ∧
      (r.lint none tree').outcome = .ok [f', f] ∧ [f, f'].Perm [f', f] ∧
      ∃ n, (r.lint none tree).log.getLast? = some (visitedLine "<input>" n) ∧
        (r.lint none tree').log.getLast? = some (visitedLine "<input>" n) := by
  intro box row row' tree tree' f f' r
  have hrow : Reordered row row' :=
    .inField [_, _] [] (.inItem [] [] (.inField [_, _] [] (.keys (by decide) (.swap _ _ _))))
  have h : Reordered tree tree' :=
    .trans (.inField [("left", box)] [] hrow) (.keys (by decide) (.swap _ _ _))
  have hplain : PlainLiterals tree := by decide +kernel
  have hfs : (r.lint none tree).outcome = .ok [f, f'] := by decide +kernel
  have hfs' : (r.lint none tree').outcome = .ok [f', f] := by decide +kernel
  obtain ⟨hlint, hlog⟩ := lint_of_reordered h hplain r none
  obtain ⟨fs', hfs'', hperm⟩ := hlint.forth _ hfs
  rw [hfs'] at hfs''
  cases hfs''
  exact ⟨h, hplain, hfs, hfs', hperm, hlog _ hfs⟩

end AttributeLint
