import AttributeLint.Proofs.Pattern.Attempts
import AttributeLint.Proofs.Pattern.Choices

/-!
# Ends of lines without line breaks

Where no line break is around, the end of a line is the end of the text.  `Regex.strict` puts the one in
the place of the other all over an expression.

* `Regex.agree_strict`: an expression and the strict one agree, even exactly.
* `Regex.agree_of_strict_eq`: so do two expressions that differ in the kind of their ends only.
* `Regex.Mixed`: both kinds of ends occur.  As long as they are not mixed, putting expressions together
  commutes with making them strict (`strict_sequence`, `strict_choices`).
* `Regex.Even`: two expressions differ in the kind of ends only, unless one of them is mixed.
-/

namespace AttributeLint.Pattern

open Continuation (Any)

/-- The end of the text in place of the end of a line. -/
def Anchor.strict : Anchor → Anchor
  | lineEnd => textEnd
  | a => a

theorem Anchor.eq_or_ends {a b : Anchor} (h : a.strict = b.strict) :
    a = b ∨ a = .lineEnd ∧ b = .textEnd ∨ a = .textEnd ∧ b = .lineEnd := by
  cases a <;> cases b <;> simp_all [strict]

theorem Anchor.holds_strict {c : Cursor} (hc : c.Unbroken) (f : Flags) (a : Anchor) :
    a.strict.holds f c = a.holds f c := by
  cases a with
  | lineEnd =>
    have hhead : c.after.head? ≠ some '\n' :=
      fun h => hc.2 (List.mem_of_mem_head? h)
    have hlast : c.after ≠ ['\n'] := fun h => hhead (by rw [h]; rfl)
    rw [strict, holds, holds, beq_eq_false_iff_ne.mpr hhead, beq_eq_false_iff_ne.mpr hlast,
      Bool.and_false, Bool.or_false, Bool.or_false]
  | _ => rfl

namespace Regex

/-- An expression with the end of the text in place of all ends of lines. -/
def strict : Regex → Regex
  | anchor a => anchor a.strict
  | cat r s => cat r.strict s.strict
  | alt r s => alt r.strict s.strict
  | capture group r => capture group r.strict
  | flagged on off r => flagged on off r.strict
  | iterate greed least most r => iterate greed least most r.strict
  | atomic r => atomic r.strict
  | look direction negated r => look direction negated r.strict
  | whether group yes no => whether group yes.strict no.strict
  | r => r

theorem lead_strict (r : Regex) : ∀ f after, r.strict.lead f after = r.lead f after := by
  induction r with
  | cat r s ihr ihs => exact fun f after => by rw [strict, lead, lead, ihr, ihs]
  | flagged on off r ih => exact fun f after => by rw [strict, lead, lead, ih]
  | _ => exact fun _ _ => rfl

theorem single?_strict (r : Regex) : ∀ f, r.strict.single? f = r.single? f := by
  induction r with
  | flagged on off r ih => exact fun f => by rw [strict, single?, single?, ih]
  | _ => exact fun _ => rfl

theorem strict_eq_empty_iff {r : Regex} : r.strict = empty ↔ r = empty := by
  cases r <;> simp [strict]

/-- **Without line breaks, the kind of an end does not matter.**  The induction is on the expression; of
a possessive repetition it takes the exact agreement of the body. -/
theorem agree_strict (r : Regex) :
    ∀ exact e, Matcher.Agree exact Any Any (r.run e) (r.strict.run e) := by
  induction r with
  | empty => exact fun exact e _ _ _ _ _ hc hr _ _ hk => hk hc hr
  | never => exact fun exact e _ _ _ _ _ hc hr _ _ hk => Attempt.agree_fail hr
  | code negated n => exact fun exact e => Matcher.agree_one _
  | any => exact fun exact e => Matcher.agree_one _
  | oneOf negated items => exact fun exact e => Matcher.agree_one _
  | anchor a =>
    intro exact e c r r' k k' hc hr _ _ hk
    unfold strict run
    rw [Anchor.holds_strict hc]
    split
    · exact hk hc hr
    · exact Attempt.agree_fail hr
  | cat r s ihr ihs =>
    intro exact e c regs regs' k k' hc hr hk hk' hkk
    unfold strict run
    rw [lead_strict]
    exact ihr exact _ hc hr trivial trivial ((ihs exact e).continue hk hk' hkk)
  | alt r s ihr ihs =>
    intro exact e
    unfold strict run
    rw [lead_strict]
    exact Matcher.agree_either _ _ (ihr exact _) (ihs exact e)
  | capture group r ih =>
    intro exact e c regs regs' k k' hc hr hk hk' hkk
    exact ih exact _ hc (hr.mark _ c) trivial trivial fun d _ _ hd h => hkk hd (h.mark _ d)
  | flagged on off r ih => exact fun exact e => ih exact _
  | iterate greed least most r ih =>
    intro exact e
    unfold strict run
    rw [single?_strict]
    dsimp only
    split
    · exact Single.agree_iterate _ _ greed Any Any
    · exact Matcher.agree_iterate _ greed (ih _ _)
  | atomic r ih => exact fun exact e => Matcher.agree_once (ih exact _) trivial trivial
  | look direction negated r ih =>
    intro exact e
    unfold strict run
    split
    · exact Matcher.agree_unseen (ih exact _) trivial trivial _ _
    · exact Matcher.agree_seen (ih exact _) trivial trivial _
  | backref group width =>
    intro exact e c r r' k k' hc hr hk hk' hkk
    unfold strict run
    rw [hr.captured]
    split
    · exact Matcher.agree_exactly _ _ hc hr hk hk' hkk
    · exact Attempt.agree_fail hr
  | whether group yes no ihyes ihno =>
    intro exact e c r r' k k' hc hr hk hk' hkk
    unfold strict run
    rw [hr.captured]
    simp only [strict_eq_empty_iff]
    split
    · exact ihyes exact _ hc hr hk hk' hkk
    · exact ihno exact _ hc hr hk hk' hkk

theorem agree_of_strict_eq {r r' : Regex} (h : r.strict = r'.strict) (exact : Bool) (e : Setting) :
    Matcher.Agree exact Any Any (r.run e) (r'.run e) :=
  (agree_strict r exact e).trans (h ▸ (agree_strict r' exact e).symm)

/-! ## Putting strict expressions together -/

theorem bare_strict (r : Regex) : r.strict.bare = r.bare.strict := by
  cases r with
  | flagged on off r =>
    rw [strict, bare, bare]
    split <;> rfl
  | _ => rfl

theorem items_strict (r : Regex) : r.strict.items = r.items.map strict := by
  induction r with
  | cat r s ihr ihs => rw [strict, items, items, ihr, ihs, List.map_append]
  | _ => rfl

theorem strict_cats (rs : List Regex) : (cats rs).strict = cats (rs.map strict) := by
  induction rs with
  | nil => rfl
  | cons r rest ih =>
    cases rest with
    | nil => rfl
    | cons s rest =>
      rw [cats_cons (List.cons_ne_nil _ _), strict, ih]
      rfl

theorem strict_sequence (rs : List Regex) : (sequence rs).strict = sequence (rs.map strict) := by
  rw [sequence, sequence, strict_cats, List.map_flatMap, List.flatMap_map]
  exact congrArg cats (List.flatMap_congr fun r _ => by rw [bare_strict, items_strict])

theorem members?_strict (row : List Regex) : members? (row.map strict) = members? row := by
  match row with
  | [] => rfl
  | [r] => cases r <;> rfl
  | _ :: _ :: _ =>
    rw [List.map_cons, List.map_cons]
    simp [members?]

theorem strict_alts (rows : List (List Regex)) :
    (alts rows).strict = alts (rows.map (List.map strict)) := by
  induction rows with
  | nil => rfl
  | cons row rest ih => rw [alts, strict, strict_cats, ih, List.map_cons, alts]

theorem strict_branch (rows : List (List Regex)) :
    (branch rows).strict = branch (rows.map (List.map strict)) := by
  have hmembers : (rows.map (List.map strict)).mapM members? = rows.mapM members? := by
    rw [List.mapM_map]
    exact congrArg (rows.mapM ·) (funext members?_strict)
  rw [branch, branch, hmembers]
  split
  · rfl
  · exact strict_alts rows

/-- Both kinds of ends occur in an expression. -/
def Mixed (r : Regex) : Prop :=
  .anchor .lineEnd ∈ r.features ∧ .anchor .textEnd ∈ r.features

theorem isPlain_strict (r : Regex) : r.strict.isPlain = r.isPlain := by
  cases r <;> rfl

/-- Where the kinds of ends are not mixed, plain items that differ in the kind of an end only do not
differ. -/
theorem eq_of_strict_eq {p q : Regex} (hp : p.isPlain = true) (h : p.strict = q.strict)
    (hmixed : ¬ (cat p q).Mixed) : p = q := by
  cases p with
  | anchor a =>
    cases q with
    | anchor b =>
      rcases Anchor.eq_or_ends (anchor.inj h) with rfl | ⟨rfl, rfl⟩ | ⟨rfl, rfl⟩
      · rfl
      · exact absurd (by simp [Mixed, features]) hmixed
      · exact absurd (by simp [Mixed, features]) hmixed
    | _ => cases h
  | code | any | oneOf | backref => cases q <;> first | exact h | cases h
  | _ => cases hp

theorem strict_factor {rows : List (List Regex)} (hne : rows ≠ []) (h : ¬ (factor rows).Mixed) :
    (factor rows).strict = factor (rows.map (List.map strict)) := by
  revert h
  refine factor_induction (motive := fun rows => ¬ (factor rows).Mixed →
    (factor rows).strict = factor (rows.map (List.map strict))) ?split ?shared hne
  case split =>
    intro rows hne hnot hmixed
    rw [factor_of_not_shared hne hnot, strict_branch, factor_of_not_shared (by simpa using hne)]
    -- rows that share an item up to the kinds of ends share one already
    rintro p ⟨hp, rests, hrests⟩
    have hheads : ∀ row ∈ rows, ∃ q, row.head? = some q ∧ q.strict = p := by
      intro row hrow
      have hmem : row.map strict ∈ rests.map (p :: ·) := hrests ▸ List.mem_map_of_mem hrow
      obtain ⟨rest, -, hrest⟩ := List.mem_map.mp hmem
      obtain ⟨q, tail, rfl, hq, -⟩ := List.map_eq_cons_iff.mp hrest.symm
      exact ⟨q, rfl, hq⟩
    obtain ⟨first, others, rfl⟩ := List.exists_cons_of_ne_nil hne
    obtain ⟨q, hq, rfl⟩ := hheads first List.mem_cons_self
    refine hnot q ⟨isPlain_strict q ▸ hp, _, map_tail_of_heads fun row hrow => ?_⟩
    obtain ⟨r, hr, hqr⟩ := hheads row hrow
    rw [hr, ← eq_of_strict_eq (isPlain_strict q ▸ hp) hqr.symm]
    rintro ⟨hline, htext⟩
    have hmem : ∀ x, x ∈ (cat q r).features → x ∈ (factor (first :: others)).features := by
      intro x hx
      rw [mem_features_factor hne]
      rcases List.mem_append.mp hx with hx | hx
      · exact ⟨first, List.mem_cons_self, q, List.mem_of_mem_head? hq, hx⟩
      · exact ⟨row, hrow, r, List.mem_of_mem_head? hr, hx⟩
    exact hmixed ⟨hmem _ hline, hmem _ htext⟩
  case shared =>
    intro p rests hp hr ih hmixed
    have hrests : (rests.map (p :: ·)).map (List.map strict) =
        (rests.map (List.map strict)).map (p.strict :: ·) := by
      simp [List.map_map, Function.comp_def]
    rw [factor_shared hp hr] at hmixed ⊢
    rw [hrests, factor_shared (isPlain_strict p ▸ hp) (by simpa using hr), strict, ih]
    exact fun ⟨hline, htext⟩ =>
      hmixed ⟨List.mem_append_right _ hline, List.mem_append_right _ htext⟩

theorem strict_choices {rs : List Regex} (h : ¬ (choices rs).Mixed) :
    (choices rs).strict = choices (rs.map strict) := by
  match rs with
  | [] => rfl
  | [_] => rfl
  | r :: s :: rest =>
    rw [choices_eq_factor (by simp)] at h ⊢
    rw [strict_factor (by simp) h, choices_eq_factor (by simp)]
    simp [items_strict, Function.comp_def]

/-! ## Expressions that differ in the kind of ends -/

/-- Two expressions that differ in the kind of ends only, unless one of them is mixed. -/
def Even (r r' : Regex) : Prop :=
  ¬ r.Mixed → ¬ r'.Mixed → r.strict = r'.strict

/-- A part of what is not mixed is not mixed. -/
theorem not_mixed_of_subset {r s : Regex} (hs : ¬ s.Mixed) (h : ∀ x ∈ r.features, x ∈ s.features) :
    ¬ r.Mixed :=
  fun ⟨hline, htext⟩ => hs ⟨h _ hline, h _ htext⟩

theorem Even.within {r r' s s' : Regex} (h : Even r r') (hs : ¬ s.Mixed) (hs' : ¬ s'.Mixed)
    (hr : ∀ x ∈ r.features, x ∈ s.features) (hr' : ∀ x ∈ r'.features, x ∈ s'.features) :
    r.strict = r'.strict :=
  h (not_mixed_of_subset hs hr) (not_mixed_of_subset hs' hr')

theorem map_strict_eq {rs rs' : List Regex} (h : List.Forall₂ Even rs rs')
    (hrs : ∀ r ∈ rs, ¬ r.Mixed) (hrs' : ∀ r ∈ rs', ¬ r.Mixed) : rs.map strict = rs'.map strict := by
  induction h with
  | nil => rfl
  | cons hr _ ih =>
    obtain ⟨hr₁, hrs⟩ := List.forall_mem_cons.mp hrs
    obtain ⟨hr₂, hrs'⟩ := List.forall_mem_cons.mp hrs'
    rw [List.map_cons, List.map_cons, hr hr₁ hr₂, ih hrs hrs']

theorem even_sequence {rs rs' : List Regex} (h : List.Forall₂ Even rs rs') :
    Even (sequence rs) (sequence rs') := by
  intro hm hm'
  rw [strict_sequence, strict_sequence, map_strict_eq h]
  · exact fun r hr => not_mixed_of_subset hm fun x hx => mem_features_sequence.mpr ⟨r, hr, hx⟩
  · exact fun r hr => not_mixed_of_subset hm' fun x hx => mem_features_sequence.mpr ⟨r, hr, hx⟩

theorem even_choices {rs rs' : List Regex} (h : List.Forall₂ Even rs rs') :
    Even (choices rs) (choices rs') := by
  intro hm hm'
  rw [strict_choices hm, strict_choices hm', map_strict_eq h]
  · exact fun r hr => not_mixed_of_subset hm fun x hx => mem_features_choices.mpr ⟨r, hr, hx⟩
  · exact fun r hr => not_mixed_of_subset hm' fun x hx => mem_features_choices.mpr ⟨r, hr, hx⟩

theorem even_bare {r r' : Regex} (h : Even r r') : Even r.bare r'.bare := by
  intro hm hm'
  unfold Mixed at hm hm'
  rw [features_bare] at hm hm'
  rw [← bare_strict, ← bare_strict, h hm hm']

end Regex

end AttributeLint.Pattern
