import AttributeLint.Proofs.Pattern.Frames
import AttributeLint.Proofs.Pattern.Scopes
import AttributeLint.Proofs.Pattern.Strict

/-!
# Choices at the end of a text

A choice with the common beginning in front is not the same to the matcher as the choice between the
alternatives as they are: what is noted on the way differs, and a class of characters restores nothing.
At the end of a text, where no character is left, the difference is lost.  So it does not matter for
alternatives that all begin with an end.

* `Attempt.Stuck`, `Matcher.StuckAt`: failure that leaves the marks as they are.
* `Regex.agree_factor_at_end`: at the end of a text a choice agrees with its alternatives one after
  another.
* `Regex.late`: expressions that need the end of the text before anything else.
* `Regex.agree_factor_of_late`: **a choice between such expressions agrees with its alternatives one
  after another**, at every cursor.
-/

namespace AttributeLint.Pattern

open Continuation (Any)

/-! ## Failing and leaving the marks alone -/

/-- An attempt that failed and left these marks. -/
structure Attempt.Stuck (marks : List (Option Nat)) (a : Attempt) : Prop where
  found : a.found = false
  marks : a.registers.marks = marks
  place : a.registers.place.Unbroken

/-- From a cursor and with these marks, a matcher fails whatever comes behind it. -/
def Matcher.StuckAt (c : Cursor) (marks : List (Option Nat)) (m : Matcher) : Prop :=
  ∀ ⦃r : Registers⦄ k, r.marks = marks → r.place.Unbroken → (m c r k).Stuck marks

variable {c : Cursor} {marks : List (Option Nat)}

theorem Attempt.Stuck.agree {a a' : Attempt} (h : a.Stuck marks) (h' : a'.Stuck marks) :
    a.Agree false a' := by
  refine ⟨h.found.trans h'.found.symm, h.marks.trans h'.marks.symm, ?_, h.place, h'.place⟩
  rw [h.found]
  rintro ⟨⟩

theorem Attempt.stuck_fail {r : Registers} (hr : r.place.Unbroken) : (fail r).Stuck r.marks :=
  ⟨rfl, rfl, hr⟩

theorem Registers.restore_same (r : Registers) (inLoop : Bool) : r.restore inLoop r.marks = r := by
  cases inLoop <;> simp [restore]

namespace Matcher

theorem stuckAt_either {m n : Matcher} (hc : c.Unbroken) {lead : Lead}
    (hm : lead.admits c.after = true → StuckAt c marks m) (hn : StuckAt c marks n) (inLoop : Bool) :
    StuckAt c marks (either inLoop lead m n) := by
  rintro r k rfl hr
  unfold either
  split
  · next hadmits =>
    have hfirst := hm hadmits (r := r.note c) k rfl hc
    rw [Attempt.orElse, hfirst.found, if_neg (by simp), ← hfirst.marks, Registers.restore_same,
      hfirst.marks]
    exact hn k hfirst.marks hfirst.place
  · exact hn k rfl hr

end Matcher

namespace Regex

theorem run_cats_cons (r : Regex) (rest : List Regex) (e : Setting) :
    (cats (r :: rest)).run e = (cat r (cats rest)).run e := by
  cases rest with
  | nil => rfl
  | cons s rest => rw [cats_cons (List.cons_ne_nil _ _)]

theorem stuckAt_cat {r s : Regex} {e : Setting}
    (h : ∀ after, (r.run { e with after }).StuckAt c marks) : ((cat r s).run e).StuckAt c marks :=
  fun _ _ hr hp => h _ _ hr hp

theorem stuckAt_cats {r : Regex} {rest : List Regex} {e : Setting}
    (h : ∀ after, (r.run { e with after }).StuckAt c marks) :
    ((cats (r :: rest)).run e).StuckAt c marks := by
  rw [run_cats_cons]
  exact stuckAt_cat h

theorem stuckAt_alts (hc : c.Unbroken) {rows : List (List Regex)} {e : Setting}
    (h : ∀ row ∈ rows, ((cats row).run e.closed).StuckAt c marks) :
    ((alts rows).run e).StuckAt c marks := by
  induction rows with
  | nil =>
    rintro r k rfl hr
    exact Attempt.stuck_fail hr
  | cons row rest ih =>
    obtain ⟨hrow, hrest⟩ := List.forall_mem_cons.mp h
    exact Matcher.stuckAt_either hc (fun _ => hrow) (ih hrest) e.inLoop

/-! ## At the end of a text -/

theorem stuckAt_one (hend : c.after = []) (holds : Char → Bool) :
    (Matcher.one holds).StuckAt c marks := by
  rintro r k rfl hr
  rw [Matcher.one, Cursor.over?, hend]
  exact Attempt.stuck_fail hr

/-- What begins with a character is stuck at the end; anything else that has a lead is passed over. -/
theorem stuckAt_or_passed (hend : c.after = []) (r : Regex) :
    ∀ (e : Setting) (after : Lead), r.lead e.flags after ≠ .other →
      (∀ after, (r.run { e with after }).StuckAt c marks) ∨
        r.lead e.flags after = after ∧ ∀ after d regs k, r.run { e with after } d regs k = k d regs := by
  induction r with
  | empty => exact fun e after _ => Or.inr ⟨rfl, fun _ _ _ _ => rfl⟩
  | code negated n => exact fun e after _ => Or.inl fun _ => stuckAt_one hend _
  | oneOf negated items => exact fun e after _ => Or.inl fun _ => stuckAt_one hend _
  | cat r s ihr ihs =>
    intro e after h
    rcases ihr e _ h with hr | ⟨hlead, hr⟩
    · exact Or.inl fun _ => stuckAt_cat fun _ => hr _
    · -- nothing of the first part is left, so all is said about the second
      have hpass : ∀ after, (cat r s).run { e with after } = s.run { e with after } :=
        fun _ => funext fun d => funext fun regs => funext fun k => hr _ d regs _
      simp only [hpass]
      rw [lead, hlead] at h ⊢
      exact ihs e after h
  | flagged on off r ih =>
    intro e after h
    exact ih { e with flags := e.flags.switch on off } after h
  | _ => exact fun e after h => absurd rfl h

/-- At the end, what is not admitted for its lead would be stuck anyway. -/
theorem stuckAt_of_lead (hend : c.after = []) {r : Regex} {e : Setting}
    (h : ¬ (r.lead e.flags .other).admits c.after = true) : (r.run e).StuckAt c marks := by
  have hlead : r.lead e.flags .other ≠ .other := fun he => h (by rw [he]; rfl)
  rcases stuckAt_or_passed hend r e .other hlead with hr | ⟨he, -⟩
  · exact hr e.after
  · exact absurd he hlead

/-- Whether a plain item is passed at the end of a text, with given registers. -/
def passes (f : Flags) (c : Cursor) (regs : Registers) : Regex → Bool
  | anchor a => a.holds f c
  | backref group _ =>
    match regs.captured? group with
    | some (first, last) => (c.slice first last).isEmpty
    | none => false
  | _ => false

theorem run_at_end (hend : c.after = []) {p : Regex} (hp : p.isPlain = true) (e : Setting)
    (regs : Registers) (k : Continuation) :
    p.run e c regs k = if p.passes e.flags c regs then k c regs else .fail regs := by
  have hone : ∀ holds k, Matcher.one holds c regs k = .fail regs := by
    intro holds k
    rw [Matcher.one, Cursor.over?, hend]
  cases p with
  | code negated n => exact hone _ k
  | any => exact hone _ k
  | oneOf negated items => exact hone _ k
  | anchor a => rfl
  | backref group width =>
    rw [run, passes]
    dsimp only
    cases regs.captured? group with
    | none => rfl
    | some place =>
      have hexactly : ∀ text, Matcher.exactly e.flags.same text c regs k =
          if text.isEmpty then k c regs else .fail regs := by
        rintro (_ | ⟨a, rest⟩)
        · rfl
        · exact hone (e.flags.same a) fun c r => Matcher.exactly e.flags.same rest c r k
      exact hexactly _
  | _ => cases hp

theorem passes_congr {p : Regex} (hp : p.isPlain = true) {f : Flags} {regs regs' : Registers}
    (h : ∀ g w, .ref g w ∈ p.features → regs.captured? g = regs'.captured? g) :
    p.passes f c regs = p.passes f c regs' := by
  cases p with
  | backref group width => rw [passes, passes, h group width (List.mem_singleton.mpr rfl)]
  | code | any | oneOf | anchor => rfl
  | _ => cases hp

theorem lead_of_passes {p : Regex} {f : Flags} {regs : Registers}
    (h : p.passes f c regs = true) (f' : Flags) (after : Lead) : p.lead f' after = .other := by
  cases p with
  | anchor | backref => rfl
  | _ => cases h

/-! ## Choices at the end -/

/-- What comes behind an expression keeps the marks of the groups that it refers to, unless these are
restored in a loop. -/
def Framed (e : Setting) (r : Regex) (k : Continuation) : Prop :=
  e.inLoop = true ∨ ∀ g w, .ref g w ∈ r.features → k.Keeps g

/-- Groups of an orderly expression, and those that it refers to, are numbered from one on. -/
theorem one_le_of_orderly {r : Regex} {g : Nat} (hr : r.Orderly)
    (h : .group g ∈ r.features ∨ ∃ w, .ref g w ∈ r.features) : 1 ≤ g := by
  induction r with
  | cat r s ihr ihs | alt r s ihr ihs | whether _ r s ihr ihs =>
    simp only [features, List.mem_append] at h
    rcases h with (h | h) | ⟨w, h | h⟩
    · exact ihr hr.1 (Or.inl h)
    · first | exact ihs hr.2 (Or.inl h) | exact ihs hr.2.1 (Or.inl h)
    · exact ihr hr.1 (Or.inr ⟨w, h⟩)
    · first | exact ihs hr.2 (Or.inr ⟨w, h⟩) | exact ihs hr.2.1 (Or.inr ⟨w, h⟩)
  | capture group r ih =>
    simp only [features, List.mem_cons, Feature.group.injEq, reduceCtorEq, false_or] at h
    rcases h with (rfl | h) | h
    · exact hr.1
    · exact ih hr.2.1 (Or.inl h)
    · exact ih hr.2.1 (Or.inr h)
  | flagged _ _ r ih | atomic r ih | look _ _ r ih => exact ih hr h
  | iterate _ _ _ r ih => exact ih hr (by simpa [mem_features_iterate] using h)
  | backref group width =>
    simp only [features, List.mem_singleton, Feature.ref.injEq, reduceCtorEq, false_or] at h
    obtain ⟨w, rfl, -⟩ := h
    exact hr
  | _ => simp [features] at h

theorem lead_cats_cons (r : Regex) (rest : List Regex) (f : Flags) (after : Lead) :
    (cats (r :: rest)).lead f after = r.lead f ((cats rest).lead f after) := by
  cases rest with
  | nil => rfl
  | cons s rest => rw [cats_cons (List.cons_ne_nil _ _), lead]

/-- At the end of a text, alternatives behind an item that is passed are the alternatives.  The item is
passed before each of them, since those before it do not change what it refers to. -/
theorem agree_alts_behind (hc : c.Unbroken) (hend : c.after = []) {p : Regex} (hp : p.isPlain = true)
    {e : Setting} {k k' : Continuation} (hkk : k.Agree false k')
    {rests : List (List Regex)} (horderly : ∀ rest ∈ rests, OrderlyRow (p :: rest))
    (hframed : Framed e p k) : ∀ {regs regs' : Registers}, regs.Agree false regs' →
      p.passes e.flags c regs = true →
      ((alts (rests.map (p :: ·))).run e c regs k).Agree false ((alts rests).run e c regs' k') := by
  induction rests with
  | nil => exact fun hr _ => Attempt.agree_fail hr
  | cons rest others ih =>
    intro regs regs' hr hpass
    obtain ⟨hrest, hothers⟩ := List.forall_mem_cons.mp horderly
    have hlead : ∀ after, p.lead e.flags after = .other := lead_of_passes hpass e.flags
    have hnoted : p.passes e.flags c (regs.note c) = true := by
      rw [← hpass]
      exact passes_congr hp fun _ _ _ => rfl
    have hfirst : (cats (p :: rest)).run e.closed c (regs.note c) k =
        (cats rest).run e.closed c (regs.note c) k := by
      rw [run_cats_cons, run]
      dsimp only
      rw [run_at_end hend hp]
      exact if_pos hnoted
    have hagree : ((cats rest).run e.closed c (regs.note c) k).Agree false
        ((cats rest).run e.closed c (regs'.note c) k') :=
      agree_of_strict_eq rfl false e.closed hc (hr.noted hc) trivial trivial hkk
    -- what the item refers to is as before when the next alternative is tried
    have hkept : p.passes e.flags c (((cats rest).run e.closed c (regs.note c) k).registers.restore
        e.inLoop regs.marks) = true := by
      rw [← hpass]
      refine passes_congr hp fun g w hg => Registers.captured?_restore ?_
      refine hframed.imp id fun hkeeps => ?_
      have hpos : 1 ≤ g :=
        one_le_of_orderly (hrest.1 p List.mem_cons_self) (Or.inr ⟨w, hg⟩)
      obtain ⟨hprecedes, hpairs⟩ := List.pairwise_cons.mp hrest.2
      have horow : (cats rest).Orderly :=
        orderly_cats.mpr ⟨(List.forall_mem_cons.mp hrest.1).2, hpairs⟩
      refine run_keeps hpos (cats rest) (fun other ho => ⟨?_, ?_⟩) _ (hkeeps g w hg) c (regs.note c)
      · exact one_le_of_orderly horow (Or.inl ho)
      · rintro rfl
        exact precedes_cats.mpr hprecedes other w hg ho
    have hstep : (alts ((rest :: others).map (p :: ·))).run e c regs k =
        ((cats rest).run e.closed c (regs.note c) k).orElse fun failed =>
          (alts (others.map (p :: ·))).run e c (failed.restore e.inLoop regs.marks) k := by
      rw [List.map_cons, alts, run, Matcher.either, lead_cats_cons, hlead, hfirst]
      rfl
    rw [hstep, alts, run, Matcher.either]
    split
    · rw [Attempt.orElse, Attempt.orElse, ← hagree.found]
      split
      · exact hagree
      · exact ih hothers (hr.marks ▸ hagree.loose.restore _ _) hkept
    · next hnot =>
      have hstuck : Attempt.Stuck regs.marks ((cats rest).run e.closed c (regs.note c) k) :=
        stuckAt_of_lead (e := e.closed) hend hnot k rfl hc
      rw [Attempt.orElse, hstuck.found, if_neg (by simp)]
      refine ih hothers ⟨?_, by rintro ⟨⟩, hstuck.place, hr.right⟩ hkept
      rw [← hr.marks, ← hstuck.marks, Registers.restore_same]

/-- Alternatives that are single characters are stuck at the end of a text. -/
theorem stuckAt_members (hend : c.after = []) {row : List Regex} {items : List ClassItem}
    (h : members? row = some items) (e : Setting) : ((cats row).run e).StuckAt c marks := by
  unfold members? at h
  split at h
  · exact stuckAt_one hend _
  · exact stuckAt_one hend _
  · cases h

/-- **At the end of a text, a choice agrees with its alternatives one after another.** -/
theorem agree_factor_at_end (hc : c.Unbroken) (hend : c.after = []) {e : Setting}
    {k k' : Continuation} (hkk : k.Agree false k') {rows : List (List Regex)} (hne : rows ≠ [])
    (horderly : ∀ row ∈ rows, OrderlyRow row) (hframed : Framed e (alts rows) k') :
    ∀ {regs regs' : Registers}, regs.Agree false regs' →
      ((factor rows).run e c regs k).Agree false ((alts rows).run e c regs' k') := by
  revert horderly hframed
  refine factor_induction (motive := fun rows => (∀ row ∈ rows, OrderlyRow row) →
    Framed e (alts rows) k' → ∀ {regs regs' : Registers}, regs.Agree false regs' →
      ((factor rows).run e c regs k).Agree false ((alts rows).run e c regs' k')) ?split ?shared hne
  case split =>
    intro rows hne hnot horderly hframed regs regs' hr
    rw [factor_of_not_shared hne hnot, branch]
    split
    · next members hmembers =>
      have halts : ((alts rows).run e).StuckAt c regs.marks := by
        refine stuckAt_alts hc fun row hrow => ?_
        obtain ⟨items, hitems⟩ := members?_of_mapM hmembers row hrow
        exact stuckAt_members hend hitems _
      exact (stuckAt_one hend _ k rfl hr.left).agree (halts k' hr.marks.symm hr.right)
    · exact agree_of_strict_eq rfl false e hc hr trivial trivial hkk
  case shared =>
    intro p rests hp hrests ih horderly hframed regs regs' hr
    have hrows : ∀ rest ∈ rests, OrderlyRow (p :: rest) := List.forall_mem_map.mp horderly
    have hpasses : p.passes e.flags c regs = p.passes e.flags c regs' :=
      passes_congr hp fun g _ _ => hr.captured g
    rw [factor_shared hp hrests, run]
    dsimp only
    rw [run_at_end hend hp]
    cases hpass : p.passes e.flags c regs with
    | false =>
      -- the item stops each of the alternatives
      have halts : ((alts (rests.map (p :: ·))).run e).StuckAt c regs.marks := by
        refine stuckAt_alts hc (List.forall_mem_map.mpr fun rest _ => stuckAt_cats fun after => ?_)
        rintro q l hq hplace
        have hnot : p.passes e.flags c q = false := by
          rw [← hpass]
          exact passes_congr hp fun g _ _ => by rw [Registers.captured?, hq, Registers.captured?]
        rw [run_at_end hend hp, if_neg (by rw [Setting.closed]; simp [hnot]), ← hq]
        exact Attempt.stuck_fail hplace
      rw [if_neg (by simp)]
      exact (Attempt.stuck_fail hr.left).agree (halts k' hr.marks.symm hr.right)
    | true =>
      have hframed₁ : Framed e (alts rests) k' := by
        refine hframed.imp id fun h g w hg => h g w ?_
        obtain ⟨rest, hrest, i, hi, hg⟩ := mem_features_alts.mp hg
        exact mem_features_alts.mpr
          ⟨p :: rest, List.mem_map_of_mem hrest, i, List.mem_cons_of_mem _ hi, hg⟩
      have hframed₂ : Framed e p k' := by
        refine hframed.imp id fun h g w hg => h g w ?_
        obtain ⟨rest, others, rfl⟩ := List.exists_cons_of_ne_nil hrests
        exact mem_features_alts.mpr ⟨p :: rest, List.mem_cons_self, p, List.mem_cons_self, hg⟩
      have hbehind := agree_alts_behind hc hend hp hkk.right hrows hframed₂
        (hr.symm.trans hr) (hpasses ▸ hpass)
      rw [if_pos rfl]
      refine (ih (fun rest hrest => ?_) hframed₁ hr).trans hbehind.symm
      obtain ⟨hall, hpairs⟩ := hrows rest hrest
      exact ⟨(List.forall_mem_cons.mp hall).2, (List.pairwise_cons.mp hpairs).2⟩

/-! ## Expressions that need the end -/

/-- Whether an expression needs the end of the text before anything else: it begins with an end, or with
a choice between expressions that do. -/
def late : Regex → Bool
  | never => true
  | anchor a => a.strict = .textEnd
  | cat r _ => r.late
  | alt r s => r.late && s.late
  | _ => false

theorem late_cats_cons (r : Regex) (rest : List Regex) : (cats (r :: rest)).late = r.late := by
  cases rest with
  | nil => rfl
  | cons s rest => rfl

theorem late_alts {rows : List (List Regex)} :
    (alts rows).late = true ↔ ∀ row ∈ rows, (cats row).late = true := by
  induction rows with
  | nil => exact ⟨fun _ _ hrow => absurd hrow List.not_mem_nil, fun _ => rfl⟩
  | cons row rest ih => rw [alts, late, Bool.and_eq_true, ih, List.forall_mem_cons]

/-- Such expressions are stuck before the end of a text. -/
theorem stuckAt_of_late (hc : c.Unbroken) (hafter : c.after ≠ []) (r : Regex) :
    r.late = true → ∀ e, (r.run e).StuckAt c marks := by
  induction r with
  | never =>
    rintro - e r k rfl hr
    exact Attempt.stuck_fail hr
  | anchor a =>
    rintro ha e r k rfl hr
    have hnot : a.holds e.flags c = false := by
      rw [← Anchor.holds_strict hc, of_decide_eq_true ha, Anchor.holds, List.isEmpty_eq_false_iff]
      exact hafter
    rw [run]
    dsimp only
    rw [hnot]
    exact Attempt.stuck_fail hr
  | cat r s ihr ihs => exact fun h e => stuckAt_cat fun _ => ihr h _
  | alt r s ihr ihs =>
    intro h e
    obtain ⟨hr, hs⟩ := Bool.and_eq_true_iff.mp h
    exact Matcher.stuckAt_either hc (fun _ => ihr hr _) (ihs hs e) e.inLoop
  | _ => rintro ⟨⟩

/-- A choice between such expressions is one. -/
theorem late_factor {rows : List (List Regex)} (hne : rows ≠ [])
    (h : ∀ row ∈ rows, (cats row).late = true) : (factor rows).late = true := by
  by_cases hshared : ∃ p, Shared p rows
  · obtain ⟨p, hp, rests, rfl⟩ := hshared
    have hrests : rests ≠ [] := fun he => hne (by rw [he]; rfl)
    obtain ⟨rest, others, rfl⟩ := List.exists_cons_of_ne_nil hrests
    rw [factor_shared hp hrests, late, ← late_cats_cons p rest]
    exact h _ List.mem_cons_self
  · rw [factor_of_not_shared hne fun p hp => hshared ⟨p, hp⟩, branch]
    split
    · next members hmembers =>
      obtain ⟨row, others, rfl⟩ := List.exists_cons_of_ne_nil hne
      obtain ⟨items, hitems⟩ := members?_of_mapM hmembers row List.mem_cons_self
      have hrow := h row List.mem_cons_self
      unfold members? at hitems
      split at hitems <;> cases hitems <;> cases hrow
    · exact late_alts.mpr h

/-- **A choice between such expressions agrees with its alternatives one after another.** -/
theorem agree_factor_of_late {rows : List (List Regex)} (hne : rows ≠ [])
    (hlate : ∀ row ∈ rows, (cats row).late = true) (horderly : ∀ row ∈ rows, OrderlyRow row)
    (e : Setting) :
    Matcher.Agree false Any (Framed e (alts rows)) ((factor rows).run e) ((alts rows).run e) := by
  intro c regs regs' k k' hc hr _ hframed hkk
  by_cases hend : c.after = []
  · exact agree_factor_at_end hc hend hkk hne horderly hframed hr
  · have hfactor : ((factor rows).run e).StuckAt c regs.marks :=
      stuckAt_of_late hc hend _ (late_factor hne hlate) e
    have halts : ((alts rows).run e).StuckAt c regs.marks :=
      stuckAt_of_late hc hend _ (late_alts.mpr hlate) e
    exact (hfactor k rfl hr.left).agree (halts k' hr.marks.symm hr.right)

end Regex

end AttributeLint.Pattern
