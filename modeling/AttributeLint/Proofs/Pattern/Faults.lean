import AttributeLint.Pattern.Compiled
import AttributeLint.Proofs.Pattern.Choices
import AttributeLint.Proofs.Readers
import Mathlib.Data.List.Forall2

/-!
# Expressions that are refused

A source that can be read is refused all the same if its expression looks behind by a width that is not
fixed or too large, or repeats something under the template flag.  Where in the expression this is makes
no difference, so it survives all the ways in which items and alternatives are put together.

* `Regex.Faulty`: the expressions that are refused, with `gathers_faulty`.
* `Regex.SameFaults`: expressions that are refused under the same flags, with one lemma for each way to
  put expressions together.
* `ofSource_ok_iff`: a source is a pattern exactly if it is read into an expression that is not refused.
-/

namespace AttributeLint.Pattern

namespace Regex

/-- An expression that is refused. -/
def Faulty (template : Bool) (r : Regex) : Prop :=
  r.fault? template ≠ none ∨ r.isTooFar = true

/-- Expressions that are refused under the same flags. -/
def SameFaults (r r' : Regex) : Prop :=
  ∀ template, r.Faulty template ↔ r'.Faulty template

theorem faulty_iterate {template : Bool} {greed : Greed} {least : Nat} {most : Option Nat}
    {r : Regex} : (iterate greed least most r).Faulty template ↔
      template = true ∨ r.Faulty template := by
  cases template <;> simp [Faulty, fault?, isTooFar]

theorem faulty_behind {template : Bool} {w : Width} {negated : Bool} {r : Regex} :
    (look (.behind w) negated r).Faulty template ↔
      (w.least ≠ w.most ∨ reach ≤ w.least) ∨ r.Faulty template := by
  have hwidth : widthFault? w ≠ none ↔ w.least ≠ w.most := by
    rw [widthFault?]
    split <;> simp_all
  simp only [Faulty, fault?, isTooFar, ne_eq, Option.or_eq_none_iff, Bool.or_eq_true,
    decide_eq_true_eq, not_and_or] at hwidth ⊢
  rw [hwidth]
  tauto

theorem faulty_whether {template : Bool} {group : Nat} {yes no : Regex} :
    (whether group yes no).Faulty template ↔ yes.Faulty template ∨ no.Faulty template := by
  simp only [Faulty, fault?, isTooFar, ne_eq, Option.or_eq_none_iff, Bool.or_eq_true, not_and_or]
  tauto

theorem gathers_faulty (template : Bool) : Gathers (Faulty template) where
  empty := by simp [Faulty, fault?, isTooFar]
  never := by simp [Faulty, fault?, isTooFar]
  code _ _ := by simp [Faulty, fault?, isTooFar]
  oneOf _ _ := by simp [Faulty, fault?, isTooFar]
  cat r s := by
    simp only [Faulty, fault?, isTooFar, ne_eq, Option.or_eq_none_iff, Bool.or_eq_true, not_and_or]
    tauto
  alt r s := by
    simp only [Faulty, fault?, isTooFar, ne_eq, Option.or_eq_none_iff, Bool.or_eq_true, not_and_or]
    tauto
  flagged _ _ _ := Iff.rfl

/-! ## What is put together -/

variable {r r' s s' : Regex} {rs rs' : List Regex}

theorem exists_faulty_iff (h : List.Forall₂ SameFaults rs rs') (template : Bool) :
    (∃ r ∈ rs, r.Faulty template) ↔ ∃ r ∈ rs', r.Faulty template := by
  induction h with
  | nil => exact Iff.rfl
  | cons hr _ ih => simp only [List.mem_cons, exists_eq_or_imp, hr template, ih]

theorem sameFaults_sequence (h : List.Forall₂ SameFaults rs rs') :
    SameFaults (sequence rs) (sequence rs') := by
  intro template
  rw [(gathers_faulty template).sequence, (gathers_faulty template).sequence,
    exists_faulty_iff h template]

theorem sameFaults_choices (h : List.Forall₂ SameFaults rs rs') :
    SameFaults (choices rs) (choices rs') := by
  intro template
  rw [(gathers_faulty template).choices, (gathers_faulty template).choices,
    exists_faulty_iff h template]

theorem sameFaults_iterate (h : SameFaults r r') (greed : Greed) (least : Nat) (most : Option Nat) :
    SameFaults (iterate greed least most r.bare) (iterate greed least most r'.bare) := by
  intro template
  rw [faulty_iterate, faulty_iterate, (gathers_faulty template).bare, (gathers_faulty template).bare,
    h template]

theorem sameFaults_look (h : SameFaults r r') (direction : Direction) (negated : Bool) :
    SameFaults (look direction negated r) (look direction negated r') := by
  cases direction with
  | ahead => exact h
  | behind w =>
    intro template
    rw [faulty_behind, faulty_behind, h template]

theorem sameFaults_whether (hr : SameFaults r r') (hs : SameFaults s s') (group : Nat) :
    SameFaults (whether group r s) (whether group r' s') := by
  intro template
  rw [faulty_whether, faulty_whether, hr template, hs template]

end Regex

/-- A source is a pattern exactly if it is read into an expression that is not refused. -/
theorem ofSource_ok_iff {source : List Char} :
    (∃ p, ofSource source = .ok p) ↔
      ∃ q, parse source = .ok q ∧ ¬ q.regex.Faulty q.flags.template := by
  have hrest : ∀ q : Reader.Parsed, ¬ q.regex.Faulty q.flags.template ↔
      q.regex.fault? q.flags.template = none ∧ q.regex.isTooFar = false := by
    intro q
    rw [Regex.Faulty, not_or, not_not, Bool.not_eq_true]
  unfold ofSource
  constructor
  · rintro ⟨p, hp⟩
    obtain ⟨q, hq, hp⟩ := bind_eq_ok_iff.mp hp
    refine ⟨q, hq, (hrest q).mpr ?_⟩
    split at hp
    · cases hp
    · next hfault =>
      split at hp
      · cases hp
      · next hfar => exact ⟨hfault, by simpa using hfar⟩
  · rintro ⟨q, hq, hfree⟩
    obtain ⟨hfault, hfar⟩ := (hrest q).mp hfree
    refine ⟨⟨String.ofList source, q.regex, q.flags⟩, bind_eq_ok_iff.mpr ⟨q, hq, ?_⟩⟩
    rw [hfault, hfar]
    rfl

end AttributeLint.Pattern
