import AttributeLint.Proofs.Rule.Findings

/-!
# Selecting and leaving out

One and the same expression can say what is reported, under `only`, or what is not, under `ignore`.

* `Finds`: what is found in a tree under options as they are written.
* `finds_of_isOptions`: **whatever the options, they find some of the occurrences in the tree**, those
  that they keep.  So two options can be compared occurrence by occurrence.
* `finds_dual`: `only` and `ignore` with the same expression share the occurrences between them, and
  `ignore` can be written as an `only` with a `not`.
-/

namespace AttributeLint.Filter

open Files (Path)

/-! ## Options with single expressions -/

/-- Not an expression. -/
def negation (e : Data) : Data :=
  .object [("not", e)]

/-- Both of two expressions. -/
def conjunction (e f : Data) : Data :=
  .object [("and", .list [e, f])]

/-- Options that report what an expression matches. -/
def onlyOf (e : Data) : Data :=
  .object [("only", e)]

/-- Options that report what an expression does not match. -/
def ignoreOf (e : Data) : Data :=
  .object [("ignore", e)]

/-- Options that report what the first expression matches and the second does not. -/
def onlyIgnoreOf (e f : Data) : Data :=
  .object [("only", e), ("ignore", f)]

section Single

variable {e f : Data} (he : IsExpression e)
include he

theorem isExpression_negation : IsExpression (negation e) :=
  .not he

theorem isExpression_conjunction (hf : IsExpression f) : IsExpression (conjunction e f) :=
  .and (by simp [he, hf])

theorem isOptions_only : IsOptions (onlyOf e) := by
  refine .object (by simp [Fields.keys]) ?_ ?_
  · exact .single he
  · exact .null

theorem isOptions_ignore : IsOptions (ignoreOf e) := by
  refine .object (by simp [Fields.keys]) ?_ ?_
  · exact .null
  · exact .single he

theorem isOptions_onlyIgnore (hf : IsExpression f) : IsOptions (onlyIgnoreOf e f) := by
  refine .object (by simp [Fields.keys]) ?_ ?_
  · exact .single he
  · exact .single hf

theorem keeps_only (d : Descriptor) : keeps (onlyOf e) d = selects d e := by
  show (((written e).isEmpty || (written e).any (selects d)) && true) = selects d e
  rw [he.written_eq]
  simp

theorem keeps_ignore (d : Descriptor) : keeps (ignoreOf e) d = !selects d e := by
  show (true && !(written e).any (selects d)) = !selects d e
  rw [he.written_eq]
  simp

theorem keeps_onlyIgnore (hf : IsExpression f) (d : Descriptor) :
    keeps (onlyIgnoreOf e f) d = (selects d e && !selects d f) := by
  show (((written e).isEmpty || (written e).any (selects d)) && !(written f).any (selects d)) = _
  rw [he.written_eq, hf.written_eq]
  simp

end Single

/-! ## What is found -/

/-- What is found in a tree under options as they are written, if they can be read and the tree is not
refused. -/
def Finds (raw : Data) (file : Option Path) (tree : Data) (fs : List Finding) : Prop :=
  ∃ o, Options.read raw = .ok o ∧ (Rule.lint ⟨o⟩ file tree).outcome = .ok fs

section Finds

variable {file : Option Path} {tree : Data} {fs : List Finding}

/-- The findings for the occurrences in a tree that a test picks out, in their order. -/
def findingsFor (file : Option Path) (tree : Data) (pick : Descriptor → Bool) : List Finding :=
  ((occurrences tree).filter fun occurrence => pick occurrence.descriptor).map (·.finding file)

/-- **Options find the occurrences that they keep**, in any tree that is not refused. -/
theorem finds_of_isOptions {raw : Data} (hraw : IsOptions raw) (h : Finds .null file tree fs) :
    Finds raw file tree (findingsFor file tree (keeps raw)) := by
  obtain ⟨_, -, hfs⟩ := h
  obtain ⟨o, ho⟩ := options_read_complete hraw
  have hkeeps : o.reports = keeps raw := funext (reports_eq_keeps ho)
  refine ⟨o, ho, ?_⟩
  rw [lint_occurrences hfs ⟨o⟩, findingsFor, hkeeps]

theorem eq_of_finds_null (h : Finds .null file tree fs) :
    fs = (occurrences tree).map (·.finding file) := by
  obtain ⟨o, ho, hfs⟩ := h
  cases ho
  have hall := Except.ok.inj (hfs.symm.trans (lint_occurrences hfs {}))
  rwa [List.filter_eq_self.mpr] at hall
  exact fun _ _ => rfl

end Finds

/-- **`only` and `ignore` are dual.**  The occurrences that are found without options are shared between
`only` and `ignore` with the same expression: what it matches is found under the one, what it does not
match under the other, and both keep the order.  An `ignore` finds what an `only` with a `not` does, also
beside another `only`. -/
theorem finds_dual {e f : Data} {x y : Expression} (he : Expression.read e = .ok x)
    (hf : Expression.read f = .ok y) {file : Option Path} {tree : Data} {fs : List Finding}
    (h : Finds .null file tree fs) :
    fs = (occurrences tree).map (·.finding file) ∧
      Finds (onlyOf e) file tree (findingsFor file tree fun d => x.holds d) ∧
      Finds (ignoreOf e) file tree (findingsFor file tree fun d => !x.holds d) ∧
      Finds (onlyOf (negation e)) file tree (findingsFor file tree fun d => !x.holds d) ∧
      ∃ both, Finds (onlyIgnoreOf e f) file tree both ∧
        Finds (onlyOf (conjunction e (negation f))) file tree both := by
  have hx : ∀ d, x.holds d = selects d e := fun d => holds_eq_selects d x e (read_sound he).2
  have he' : IsExpression e := (read_sound he).1
  have hf' : IsExpression f := (read_sound hf).1
  have hne : IsExpression (negation e) := isExpression_negation he'
  have hand : IsExpression (conjunction e (negation f)) :=
    isExpression_conjunction he' (isExpression_negation hf')
  have honly : keeps (onlyOf e) = fun d => x.holds d := by
    funext d
    rw [keeps_only he', hx]
  have hignore : keeps (ignoreOf e) = fun d => !x.holds d := by
    funext d
    rw [keeps_ignore he', hx]
  have hnot : keeps (onlyOf (negation e)) = fun d => !x.holds d := by
    funext d
    rw [keeps_only hne, negation, selects_not, hx]
  have hboth : keeps (onlyOf (conjunction e (negation f))) = keeps (onlyIgnoreOf e f) := by
    funext d
    rw [keeps_only hand, keeps_onlyIgnore he' hf', conjunction, negation, selects_and]
    simp [selects_not]
  refine ⟨eq_of_finds_null h, ?_, ?_, ?_, findingsFor file tree (keeps (onlyIgnoreOf e f)),
    finds_of_isOptions (isOptions_onlyIgnore he' hf') h, ?_⟩
  · exact honly ▸ finds_of_isOptions (isOptions_only he') h
  · exact hignore ▸ finds_of_isOptions (isOptions_ignore he') h
  · exact hnot ▸ finds_of_isOptions (isOptions_only hne) h
  · exact hboth ▸ finds_of_isOptions (isOptions_only hand) h

theorem finds_dual_sample :
    let e : Data := .object [("components", .list [.str "Icon"])]
    let f : Data := .object [("attributes", .list [.str "d"])]
    let x : Expression := .criteria { component := ⟨["Icon"], []⟩ }
    let y : Expression := .criteria { name := ⟨["d"], []⟩ }
    let box : Finding := { rule := Rule.id, message := Rule.message ⟨"Box", "a", "x"⟩ }
    let button : Finding := { rule := Rule.id, message := Rule.message ⟨"Button", "b", ""⟩ }
    let icon : Finding := { rule := Rule.id, message := Rule.message ⟨"Icon", "d", "2"⟩ }
    Expression.read e = .ok x ∧ Expression.read f = .ok y ∧
      Finds .null none sampleTree [box, button, icon] ∧
      Finds (onlyOf e) none sampleTree [icon] ∧
      Finds (ignoreOf e) none sampleTree [box, button] ∧
      Finds (onlyOf (negation e)) none sampleTree [box, button] ∧
      ∃ both, Finds (onlyIgnoreOf e f) none sampleTree both ∧
        Finds (onlyOf (conjunction e (negation f))) none sampleTree both := by
  intro e f x y box button icon
  have he : Expression.read e = .ok x := by cbv
  have hf : Expression.read f = .ok y := by cbv
  have h : Finds .null none sampleTree [box, button, icon] := ⟨{}, rfl, by decide +kernel⟩
  have hx : findingsFor none sampleTree (fun d => x.holds d) = [icon] := by decide +kernel
  have hnx : findingsFor none sampleTree (fun d => !x.holds d) = [box, button] := by decide +kernel
  obtain ⟨-, honly, hignore, hnot, hboth⟩ := finds_dual he hf h
  rw [hx] at honly
  rw [hnx] at hignore hnot
  exact ⟨he, hf, h, honly, hignore, hnot, hboth⟩

end AttributeLint.Filter
