import AttributeLint.Proofs.Filter.Leaf
import AttributeLint.Proofs.Pattern.Lockstep

/-!
# Patterns that are refused for their spelling

Spelling out the anchors of a pattern never makes a pattern of a source that is none.  It may unmake one:
for the scan a class ends at its first closing bracket, while for the reader a closing bracket that comes
first is a member.  A dollar sign behind such a bracket is taken for an anchor, and the escape that it
becomes is refused between brackets.

* `classes`: the classes of a pattern, as the reader sees them.
* `clear_of_mem_classes`: the scan leaves a class as it is, unless a closing bracket comes first in it.
* `compileAll_ok_iff`: **a source is compiled exactly if it is a pattern and the scan leaves its classes
  as they are.**
-/

namespace AttributeLint.Pattern

/-- The classes of a pattern, each from behind its opening bracket to its closing one. -/
def classes (source : List Char) : List (List Token) :=
  (visited source).filterMap State.class?

theorem clear_of_bracket_last {passed : List Token} (h : .plain ']' ∉ passed) :
    Clear true (passed ++ [.plain ']']) := by
  induction passed with
  | nil => exact ⟨fun _ => rfl, trivial⟩
  | cons t passed ih =>
    have hb : t.bracketed true = true := by
      cases t with
      | plain c => exact bne_iff_ne.mpr fun hc => List.ne_of_not_mem_cons h (congrArg _ hc.symm)
      | escaped c => rfl
      | dangling => rfl
    refine ⟨fun _ => rfl, ?_⟩
    rw [hb]
    exact ih (List.not_mem_of_not_mem_cons h)

/-- The scan leaves a class as it is, unless a closing bracket comes first in it. -/
theorem clear_of_mem_classes {source : List Char} {text : List Token} (h : text ∈ classes source)
    (hfirst : Bracket.bracketLeads text = false) : Clear true text := by
  obtain ⟨s, -, hs⟩ := List.mem_filterMap.mp h
  obtain ⟨rest, r, i, hinput, hread⟩ := Reader.exists_of_class? hs
  obtain ⟨passed, hrest, hnot⟩ := (Bracket.read_gives _ _ _ hread).2.2
  have htext : s.class? = some (passed ++ [.plain ']']) :=
    Reader.class?_eq hinput hread (by rw [List.append_assoc]; exact hrest)
  obtain rfl := Option.some.inj (hs.symm.trans htext)
  refine clear_of_bracket_last (hnot ?_)
  rw [hrest]
  match passed with
  | [] | [_] | _ :: _ :: _ => exact hfirst

theorem plain_visited_iff {source : List Char} :
    (∀ s ∈ visited source, s.Plain) ↔ ∀ text ∈ classes source, Clear true text := by
  simp only [classes, List.mem_filterMap]
  constructor
  · rintro h text ⟨s, hs, htext⟩
    exact h s hs text htext
  · exact fun h s hs text htext => h text ⟨s, hs, htext⟩

/-- The spelling of a source is a pattern exactly if the source is one and its classes are left as they
are. -/
theorem ofSource_endAnchors_ok_iff {source : List Char} :
    (∃ p, ofSource (endAnchors source) = .ok p) ↔
      (∃ p, ofSource source = .ok p) ∧ ∀ text ∈ classes source, Clear true text := by
  have hparse := parse_together source
  rw [ofSource_ok_iff, ofSource_ok_iff, ← plain_visited_iff]
  constructor
  · rintro ⟨q, hq, hfree⟩
    obtain ⟨hplain, p, hp, hpq, hflags⟩ := hparse.back q hq
    refine ⟨⟨p, hp, ?_⟩, hplain⟩
    rwa [hflags, hpq.faults]
  · rintro ⟨⟨p, hp, hfree⟩, hplain⟩
    obtain ⟨q, hq, hpq, hflags⟩ := hparse.forth hplain p hp
    refine ⟨q, hq, ?_⟩
    rwa [← hflags, ← hpq.faults]

end AttributeLint.Pattern
