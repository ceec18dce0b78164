import AttributeLint.Files.Path
import Mathlib

/-!
# Paths and their texts

A path that was read has a root of at most two slashes, and parts without slashes that are neither empty
nor a dot (`WellFormed`).  Of these paths the text says everything: reading it gives the path again
(`ofText_text`), so that two of them with the same text are the same (`eq_of_text_eq`).
-/

namespace AttributeLint.Files

/-! ## Pieces between slashes -/

theorem segments_ne_nil (text : List Char) : segments text ≠ [] := by
  fun_cases segments text <;> exact List.cons_ne_nil _ _

theorem segments_slash (rest : List Char) : segments ('/' :: rest) = [] :: segments rest := by
  rw [segments]

theorem segments_cons {c : Char} (hc : c ≠ '/') (rest : List Char) :
    segments (c :: rest) = (segments rest).modifyHead (c :: ·) := by
  rw [segments]
  · split
    · next hnil => exact absurd hnil (segments_ne_nil rest)
    · next first more hcons => rw [hcons, List.modifyHead_cons]
  · exact hc

theorem segments_eq_splitOn (text : List Char) : segments text = text.splitOn '/' := by
  induction text with
  | nil => rfl
  | cons c rest ih =>
    rw [List.splitOn, List.splitOnP_cons_eq_if_modifyHead, ← List.splitOn, ← ih]
    by_cases hc : c = '/'
    · rw [hc, segments_slash, if_pos (beq_self_eq_true '/')]
    · rw [segments_cons hc, if_neg (by simpa using hc)]

theorem not_mem_of_mem_segments {text : List Char} : ∀ piece ∈ segments text, '/' ∉ piece := by
  induction text with
  | nil => exact List.forall_mem_singleton.mpr List.not_mem_nil
  | cons c rest ih =>
    by_cases hc : c = '/'
    · rw [hc, segments_slash]
      exact List.forall_mem_cons.mpr ⟨List.not_mem_nil, ih⟩
    · obtain ⟨first, more, hcons⟩ := List.exists_cons_of_ne_nil (segments_ne_nil rest)
      rw [hcons] at ih
      obtain ⟨hfirst, hmore⟩ := List.forall_mem_cons.mp ih
      rw [segments_cons hc, hcons, List.modifyHead_cons]
      refine List.forall_mem_cons.mpr ⟨fun h => ?_, hmore⟩
      rcases List.mem_cons.mp h with h | h
      · exact hc h.symm
      · exact hfirst h

namespace Path

/-- What holds of every path that was read. -/
structure WellFormed (p : Path) : Prop where
  root : p.root = "" ∨ p.root = "/" ∨ p.root = "//"
  parts : ∀ part ∈ p.parts, '/' ∉ part.toList ∧ part ≠ "" ∧ part ≠ "."

theorem wellFormed_ofText (text : String) : (ofText text).WellFormed where
  root := by
    rw [ofText, rootOf]
    split <;> simp
  parts part hp := by
    obtain ⟨hmem, hkeep⟩ := List.mem_filter.mp hp
    obtain ⟨piece, hpiece, rfl⟩ := List.mem_map.mp hmem
    rw [Bool.and_eq_true, bne_iff_ne, bne_iff_ne] at hkeep
    rw [String.toList_ofList]
    exact ⟨not_mem_of_mem_segments piece hpiece, hkeep⟩

/-! ## Reading the text of a path -/

/-- The parts of a path between slashes. -/
def joined (p : Path) : List Char :=
  ['/'].intercalate (p.parts.map String.toList)

/-- Whether a piece of a text is a part of the path. -/
def isPart (part : String) : Bool :=
  part != "" && part != "."

/-- The root is read back before anything that does not start with a slash. -/
theorem rootOf_append {root : String} (hroot : root = "" ∨ root = "/" ∨ root = "//") {rest : List Char}
    (hrest : rest.takeWhile (· == '/') = []) : rootOf (root.toList ++ rest) = root := by
  have hslashes : ∀ c ∈ root.toList, (c == '/') = true := by
    rcases hroot with rfl | rfl | rfl <;> simp
  rw [rootOf, List.takeWhile_append_of_pos hslashes, hrest, List.append_nil]
  rcases hroot with rfl | rfl | rfl <;> rfl

/-- Each slash of the root gives a piece without characters, which is dropped again. -/
theorem filter_root {root : String} (hroot : root = "" ∨ root = "/" ∨ root = "//") (rest : List Char) :
    ((segments (root.toList ++ rest)).map String.ofList).filter isPart =
      ((segments rest).map String.ofList).filter isPart := by
  have hdrop : ∀ rest, ((segments ('/' :: rest)).map String.ofList).filter isPart =
      ((segments rest).map String.ofList).filter isPart := by
    intro rest
    rw [segments_slash, List.map_cons, List.filter_cons_of_neg (by decide)]
  rcases hroot with rfl | rfl | rfl
  · rfl
  · exact hdrop rest
  · exact (hdrop _).trans (hdrop rest)

section WellFormed

variable {p : Path} (h : p.WellFormed)
include h

theorem filter_parts : p.parts.filter isPart = p.parts := by
  refine List.filter_eq_self.mpr fun part hp => ?_
  obtain ⟨-, hempty, hdot⟩ := h.parts part hp
  rw [isPart, Bool.and_eq_true, bne_iff_ne, bne_iff_ne]
  exact ⟨hempty, hdot⟩

theorem filter_joined : ((segments p.joined).map String.ofList).filter isPart = p.parts := by
  by_cases hnil : p.parts = []
  · rw [joined, hnil]
    rfl
  · have hslash : ∀ piece ∈ p.parts.map String.toList, '/' ∉ piece :=
      List.forall_mem_map.mpr fun part hp => (h.parts part hp).1
    rw [joined, segments_eq_splitOn, List.splitOn_intercalate '/' hslash (by simpa using hnil),
      List.map_map]
    simp [filter_parts h]

/-- The parts do not add to the slashes of the root. -/
theorem takeWhile_joined : p.joined.takeWhile (· == '/') = [] := by
  rw [joined]
  cases hparts : p.parts with
  | nil => rfl
  | cons part rest =>
    obtain ⟨hslash, hempty, -⟩ := h.parts part (hparts ▸ List.mem_cons_self)
    obtain ⟨c, chars, hchars⟩ := List.exists_cons_of_ne_nil
      (fun hnil => hempty (String.toList_eq_nil_iff.mp hnil))
    have hc : c ≠ '/' := by
      rintro rfl
      exact hslash (hchars ▸ List.mem_cons_self)
    rw [List.map_cons, hchars, List.intercalate_cons_cons_left,
      List.takeWhile_cons_of_neg (by simpa using hc)]

theorem ofText_body : ofText (p.root ++ "/".intercalate p.parts) = p := by
  have hbody : (p.root ++ "/".intercalate p.parts).toList = p.root.toList ++ p.joined := by
    rw [String.toList_append, String.toList_intercalate]
    rfl
  have hroot := rootOf_append h.root (takeWhile_joined h)
  have hparts := (filter_root h.root p.joined).trans (filter_joined h)
  obtain ⟨root, parts⟩ := p
  rw [ofText, hbody, Path.mk.injEq]
  exact ⟨hroot, hparts⟩

/-- **Reading the text of a path gives the path again.** -/
theorem ofText_text : ofText p.text = p := by
  have hbody := ofText_body h
  rw [text]
  split
  · next hempty =>
    rw [String.isEmpty_iff.mp hempty] at hbody
    exact hbody
  · exact hbody

end WellFormed

/-- Paths that were read are the same if their texts are. -/
theorem eq_of_text_eq {p q : Path} (hp : p.WellFormed) (hq : q.WellFormed) (h : p.text = q.text) :
    p = q := by
  rw [← ofText_text hp, ← ofText_text hq, h]

end Path

end AttributeLint.Files
