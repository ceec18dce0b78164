import AttributeLint.Pattern.Choice
import Mathlib.Data.List.Basic

/-!
# What expressions are put together from

Items are put in a row with the groups that do nothing taken apart, and alternatives are put into a
choice with their common beginning in front.  Neither adds or loses anything but single characters,
which a choice may gather in a class.

* `Feature`, `Regex.features`: the anchors, references, groups and possessive repetitions of an
  expression, at any depth.
* `factored`, `factor`: a choice between rows of items, as a row and as an expression, with the two
  equations `factored_shared` and `factored_of_not_shared`.
* `Gathers`: a property that an expression has from its parts, and characters do not have.  What is put
  together has it exactly if a part does (`Gathers.sequence`, `Gathers.choices`).
* `mem_features_sequence`, `mem_features_choices`: the features of what is put together are those of
  its parts.
-/

namespace AttributeLint.Pattern

/-- What an expression has inside it, apart from characters. -/
inductive Feature where
  | anchor (a : Anchor)
  | ref (group : Nat) (width : Width)
  | group (number : Nat)
  | possessive (body : Regex)
  deriving DecidableEq, Repr

namespace Regex

/-- What an expression has inside it, at any depth. -/
def features : Regex → List Feature
  | anchor a => [.anchor a]
  | backref group width => [.ref group width]
  | cat r s => r.features ++ s.features
  | alt r s => r.features ++ s.features
  | capture group r => .group group :: r.features
  | flagged _ _ r => r.features
  | iterate greed _ _ r => if greed = .possessive then .possessive r :: r.features else r.features
  | atomic r => r.features
  | look _ _ r => r.features
  | whether _ yes no => yes.features ++ no.features
  | _ => []

/-! ## Rows of items -/

theorem mem_features_iterate {x : Feature} {greed : Greed} {least : Nat} {most : Option Nat}
    {r : Regex} : x ∈ (iterate greed least most r).features ↔
      greed = .possessive ∧ x = .possessive r ∨ x ∈ r.features := by
  rw [features]
  split
  · next h => simp [h]
  · next h => simp [h]

theorem features_bare (r : Regex) : r.bare.features = r.features := by
  cases r with
  | flagged on off r =>
    rw [bare]
    split <;> rfl
  | _ => rfl

theorem cats_cons {r : Regex} {rest : List Regex} (h : rest ≠ []) :
    cats (r :: rest) = cat r (cats rest) := by
  cases rest with
  | nil => exact absurd rfl h
  | cons s rest => rfl

/-- A property that an expression has from its parts, and that characters do not have. -/
structure Gathers (P : Regex → Prop) : Prop where
  empty : ¬ P empty
  never : ¬ P never
  code : ∀ negated n, ¬ P (code negated n)
  oneOf : ∀ negated items, ¬ P (oneOf negated items)
  cat : ∀ r s, P (cat r s) ↔ P r ∨ P s
  alt : ∀ r s, P (alt r s) ↔ P r ∨ P s
  flagged : ∀ on off r, P (flagged on off r) ↔ P r

namespace Gathers

variable {P : Regex → Prop} (hP : Gathers P)
include hP

theorem bare (r : Regex) : P r.bare ↔ P r := by
  cases r with
  | flagged on off r =>
    rw [Regex.bare]
    split
    · exact (hP.flagged on off r).symm
    · rfl
  | _ => rfl

theorem cats (rs : List Regex) : P (cats rs) ↔ ∃ r ∈ rs, P r := by
  induction rs with
  | nil => simp [Regex.cats, hP.empty]
  | cons r rest ih =>
    cases rest with
    | nil => simp [Regex.cats]
    | cons s rest =>
      rw [cats_cons (List.cons_ne_nil _ _), hP.cat, ih]
      simp

theorem items (r : Regex) : P r ↔ ∃ i ∈ r.items, P i := by
  induction r with
  | cat r s ihr ihs =>
    rw [hP.cat, Regex.items, ihr, ihs]
    simp only [List.mem_append, or_and_right, exists_or]
  | empty => simp [hP.empty, Regex.items]
  | _ => simp [Regex.items]

theorem sequence (rs : List Regex) : P (sequence rs) ↔ ∃ r ∈ rs, P r := by
  rw [Regex.sequence, hP.cats]
  constructor
  · rintro ⟨i, hi, hx⟩
    obtain ⟨r, hr, hi⟩ := List.mem_flatMap.mp hi
    exact ⟨r, hr, (hP.bare r).mp ((hP.items r.bare).mpr ⟨i, hi, hx⟩)⟩
  · rintro ⟨r, hr, hx⟩
    obtain ⟨i, hi, hx⟩ := (hP.items r.bare).mp ((hP.bare r).mpr hx)
    exact ⟨i, List.mem_flatMap.mpr ⟨r, hr, hi⟩, hx⟩

end Gathers

theorem gathers_features (x : Feature) : Gathers fun r => x ∈ r.features where
  empty := List.not_mem_nil
  never := List.not_mem_nil
  code _ _ := List.not_mem_nil
  oneOf _ _ := List.not_mem_nil
  cat _ _ := List.mem_append
  alt _ _ := List.mem_append
  flagged _ _ _ := Iff.rfl

theorem mem_features_cats {x : Feature} {rs : List Regex} :
    x ∈ (cats rs).features ↔ ∃ r ∈ rs, x ∈ r.features :=
  (gathers_features x).cats rs

theorem mem_features_items {x : Feature} {r : Regex} :
    x ∈ r.features ↔ ∃ i ∈ r.items, x ∈ i.features :=
  (gathers_features x).items r

theorem mem_features_sequence {x : Feature} {rs : List Regex} :
    x ∈ (sequence rs).features ↔ ∃ r ∈ rs, x ∈ r.features :=
  (gathers_features x).sequence rs

/-! ## Choices -/

/-- The row that a choice between rows of items is: the common beginning, and then a choice between
the rests. -/
def factored : List (List Regex) → List Regex
  | [] => []
  | row :: others => (commonStart row others).1 ++ [branch (commonStart row others).2]

/-- A choice between rows of items. -/
def factor (rows : List (List Regex)) : Regex :=
  cats (factored rows)

theorem choices_eq_factor {rs : List Regex} (h : 2 ≤ rs.length) :
    choices rs = factor (rs.map items) := by
  match rs, h with
  | _ :: _ :: _, _ => rfl

/-- All rows begin with the same plain item. -/
def Shared (p : Regex) (rows : List (List Regex)) : Prop :=
  p.isPlain = true ∧ ∃ rests : List (List Regex), rows = rests.map (p :: ·)

theorem factored_shared {p : Regex} {rests : List (List Regex)} (hp : p.isPlain = true)
    (hr : rests ≠ []) : factored (rests.map (p :: ·)) = p :: factored rests := by
  match rests, hr with
  | row :: others, _ =>
    have hall : (others.map (p :: ·)).all (·.head? == some p) = true := by
      simp
    have htails : (others.map (p :: ·)).map List.tail = others := by
      rw [List.map_map]
      exact List.map_id _
    rw [List.map_cons, factored, commonStart, if_pos (by rw [hp, hall]; rfl), htails]
    rfl

theorem factored_ne_nil {rows : List (List Regex)} (hne : rows ≠ []) : factored rows ≠ [] := by
  match rows, hne with
  | row :: others, _ => exact List.append_ne_nil_of_right_ne_nil _ (List.cons_ne_nil _ _)

theorem factor_shared {p : Regex} {rests : List (List Regex)} (hp : p.isPlain = true)
    (hr : rests ≠ []) : factor (rests.map (p :: ·)) = cat p (factor rests) := by
  rw [factor, factored_shared hp hr, cats_cons (factored_ne_nil hr), factor]

/-- Rows that all have the same head are their tails behind that head. -/
theorem map_tail_of_heads {p : Regex} {rows : List (List Regex)}
    (h : ∀ row ∈ rows, row.head? = some p) : rows = (rows.map List.tail).map (p :: ·) := by
  rw [List.map_map]
  refine (List.map_id rows).symm.trans (List.map_congr_left ?_)
  intro row hrow
  exact (List.cons_head?_tail (h row hrow)).symm

theorem factored_of_not_shared {rows : List (List Regex)} (hne : rows ≠ [])
    (h : ∀ p, ¬ Shared p rows) : factored rows = [branch rows] := by
  match rows, hne with
  | [] :: others, _ => rfl
  | (p :: row) :: others, _ =>
    have hnot : (p.isPlain && others.all (·.head? == some p)) = false := by
      rw [Bool.eq_false_iff]
      intro hshared
      obtain ⟨hp, hall⟩ := Bool.and_eq_true_iff.mp hshared
      refine h p ⟨hp, _, map_tail_of_heads (List.forall_mem_cons.mpr ⟨rfl, fun r hr => ?_⟩)⟩
      exact beq_iff_eq.mp (List.all_eq_true.mp hall r hr)
    rw [factored, commonStart, if_neg (by rw [hnot]; simp)]
    rfl

theorem factor_of_not_shared {rows : List (List Regex)} (hne : rows ≠ [])
    (h : ∀ p, ¬ Shared p rows) : factor rows = branch rows := by
  rw [factor, factored_of_not_shared hne h, cats]

/-- Facts about choices are shown for rows that share no beginning, and carried on from rows to the
same rows behind a plain item.  The induction is on the length of the first row. -/
theorem factor_induction {motive : List (List Regex) → Prop}
    (split : ∀ rows, rows ≠ [] → (∀ p, ¬ Shared p rows) → motive rows)
    (shared : ∀ p rests, p.isPlain = true → rests ≠ [] → motive rests →
      motive (rests.map (p :: ·)))
    {rows : List (List Regex)} (hne : rows ≠ []) : motive rows := by
  match rows, hne with
  | row :: others, hne =>
    induction row generalizing others with
    | nil =>
      refine split _ hne ?_
      rintro p ⟨_, rests, hr⟩
      cases rests with
      | nil => cases hr
      | cons r rests => cases hr
    | cons q row ih =>
      by_cases h : ∃ p, Shared p ((q :: row) :: others)
      · obtain ⟨p, hp, rests, hr⟩ := h
        cases rests with
        | nil => cases hr
        | cons r rests =>
          obtain ⟨hrow, rfl⟩ := List.cons.inj hr
          obtain ⟨rfl, rfl⟩ := List.cons.inj hrow
          exact shared q (row :: rests) hp (List.cons_ne_nil _ _) (ih rests (List.cons_ne_nil _ _))
      · exact split _ hne fun p hp => h ⟨p, hp⟩

theorem members?_of_mapM {rows : List (List Regex)} {members : List (List ClassItem)}
    (h : rows.mapM members? = some members) : ∀ row ∈ rows, ∃ items, members? row = some items := by
  induction rows generalizing members with
  | nil => exact fun _ hrow => absurd hrow List.not_mem_nil
  | cons row rest ih =>
    rw [List.mapM_cons] at h
    obtain ⟨items, hitems, h⟩ := Option.bind_eq_some_iff.mp h
    obtain ⟨more, hmore, _⟩ := Option.bind_eq_some_iff.mp h
    exact List.forall_mem_cons.mpr ⟨⟨items, hitems⟩, ih hmore⟩

/-! ### Properties of choices -/

namespace Gathers

variable {P : Regex → Prop} (hP : Gathers P)
include hP

theorem alts (rows : List (List Regex)) : P (alts rows) ↔ ∃ row ∈ rows, ∃ i ∈ row, P i := by
  induction rows with
  | nil => simp [Regex.alts, hP.never]
  | cons row rest ih => rw [Regex.alts, hP.alt, hP.cats, ih]; simp

/-- An alternative that is a member of a class is a character or a class. -/
theorem of_members {row : List Regex} {items : List ClassItem} (h : members? row = some items) :
    ∀ i ∈ row, ¬ P i := by
  unfold members? at h
  split at h
  · simp [hP.code]
  · simp [hP.oneOf]
  · cases h

theorem branch (rows : List (List Regex)) : P (branch rows) ↔ ∃ row ∈ rows, ∃ i ∈ row, P i := by
  rw [Regex.branch]
  split
  · next members hm =>
    refine ⟨fun h => absurd h (hP.oneOf _ _), ?_⟩
    rintro ⟨row, hrow, i, hi, hx⟩
    obtain ⟨items, hitems⟩ := members?_of_mapM hm row hrow
    exact absurd hx (hP.of_members hitems i hi)
  · exact hP.alts rows

theorem factor {rows : List (List Regex)} (hne : rows ≠ []) :
    P (factor rows) ↔ ∃ row ∈ rows, ∃ i ∈ row, P i := by
  refine factor_induction (motive := fun rows => P (Regex.factor rows) ↔ ∃ row ∈ rows, ∃ i ∈ row, P i)
    ?split ?shared hne
  case split =>
    intro rows hne h
    rw [factor_of_not_shared hne h, hP.branch]
  case shared =>
    intro p rests hp hr ih
    obtain ⟨row, rest, rfl⟩ := List.exists_cons_of_ne_nil hr
    rw [factor_shared hp hr, hP.cat, ih]
    constructor
    · rintro (hx | ⟨r, hr, i, hi, hx⟩)
      · exact ⟨p :: row, List.mem_map_of_mem List.mem_cons_self, p, List.mem_cons_self, hx⟩
      · exact ⟨p :: r, List.mem_map_of_mem hr, i, List.mem_cons_of_mem _ hi, hx⟩
    · rintro ⟨_, hmem, i, hi, hx⟩
      obtain ⟨r, hrest, rfl⟩ := List.mem_map.mp hmem
      rcases List.mem_cons.mp hi with rfl | hi
      · exact Or.inl hx
      · exact Or.inr ⟨r, hrest, i, hi, hx⟩

theorem choices (rs : List Regex) : P (choices rs) ↔ ∃ r ∈ rs, P r := by
  match rs with
  | [] => simp [Regex.choices, hP.empty]
  | [r] => simp [Regex.choices]
  | r :: s :: rest =>
    rw [choices_eq_factor (by simp), hP.factor (by simp)]
    simp only [List.mem_map, exists_exists_and_eq_and, ← hP.items]

end Gathers

theorem mem_features_alts {x : Feature} {rows : List (List Regex)} :
    x ∈ (alts rows).features ↔ ∃ row ∈ rows, ∃ i ∈ row, x ∈ i.features :=
  (gathers_features x).alts rows

theorem mem_features_factor {x : Feature} {rows : List (List Regex)} (hne : rows ≠ []) :
    x ∈ (factor rows).features ↔ ∃ row ∈ rows, ∃ i ∈ row, x ∈ i.features :=
  (gathers_features x).factor hne

theorem mem_features_choices {x : Feature} {rs : List Regex} :
    x ∈ (choices rs).features ↔ ∃ r ∈ rs, x ∈ r.features :=
  (gathers_features x).choices rs

end Regex

end AttributeLint.Pattern
