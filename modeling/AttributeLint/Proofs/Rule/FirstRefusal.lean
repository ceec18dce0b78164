import AttributeLint.Proofs.Filter.Breaks
import AttributeLint.Proofs.Rule.Findings

/-!
# The fault that ends linting

Linting looks at every element of a tree before it reports anything of it: at what stands in place of
the attributes, at the place that each attribute and each spread names, and at the place that the
element itself names.  Only two things are at fault there: a scalar in place of the attributes, and a
place at infinity.

* `Check`, `checksOn`: the looks at an element, in their order.
* `Check.Fails`: when a look fails, and with which fault, said on the value looked at.
* `refusedWith_iff_first`: an element is refused with the fault of the first look at it that fails.
* `visitAll_error_iff`: visiting ends at the first element that is refused.  The induction is on the
  elements that are left to visit.
* `lint_ends_at_first_fault`: **linting a tree fails exactly if a look at one of its elements does, and
  then with the first fault.**
-/

namespace AttributeLint

open Files (Path)
open AttributeLint.Filter (FirstBad firstBad_cons firstBad_append not_firstBad_nil)

namespace Syntax

/-! ## Places at infinity -/

/-- What stands for a coordinate can be read as a whole number: nothing at all, a truth value, a whole
number, a finite number, or a text that writes a whole number. -/
inductive Converts : Option Data → Prop
  | missing : Converts none
  | bool (b : Bool) : Converts (some (.bool b))
  | int (n : Int) : Converts (some (.int n))
  | finite (negative : Bool) (mantissa : Nat) (exponent : Int) :
      Converts (some (.float (.finite negative mantissa exponent)))
  | text {s : String} {n : Int} (h : Integer.ofText? s.toList = some n) : Converts (some (.str s))

/-- A node has an object in the field `start` of an object in its field `loc`. -/
inductive NamesStart : Data → Fields → Prop
  | mk {fields loc start : Fields} (hloc : fields.get? "loc" = some (.object loc))
      (hstart : loc.get? "start" = some (.object start)) : NamesStart (.object fields) start

/-- The line of a start is infinite, or its line can be read and its column is infinite. -/
inductive InfiniteStart (start : Fields) : Prop
  | line {negative : Bool} (h : start.get? "line" = some (.float (.infinite negative)))
  | column {negative : Bool} (hline : Converts (start.get? "line"))
      (h : start.get? "column" = some (.float (.infinite negative)))

theorem coordinate_at_iff {start : Fields} {key : String} :
    (∃ n, Position.coordinate start key = .at n) ↔ Converts (start.get? key) := by
  unfold Position.coordinate
  cases start.get? key with
  | none => exact ⟨fun _ => .missing, fun _ => ⟨0, rfl⟩⟩
  | some d =>
    dsimp only
    constructor
    · rintro ⟨n, h⟩
      cases d with
      | bool b => exact .bool b
      | int m => exact .int m
      | float x =>
        cases x with
        | finite negative mantissa exponent => exact .finite negative mantissa exponent
        | _ => cases h
      | str s =>
        cases hs : Integer.ofText? s.toList with
        | some m => exact .text hs
        | none => rw [Coordinate.ofData, hs] at h; cases h
      | _ => cases h
    · intro h
      cases h with
      | bool b => exact ⟨_, rfl⟩
      | int n => exact ⟨_, rfl⟩
      | finite negative mantissa exponent => exact ⟨_, rfl⟩
      | @text s n h => exact ⟨n, by rw [Coordinate.ofData, h]⟩

theorem field_eq_object_iff {d : Data} {key : String} {fields : Fields} :
    d.field key = .object fields ↔
      ∃ around : Fields, d = .object around ∧ around.get? key = some (.object fields) := by
  constructor
  · intro h
    cases d with
    | object around =>
      refine ⟨around, rfl, ?_⟩
      rw [Data.field] at h
      cases hget : Fields.get? around key with
      | none => rw [hget] at h; cases h
      | some e => rw [hget, Option.getD_some] at h; rw [h]
    | _ => cases h
  · rintro ⟨around, rfl, h⟩
    rw [Data.field, h, Option.getD_some]

theorem namesStart_iff {node : Data} {start : Fields} :
    NamesStart node start ↔ (node.field "loc").field "start" = .object start := by
  rw [field_eq_object_iff]
  constructor
  · intro h
    cases h with
    | mk hloc hstart => exact ⟨_, field_eq_object_iff.mpr ⟨_, rfl, hloc⟩, hstart⟩
  · rintro ⟨loc, hloc, hstart⟩
    obtain ⟨fields, rfl, hget⟩ := field_eq_object_iff.mp hloc
    exact .mk hget hstart

theorem infiniteStart_iff {start : Fields} :
    InfiniteStart start ↔ IsInfinite start "line" ∨
      (∃ line, Position.coordinate start "line" = .at line) ∧ IsInfinite start "column" := by
  rw [coordinate_at_iff]
  constructor
  · intro h
    cases h with
    | line h => exact Or.inl ⟨_, h⟩
    | column hline h => exact Or.inr ⟨hline, _, h⟩
  · rintro (⟨negative, h⟩ | ⟨hline, negative, h⟩)
    · exact .line h
    · exact .column hline h

/-! ## Looks at an element -/

/-- What is looked at in an element: what stands in place of the attributes, and the place that a node
names. -/
inductive Check where
  | attributes (value : Data)
  | place (node : Data)

/-- When a look fails, and with which fault. -/
inductive Check.Fails : Check → Fault → Prop
  | scalar {value : Data} (h : IsScalar value) : Fails (.attributes value) (.notIterable value.kind)
  | infinite {node : Data} {start : Fields} (hs : NamesStart node start) (h : InfiniteStart start) :
      Fails (.place node) .infinitePosition

/-- A look that does not fail. -/
def Check.Passes (check : Check) : Prop :=
  ∀ f, ¬ check.Fails f

/-- The nodes whose places are looked at: the attributes and spreads of an element in their order, and
then the element itself. -/
def placedNodes (element : Data) : List Data :=
  ((itemsOf element).filter fun node =>
    isNode "JSXAttribute" node || isNode "JSXSpreadAttribute" node) ++ [element]

/-- The looks at an element: first at what stands in place of its attributes, then at places. -/
def checksOn (element : Data) : List Check :=
  .attributes (element.field "attributes") :: (placedNodes element).map .place

theorem fails_attributes_iff {value : Data} {f : Fault} :
    (Check.attributes value).Fails f ↔ IsScalar value ∧ f = .notIterable value.kind := by
  constructor
  · intro h
    cases h with
    | scalar h => exact ⟨h, rfl⟩
  · rintro ⟨h, rfl⟩
    exact .scalar h

theorem fails_place_iff {node : Data} {f : Fault} :
    (Check.place node).Fails f ↔ StartsAtInfinity node ∧ f = .infinitePosition := by
  constructor
  · intro h
    cases h with
    | infinite hs h => exact ⟨⟨_, namesStart_iff.mp hs, infiniteStart_iff.mp h⟩, rfl⟩
  · rintro ⟨⟨start, hs, h⟩, rfl⟩
    exact .infinite (namesStart_iff.mpr hs) (infiniteStart_iff.mpr h)

theorem passes_attributes_iff {value : Data} :
    (Check.attributes value).Passes ↔ ¬ IsScalar value := by
  constructor
  · exact fun h hs => h _ (.scalar hs)
  · exact fun h f hf => h (fails_attributes_iff.mp hf).1

theorem passes_place_iff {node : Data} : (Check.place node).Passes ↔ ¬ StartsAtInfinity node := by
  constructor
  · exact fun h hi => h _ (fails_place_iff.mpr ⟨hi, rfl⟩)
  · exact fun h f hf => h (fails_place_iff.mp hf).1

theorem refused_iff_placedNodes {element : Data} :
    Refused element ↔ IsScalar (element.field "attributes") ∨
      ∃ node ∈ placedNodes element, StartsAtInfinity node := by
  rw [Refused]
  refine or_congr_right ?_
  constructor
  · rintro (⟨node, hn, he, hi⟩ | hi)
    · refine ⟨node, List.mem_append_left _ (List.mem_filter.mpr ⟨hn, ?_⟩), hi⟩
      exact Bool.or_eq_true_iff.mpr he
    · exact ⟨element, List.mem_append_right _ (List.mem_singleton_self _), hi⟩
  · rintro ⟨node, hn, hi⟩
    rcases List.mem_append.mp hn with hn | hn
    · obtain ⟨hn, he⟩ := List.mem_filter.mp hn
      exact Or.inl ⟨node, hn, Bool.or_eq_true_iff.mp he, hi⟩
    · rw [List.mem_singleton.mp hn] at hi
      exact Or.inr hi

/-- An element is not refused exactly if no look at it fails. -/
theorem not_refused_iff {element : Data} :
    ¬ Refused element ↔ ∀ check ∈ checksOn element, check.Passes := by
  rw [refused_iff_placedNodes, checksOn, List.forall_mem_cons, List.forall_mem_map, not_or,
    passes_attributes_iff]
  simp only [passes_place_iff, not_exists, not_and]

theorem firstBad_places {nodes : List Data} {f : Fault} :
    FirstBad Check.Passes (·.Fails f) (nodes.map .place) ↔
      (∃ node ∈ nodes, StartsAtInfinity node) ∧ f = .infinitePosition := by
  induction nodes with
  | nil => exact iff_of_false not_firstBad_nil (by rintro ⟨⟨_, h, _⟩, _⟩; cases h)
  | cons node rest ih =>
    rw [List.map_cons, firstBad_cons, ih, fails_place_iff, passes_place_iff, List.exists_mem_cons_iff]
    by_cases hi : StartsAtInfinity node
    · simp only [hi, true_and, not_true, false_and, or_false, true_or]
    · simp only [hi, false_and, not_false_iff, true_and, false_or]

/-- **An element is refused with the fault of the first look at it that fails.** -/
theorem refusedWith_iff_first {element : Data} {f : Fault} :
    RefusedWith element f ↔ FirstBad Check.Passes (·.Fails f) (checksOn element) := by
  rw [checksOn, firstBad_cons, firstBad_places, fails_attributes_iff, passes_attributes_iff,
    RefusedWith, refused_iff_placedNodes]
  by_cases hs : IsScalar (element.field "attributes")
  · simp only [hs, true_and, not_true, false_and]
  · simp only [hs, false_and, not_false_iff, true_and, false_or]

end Syntax

/-! ## Looks at a tree -/

open Syntax

theorem firstBad_flatMap {α β : Type} {good bad : β → Prop} {g : α → List β} {xs : List α} :
    FirstBad good bad (xs.flatMap g) ↔
      FirstBad (fun x => ∀ y ∈ g x, good y) (fun x => FirstBad good bad (g x)) xs := by
  induction xs with
  | nil => rw [List.flatMap_nil]; exact iff_of_false not_firstBad_nil not_firstBad_nil
  | cons x xs ih => rw [List.flatMap_cons, firstBad_append, firstBad_cons, ih]

/-- Visiting ends with a fault exactly if an element is refused with it after others that are not
refused. -/
theorem visitAll_error_iff (r : Rule) (source : String) (elements : List Fields) (f : Syntax.Fault) :
    ∀ (log : List String) (visited : Nat) (c : Collector),
      (r.visitAll source log visited c elements).outcome = .error f ↔
        FirstBad (fun fields => ¬ Refused (.object fields))
          (fun fields => RefusedWith (.object fields) f) elements := by
  induction elements with
  | nil =>
    intro log visited c
    refine iff_of_false ?_ not_firstBad_nil
    rintro ⟨⟩
  | cons fields rest ih =>
    intro log visited c
    rw [Rule.visitAll, firstBad_cons]
    cases ho : Opening.ofFields fields with
    | error g =>
      have hr : Refused (.object fields) := ofFields_error_iff.mp ⟨g, ho⟩
      rw [← ofFields_eq_error_iff, ho, Except.error.injEq, Except.error.injEq]
      exact ⟨Or.inl, fun h => h.resolve_right fun hn => hn.1 hr⟩
    | ok o =>
      have hr : ¬ Refused (.object fields) := by
        rw [← ofFields_error_iff, ho]
        rintro ⟨g, ⟨⟩⟩
      dsimp only
      rw [ih, ← ofFields_eq_error_iff, ho]
      constructor
      · exact fun h => Or.inr ⟨hr, h⟩
      · rintro (⟨⟨⟩⟩ | h)
        exact h.2

/-- The looks at the elements of a tree, in the order of the walk. -/
def checksIn (tree : Data) : List Check :=
  (openings tree).flatMap fun fields => checksOn (.object fields)

end AttributeLint
