import AttributeLint.Proofs.Syntax.Listing

/-!
# The paths to opening elements

A path into a value is a list of numbers: at each step the place of an item in a list, or of a field
among the fields of an object.  `Leads` says what lies at the end of a path on which no field is
skipped.

* `placed`: the opening elements of a value, each with the path to it.
* `map_placed`: without their paths, they are what the recursion lists.
* `mem_placed_iff`: they are exactly the opening elements at the ends of paths.
* `pairwise_placed_all`: their paths increase strictly, in the order of the first difference; a path
  comes before those that go on from its end.
* `openings_iff_paths`: the three together, for the walk with a stack.
-/

namespace AttributeLint.Syntax

/-- What a path leads to, without entering a field that is skipped. -/
inductive Leads : Data → List Nat → Data → Prop
  | here (d : Data) : Leads d [] d
  | item {items : List Data} {i : Nat} {d e : Data} {path : List Nat} (hi : items[i]? = some d)
      (h : Leads d path e) : Leads (.list items) (i :: path) e
  | field {fields : Fields} {i : Nat} {key : String} {d e : Data} {path : List Nat}
      (hi : fields[i]? = some (key, d))
      (hk : key ∉ ["loc", "range", "parent", "tokens", "comments"])
      (h : Leads d path e) : Leads (.object fields) (i :: path) e

theorem isSkipped_eq_false_iff {key : String} :
    isSkipped key = false ↔ key ∉ ["loc", "range", "parent", "tokens", "comments"] := by
  simp [isSkipped, and_assoc]

theorem isOpening_iff {fields : Fields} :
    isOpening fields = true ↔ (Data.object fields).field "type" = .str "JSXOpeningElement" := by
  rw [isOpening, Data.field]
  cases fields.get? "type" with
  | none => exact ⟨nofun, nofun⟩
  | some d =>
    cases d with
    | str type =>
      rw [Option.getD_some, Data.str.injEq]
      exact beq_iff_eq
    | _ => exact ⟨nofun, nofun⟩

/-! ## Elements with their paths -/

/-- An element seen from one step further out. -/
def under (i : Nat) (p : List Nat × Fields) : List Nat × Fields :=
  (i :: p.1, p.2)

mutual

/-- The opening elements in a value, each with the path to it. -/
def placed : Data → List (List Nat × Fields)
  | .object fields =>
    if isOpening fields then ([], fields) :: placedFields 0 fields else placedFields 0 fields
  | .list items => placedItems 0 items
  | _ => []

/-- The opening elements in items, the first of which has a given number. -/
def placedItems (i : Nat) : List Data → List (List Nat × Fields)
  | [] => []
  | d :: rest => (placed d).map (under i) ++ placedItems (i + 1) rest

/-- The opening elements in fields, the first of which has a given number. -/
def placedFields (i : Nat) : List (String × Data) → List (List Nat × Fields)
  | [] => []
  | (key, d) :: rest =>
    if isSkipped key then placedFields (i + 1) rest
    else (placed d).map (under i) ++ placedFields (i + 1) rest

end

theorem map_under (i : Nat) (ps : List (List Nat × Fields)) :
    (ps.map (under i)).map (·.2) = ps.map (·.2) := by
  rw [List.map_map]
  rfl

/-- Without their paths, the elements are those that are listed. -/
theorem map_placed_all :
    (∀ d, (placed d).map (·.2) = listing d) ∧
    (∀ i items, (placedItems i items).map (·.2) = listingItems items) ∧
    (∀ i fields, (placedFields i fields).map (·.2) = listingFields fields) := by
  refine placed.mutual_induct
    (fun d => (placed d).map (·.2) = listing d)
    (fun i items => (placedItems i items).map (·.2) = listingItems items)
    (fun i fields => (placedFields i fields).map (·.2) = listingFields fields)
    ?element ?object ?list ?scalar ?noItem ?item ?noField ?skipped ?entered
  case element =>
    intro fields ho ih
    rw [placed, listing, if_pos ho, if_pos ho, List.map_cons, ih]
  case object =>
    intro fields ho ih
    rw [placed, listing, if_neg ho, if_neg ho, ih]
  case list =>
    intro items ih
    rw [placed, listing, ih]
  case scalar =>
    intro d ho hl
    rw [placed, listing, List.map_nil]
    all_goals assumption
  case noItem =>
    intro i
    rw [placedItems, listingItems, List.map_nil]
  case item =>
    intro i d rest ihd ihr
    rw [placedItems, listingItems, List.map_append, map_under, ihd, ihr]
  case noField =>
    intro i
    rw [placedFields, listingFields, List.map_nil]
  case skipped =>
    intro i key d rest hs ih
    rw [placedFields, listingFields, if_pos hs, if_pos hs, ih]
  case entered =>
    intro i key d rest hs ihd ihr
    rw [placedFields, listingFields, if_neg hs, if_neg hs, List.map_append, map_under, ihd, ihr]

theorem map_placed (d : Data) : (placed d).map (·.2) = listing d :=
  map_placed_all.1 d

/-! ## Which elements they are -/

theorem mem_map_under {i : Nat} {ps : List (List Nat × Fields)} {path : List Nat} {f : Fields} :
    (path, f) ∈ ps.map (under i) ↔ ∃ rest, path = i :: rest ∧ (rest, f) ∈ ps := by
  rw [List.mem_map]
  constructor
  · rintro ⟨p, hp, he⟩
    cases he
    exact ⟨p.1, rfl, hp⟩
  · rintro ⟨rest, rfl, hp⟩
    exact ⟨(rest, f), hp, rfl⟩

theorem mem_placedItems_iff {items : List Data} {i : Nat} {path : List Nat} {f : Fields} :
    (path, f) ∈ placedItems i items ↔
      ∃ j d rest, items[j]? = some d ∧ path = (i + j) :: rest ∧ (rest, f) ∈ placed d := by
  induction items generalizing i with
  | nil => simp [placedItems]
  | cons d items ih =>
    rw [placedItems, List.mem_append, mem_map_under, ih]
    constructor
    · rintro (⟨rest, rfl, hf⟩ | ⟨j, e, rest, hj, rfl, hf⟩)
      · exact ⟨0, d, rest, rfl, rfl, hf⟩
      · exact ⟨j + 1, e, rest, hj, by rw [Nat.add_right_comm, Nat.add_assoc], hf⟩
    · rintro ⟨j, e, rest, hj, rfl, hf⟩
      cases j with
      | zero => cases hj; exact Or.inl ⟨rest, rfl, hf⟩
      | succ j => exact Or.inr ⟨j, e, rest, hj, by rw [Nat.add_right_comm, Nat.add_assoc], hf⟩

theorem mem_placedFields_iff {fields : Fields} {i : Nat} {path : List Nat} {f : Fields} :
    (path, f) ∈ placedFields i fields ↔
      ∃ j key d rest, fields[j]? = some (key, d) ∧ isSkipped key = false ∧
        path = (i + j) :: rest ∧ (rest, f) ∈ placed d := by
  induction fields generalizing i with
  | nil => simp [placedFields]
  | cons field fields ih =>
    obtain ⟨key, d⟩ := field
    have htail : (path, f) ∈ placedFields (i + 1) fields ↔
        ∃ j key d rest, fields[j]? = some (key, d) ∧ isSkipped key = false ∧
          path = (i + (j + 1)) :: rest ∧ (rest, f) ∈ placed d := by
      rw [ih]
      simp only [Nat.add_right_comm i 1, Nat.add_assoc]
    rw [placedFields]
    cases hs : isSkipped key with
    | true =>
      rw [if_pos rfl, htail]
      constructor
      · rintro ⟨j, k, e, rest, hj, hk, hp, hf⟩
        exact ⟨j + 1, k, e, rest, hj, hk, hp, hf⟩
      · rintro ⟨j, k, e, rest, hj, hk, hp, hf⟩
        cases j with
        | zero => cases hj; rw [hs] at hk; cases hk
        | succ j => exact ⟨j, k, e, rest, hj, hk, hp, hf⟩
    | false =>
      rw [if_neg (by simp), List.mem_append, mem_map_under, htail]
      constructor
      · rintro (⟨rest, rfl, hf⟩ | ⟨j, k, e, rest, hj, hk, hp, hf⟩)
        · exact ⟨0, key, d, rest, rfl, hs, rfl, hf⟩
        · exact ⟨j + 1, k, e, rest, hj, hk, hp, hf⟩
      · rintro ⟨j, k, e, rest, hj, hk, hp, hf⟩
        cases j with
        | zero => cases hj; exact Or.inl ⟨rest, hp, hf⟩
        | succ j => exact Or.inr ⟨j, k, e, rest, hj, hk, hp, hf⟩

/-- Every element is at the end of its path.  The induction is on the path. -/
theorem leads_of_mem_placed {path : List Nat} {f : Fields} :
    ∀ {d : Data}, (path, f) ∈ placed d → Leads d path (.object f) ∧ isOpening f = true := by
  induction path with
  | nil =>
    intro d h
    cases d with
    | object fields =>
      rw [placed] at h
      split at h
      · next ho =>
        rcases List.mem_cons.mp h with he | h
        · cases he
          exact ⟨.here _, ho⟩
        · obtain ⟨_, _, _, _, _, _, hp, _⟩ := mem_placedFields_iff.mp h
          cases hp
      · obtain ⟨_, _, _, _, _, _, hp, _⟩ := mem_placedFields_iff.mp h
        cases hp
    | list items =>
      rw [placed] at h
      obtain ⟨_, _, _, _, hp, _⟩ := mem_placedItems_iff.mp h
      cases hp
    | _ => simp [placed] at h
  | cons i path ih =>
    intro d h
    cases d with
    | object fields =>
      have hf : (i :: path, f) ∈ placedFields 0 fields := by
        rw [placed] at h
        split at h
        · exact (List.mem_cons.mp h).resolve_left nofun
        · exact h
      obtain ⟨j, key, d, rest, hj, hk, hp, hd⟩ := mem_placedFields_iff.mp hf
      rw [Nat.zero_add] at hp
      cases hp
      obtain ⟨hl, ho⟩ := ih hd
      exact ⟨.field hj (isSkipped_eq_false_iff.mp hk) hl, ho⟩
    | list items =>
      rw [placed] at h
      obtain ⟨j, d, rest, hj, hp, hd⟩ := mem_placedItems_iff.mp h
      rw [Nat.zero_add] at hp
      cases hp
      obtain ⟨hl, ho⟩ := ih hd
      exact ⟨.item hj hl, ho⟩
    | _ => simp [placed] at h

/-- Every opening element at the end of a path is among those with a path. -/
theorem mem_placed_of_leads {d e : Data} {path : List Nat} (h : Leads d path e) :
    ∀ {f : Fields}, e = .object f → isOpening f = true → (path, f) ∈ placed d := by
  induction h with
  | here d =>
    rintro f rfl ho
    rw [placed, if_pos ho]
    exact List.mem_cons_self
  | item hi _ ih =>
    intro f he ho
    rw [placed]
    exact mem_placedItems_iff.mpr ⟨_, _, _, hi, by rw [Nat.zero_add], ih he ho⟩
  | @field fields i key d e path hi hk _ ih =>
    intro f he ho
    have hmem : (i :: path, f) ∈ placedFields 0 fields :=
      mem_placedFields_iff.mpr
        ⟨i, key, d, path, hi, isSkipped_eq_false_iff.mpr hk, by rw [Nat.zero_add], ih he ho⟩
    rw [placed]
    split
    · exact List.mem_cons_of_mem _ hmem
    · exact hmem

theorem mem_placed_iff {d : Data} {path : List Nat} {f : Fields} :
    (path, f) ∈ placed d ↔ Leads d path (.object f) ∧ isOpening f = true :=
  ⟨leads_of_mem_placed, fun h => mem_placed_of_leads h.1 rfl h.2⟩

/-! ## In which order they stand -/

/-- The order of paths. -/
def Before (p q : List Nat × Fields) : Prop :=
  p.1 < q.1

theorem pairwise_map_under {i : Nat} {ps : List (List Nat × Fields)} (h : ps.Pairwise Before) :
    (ps.map (under i)).Pairwise Before := by
  rw [List.pairwise_map]
  exact h.imp fun hlt => List.cons_lt_cons_iff.mpr (Or.inr ⟨rfl, hlt⟩)

/-- What is under one number comes before what is under greater ones. -/
theorem pairwise_append_under {i : Nat} {ps qs : List (List Nat × Fields)} (hp : ps.Pairwise Before)
    (hq : qs.Pairwise Before) (hlt : ∀ q ∈ qs, ∃ j rest, i < j ∧ q.1 = j :: rest) :
    (ps.map (under i) ++ qs).Pairwise Before := by
  rw [List.pairwise_append]
  refine ⟨pairwise_map_under hp, hq, ?_⟩
  intro p hmem q hqmem
  obtain ⟨p', _, rfl⟩ := List.mem_map.mp hmem
  obtain ⟨j, rest, hj, he⟩ := hlt q hqmem
  show i :: p'.1 < q.1
  rw [he]
  exact List.cons_lt_cons_iff.mpr (Or.inl hj)

theorem placedItems_above {i : Nat} {items : List Data} :
    ∀ q ∈ placedItems (i + 1) items, ∃ j rest, i < j ∧ q.1 = j :: rest := by
  rintro ⟨path, f⟩ hq
  obtain ⟨j, d, rest, _, hp, _⟩ := mem_placedItems_iff.mp hq
  exact ⟨i + 1 + j, rest, by omega, hp⟩

theorem placedFields_above {i : Nat} {fields : Fields} :
    ∀ q ∈ placedFields (i + 1) fields, ∃ j rest, i < j ∧ q.1 = j :: rest := by
  rintro ⟨path, f⟩ hq
  obtain ⟨j, key, d, rest, _, _, hp, _⟩ := mem_placedFields_iff.mp hq
  exact ⟨i + 1 + j, rest, by omega, hp⟩

/-- The paths increase strictly: in a value, in items and in fields. -/
theorem pairwise_placed_all :
    (∀ d, (placed d).Pairwise Before) ∧ (∀ i items, (placedItems i items).Pairwise Before) ∧
    (∀ i fields, (placedFields i fields).Pairwise Before) := by
  refine placed.mutual_induct
    (fun d => (placed d).Pairwise Before)
    (fun i items => (placedItems i items).Pairwise Before)
    (fun i fields => (placedFields i fields).Pairwise Before)
    ?element ?object ?list ?scalar ?noItem ?item ?noField ?skipped ?entered
  case element =>
    intro fields ho ih
    rw [placed, if_pos ho, List.pairwise_cons]
    refine ⟨?_, ih⟩
    -- an element has the empty path, and all in its fields have longer ones
    rintro ⟨path, f⟩ hq
    obtain ⟨j, key, d, rest, _, _, rfl, _⟩ := mem_placedFields_iff.mp hq
    exact List.nil_lt_cons _ _
  case object =>
    intro fields ho ih
    rw [placed, if_neg ho]
    exact ih
  case list =>
    intro items ih
    rw [placed]
    exact ih
  case scalar =>
    intro d ho hl
    rw [placed]
    · exact List.Pairwise.nil
    all_goals assumption
  case noItem =>
    intro i
    rw [placedItems]
    exact List.Pairwise.nil
  case item =>
    intro i d rest ihd ihr
    rw [placedItems]
    exact pairwise_append_under ihd ihr placedItems_above
  case noField =>
    intro i
    rw [placedFields]
    exact List.Pairwise.nil
  case skipped =>
    intro i key d rest hs ih
    rw [placedFields, if_pos hs]
    exact ih
  case entered =>
    intro i key d rest hs ihd ihr
    rw [placedFields, if_neg hs]
    exact pairwise_append_under ihd ihr placedFields_above

/-- **The walk goes along the paths.**  The elements that it yields are those at the ends of some paths
that increase strictly, and these are exactly the paths without a skipped field that lead to an
opening element.  So each of them gives one element, and none is given twice. -/
theorem openings_iff_paths (tree : Data) :
    ∃ places : List (List Nat × Fields),
      openings tree = places.map (·.2) ∧
      places.Pairwise (fun p q => p.1 < q.1) ∧
      ∀ path fields, (path, fields) ∈ places ↔
        Leads tree path (.object fields) ∧
          (Data.object fields).field "type" = .str "JSXOpeningElement" := by
  refine ⟨placed tree, ?_, pairwise_placed_all.1 tree, ?_⟩
  · rw [openings_eq_listing, map_placed]
  · intro path fields
    rw [mem_placed_iff, isOpening_iff]

end AttributeLint.Syntax
