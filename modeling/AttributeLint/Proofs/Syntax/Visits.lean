import AttributeLint.Proofs.Syntax.Paths
import Mathlib

/-!
# What the walk pops

The walk is a loop over a stack.  In each turn the value on top is popped, it is yielded if it is an
opening element, and what is in it takes its place.  The stack may grow in a turn; what shrinks is the
number of values that can still be reached from it.

* `Loop.turn`: one turn of the loop.  `walk` yields turn by turn what the loop does (`walk_cons`).
* `Reaches`: the values that can be reached from a value, each with the path to it.  From a list all items
  are reached, from an object the lists and objects in fields that are not skipped.
* `visits`: these values by recursion, a value before what is in it.
* `Balanced`: what has been popped, and what can still be reached from the stack, are together what can be
  reached from the first stack; likewise for what has been yielded.  A turn keeps it (`Balanced.turn`), so
  every run does (`balanced_turns`).
* `loop_pops_each_once`: **the loop pops each value that can be reached once, and then it ends.**
-/

namespace AttributeLint.Syntax

/-! ## The loop -/

/-- What a popped value puts on the stack. -/
def pushed : Data → List Data
  | .object fields => children fields
  | .list items => items
  | _ => []

/-- What a popped value yields. -/
def yielded : Data → List Fields
  | .object fields => if isOpening fields then [fields] else []
  | _ => []

/-- The loop between two turns: its stack, and what it has popped and yielded so far. -/
structure Loop where
  stack : List Data
  popped : List Data
  found : List Fields

namespace Loop

/-- The loop before its first turn. -/
def start (stack : List Data) : Loop :=
  ⟨stack, [], []⟩

/-- One turn.  With an empty stack the loop has ended. -/
def turn (s : Loop) : Loop :=
  match s.stack with
  | [] => s
  | d :: rest => ⟨pushed d ++ rest, s.popped ++ [d], s.found ++ yielded d⟩

end Loop

/-- The walk goes turn by turn. -/
theorem walk_cons (d : Data) (rest : List Data) :
    walk (d :: rest) = yielded d ++ walk (pushed d ++ rest) := by
  cases d with
  | object fields =>
    rw [walk, yielded, pushed]
    split
    · rfl
    · rfl
  | list items => rw [walk]; rfl
  | _ => rw [walk] <;> simp [yielded, pushed]

/-! ## What can be reached -/

/-- What a path leads to, through the items of lists and through lists and objects in fields that are not
skipped. -/
inductive Reaches : Data → List Nat → Data → Prop
  | here (d : Data) : Reaches d [] d
  | item {items : List Data} {i : Nat} {d e : Data} {path : List Nat} (hi : items[i]? = some d)
      (h : Reaches d path e) : Reaches (.list items) (i :: path) e
  | field {fields : Fields} {i : Nat} {key : String} {d e : Data} {path : List Nat}
      (hi : fields[i]? = some (key, d))
      (hk : key ∉ ["loc", "range", "parent", "tokens", "comments"])
      (hd : (∃ items, d = .list items) ∨ ∃ fields, d = .object fields)
      (h : Reaches d path e) : Reaches (.object fields) (i :: path) e

theorem isBranch_iff {d : Data} :
    isBranch d = true ↔ (∃ items, d = .list items) ∨ ∃ fields, d = .object fields := by
  cases d <;> simp [isBranch]

/-- The values that a value puts on the stack, with their places in it. -/
def steps : Data → List (Nat × Data)
  | .object fields =>
    (fields.zipIdx.filter fun entry => !isSkipped entry.1.1 && isBranch entry.1.2).map
      fun entry => (entry.2, entry.1.2)
  | .list items => items.zipIdx.map fun entry => (entry.2, entry.1)
  | _ => []

theorem mem_steps_list {items : List Data} {i : Nat} {d : Data} :
    (i, d) ∈ steps (.list items) ↔ items[i]? = some d := by
  simp [steps, List.mem_zipIdx_iff_getElem?]

theorem mem_steps_object {fields : Fields} {i : Nat} {d : Data} :
    (i, d) ∈ steps (.object fields) ↔
      ∃ key, fields[i]? = some (key, d) ∧ isSkipped key = false ∧ isBranch d = true := by
  simp [steps, List.mem_zipIdx_iff_getElem?, and_assoc]

/-- Places apart, they are what is pushed. -/
theorem map_steps (d : Data) : (steps d).map (·.2) = pushed d := by
  cases d with
  | object fields =>
    have hfrom : ∀ (k : Nat) (fields : Fields),
        ((fields.zipIdx k).filter fun entry => !isSkipped entry.1.1 && isBranch entry.1.2).map
          (fun entry => entry.1.2) = children fields := by
      intro k fields
      induction fields generalizing k with
      | nil => rfl
      | cons field rest ih =>
        obtain ⟨key, e⟩ := field
        rw [List.zipIdx_cons, List.filter_cons, children]
        split
        · rw [List.map_cons, ih]
        · exact ih _
    rw [steps, List.map_map]
    exact hfrom 0 fields
  | list items =>
    rw [steps, List.map_map]
    exact List.zipIdx_map_fst 0 items
  | _ => rfl

/-- The places increase. -/
theorem pairwise_steps (d : Data) : (steps d).Pairwise fun s t => s.1 < t.1 := by
  have hzip : ∀ {α : Type} (l : List α), l.zipIdx.Pairwise fun s t => s.2 < t.2 := by
    intro α l
    rw [← List.pairwise_map, List.zipIdx_map_snd]
    exact List.pairwise_lt_range'
  cases d with
  | object fields => exact List.pairwise_map.mpr ((hzip fields).filter _)
  | list items => exact List.pairwise_map.mpr (hzip items)
  | _ => exact List.Pairwise.nil

theorem weights_pushed_lt (d : Data) : Data.weights (pushed d) < d.weight := by
  cases d with
  | object fields =>
    have := weights_children_le fields
    rw [pushed, Data.weight]
    omega
  | list items => simp [pushed, Data.weight]
  | _ => simp [pushed, Data.weight]

theorem weight_le_weights {d : Data} {items : List Data} (h : d ∈ items) :
    d.weight ≤ Data.weights items := by
  induction items with
  | nil => cases h
  | cons e rest ih =>
    rw [Data.weights_cons]
    rcases List.mem_cons.mp h with rfl | h
    · omega
    · have := ih h
      omega

theorem weight_lt_of_mem_steps {d : Data} {s : Nat × Data} (h : s ∈ steps d) :
    s.2.weight < d.weight := by
  have hmem : s.2 ∈ pushed d := by
    rw [← map_steps]
    exact List.mem_map_of_mem h
  have := weight_le_weights hmem
  have := weights_pushed_lt d
  omega

/-- A value seen from one step further out. -/
def beneath (i : Nat) (v : List Nat × Data) : List Nat × Data :=
  (i :: v.1, v.2)

/-- The values that can be reached from a value, each with its path, a value before what is in it. -/
def visits (d : Data) : List (List Nat × Data) :=
  ([], d) :: (steps d).attach.flatMap fun s => (visits s.1.2).map (beneath s.1.1)
termination_by d.weight
decreasing_by exact weight_lt_of_mem_steps s.2

theorem visits_eq (d : Data) :
    visits d = ([], d) :: (steps d).flatMap fun s => (visits s.2).map (beneath s.1) := by
  have hattach : (steps d).flatMap (fun s => (visits s.2).map (beneath s.1)) =
      (steps d).attach.flatMap fun s => (visits s.1.2).map (beneath s.1.1) := by
    nth_rewrite 1 [← List.attach_map_subtype_val (steps d)]
    exact List.flatMap_map ..
  rw [visits, hattach]

/-! ### Which values they are -/

theorem reaches_nil_iff {d e : Data} : Reaches d [] e ↔ e = d := by
  constructor
  · intro h
    cases h
    rfl
  · rintro rfl
    exact .here _

theorem reaches_cons_iff {d e : Data} {i : Nat} {path : List Nat} :
    Reaches d (i :: path) e ↔ ∃ c, (i, c) ∈ steps d ∧ Reaches c path e := by
  constructor
  · intro h
    cases h with
    | item hi h => exact ⟨_, mem_steps_list.mpr hi, h⟩
    | field hi hk hd h =>
      exact ⟨_, mem_steps_object.mpr ⟨_, hi, isSkipped_eq_false_iff.mpr hk, isBranch_iff.mpr hd⟩, h⟩
  · rintro ⟨c, hc, h⟩
    cases d with
    | object fields =>
      obtain ⟨key, hi, hk, hd⟩ := mem_steps_object.mp hc
      exact .field hi (isSkipped_eq_false_iff.mp hk) (isBranch_iff.mp hd) h
    | list items => exact .item (mem_steps_list.mp hc) h
    | _ => cases hc

theorem nil_mem_visits_iff {d e : Data} : ([], e) ∈ visits d ↔ e = d := by
  rw [visits_eq]
  simp [beneath]

theorem cons_mem_visits_iff {d e : Data} {i : Nat} {path : List Nat} :
    (i :: path, e) ∈ visits d ↔ ∃ c, (i, c) ∈ steps d ∧ (path, e) ∈ visits c := by
  rw [visits_eq]
  simp [beneath]

/-- They are the values that can be reached.  The induction is on the path. -/
theorem mem_visits_iff {path : List Nat} {e : Data} :
    ∀ {d : Data}, (path, e) ∈ visits d ↔ Reaches d path e := by
  induction path with
  | nil => exact nil_mem_visits_iff.trans reaches_nil_iff.symm
  | cons i path ih =>
    intro d
    rw [cons_mem_visits_iff, reaches_cons_iff]
    exact exists_congr fun c => and_congr_right fun _ => ih

/-- Their paths increase strictly. -/
theorem pairwise_visits (d : Data) : (visits d).Pairwise fun p q => p.1 < q.1 := by
  induction d using visits.induct with
  | case1 d ih =>
    rw [visits_eq, List.pairwise_cons, List.pairwise_flatMap]
    refine ⟨?_, ?_, (pairwise_steps d).imp ?_⟩
    · simp only [List.mem_flatMap, List.mem_map]
      rintro q ⟨s, _, v, _, rfl⟩
      exact List.nil_lt_cons _ _
    · intro s hs
      refine List.pairwise_map.mpr ((ih ⟨s, hs⟩).imp ?_)
      exact fun hlt => List.cons_lt_cons_iff.mpr (Or.inr ⟨rfl, hlt⟩)
    · simp only [List.mem_map]
      rintro s t hlt _ ⟨v, _, rfl⟩ _ ⟨w, _, rfl⟩
      exact List.cons_lt_cons_iff.mpr (Or.inl hlt)

/-- The values alone. -/
def reached (d : Data) : List Data :=
  (visits d).map (·.2)

theorem reached_eq (d : Data) : reached d = d :: (pushed d).flatMap reached := by
  rw [reached, visits_eq, List.map_cons, List.map_flatMap, ← map_steps, List.flatMap_map]
  simp only [List.map_map]
  rfl

/-! ## What every run keeps -/

/-- What has been popped, and what can still be reached, are together what could be reached at first.
What has been yielded, and what the walk yields from here on, are together what it yields at all. -/
structure Balanced (first : List Data) (s : Loop) : Prop where
  popped : s.popped ++ s.stack.flatMap reached = first.flatMap reached
  found : s.found ++ walk s.stack = walk first

theorem Balanced.turn {first : List Data} {s : Loop} (h : Balanced first s) :
    Balanced first s.turn := by
  obtain ⟨stack, popped, found⟩ := s
  cases stack with
  | nil => exact h
  | cons d rest =>
    constructor
    · have := h.popped
      rw [List.flatMap_cons, reached_eq] at this
      simpa [Loop.turn] using this
    · have := h.found
      rw [walk_cons] at this
      simpa [Loop.turn] using this

theorem balanced_turns (stack : List Data) (n : Nat) :
    Balanced stack (Loop.turn^[n] (.start stack)) := by
  induction n with
  | zero => exact ⟨rfl, rfl⟩
  | succ n ih =>
    rw [Function.iterate_succ_apply']
    exact ih.turn

/-- How many values can still be reached from the stack. -/
def Loop.pending (s : Loop) : Nat :=
  (s.stack.flatMap reached).length

theorem pending_turn (s : Loop) : s.turn.pending = s.pending - 1 := by
  obtain ⟨stack, popped, found⟩ := s
  cases stack with
  | nil => rfl
  | cons d rest => simp [Loop.turn, Loop.pending, reached_eq d]

theorem pending_turns (s : Loop) (n : Nat) : (Loop.turn^[n] s).pending = s.pending - n := by
  induction n with
  | zero => rfl
  | succ n ih => rw [Function.iterate_succ_apply', pending_turn, ih, Nat.sub_sub]

theorem pending_eq_zero_iff (s : Loop) : s.pending = 0 ↔ s.stack = [] := by
  obtain ⟨stack, popped, found⟩ := s
  cases stack with
  | nil => simp [Loop.pending]
  | cons d rest => simp [Loop.pending, reached_eq d]

/-! ## Wrapped trees -/

/-- An element around a tree. -/
def wrapped (tree : Data) : Data :=
  .object [("type", .str "JSXElement"), ("children", .list [tree])]

theorem listing_wrapped (tree : Data) : listing (wrapped tree) = listing tree := by
  have hopen : isOpening [("type", .str "JSXElement"), ("children", .list [tree])] = false := rfl
  rw [wrapped, listing, hopen]
  simp [listingFields, listingItems, listing, isSkipped]

theorem listing_wraps (tree : Data) (n : Nat) : listing (wrapped^[n] tree) = listing tree := by
  induction n with
  | zero => rfl
  | succ n ih => rw [Function.iterate_succ_apply', listing_wrapped, ih]

/-! ## The places of a stack -/

/-- The values that can be reached from a stack.  The first number of a path is the place on the stack,
counted from its top. -/
def placesOf (stack : List Data) : List (List Nat × Data) :=
  (visits (.list stack)).tail

theorem visits_list (stack : List Data) :
    visits (.list stack) = ([], .list stack) :: placesOf stack := by
  rw [placesOf, visits_eq]
  rfl

theorem map_placesOf (stack : List Data) : (placesOf stack).map (·.2) = stack.flatMap reached := by
  have h := reached_eq (.list stack)
  rw [reached, visits_list, List.map_cons] at h
  exact (List.cons.inj h).2

theorem mem_placesOf_iff {stack : List Data} {path : List Nat} {d : Data} :
    (path, d) ∈ placesOf stack ↔
      ∃ i rest top, path = i :: rest ∧ stack[i]? = some top ∧ Reaches top rest d := by
  have hmem : (path, d) ∈ placesOf stack ↔ path ≠ [] ∧ Reaches (.list stack) path d := by
    have hpairs := pairwise_visits (.list stack)
    rw [visits_list, List.pairwise_cons] at hpairs
    rw [← mem_visits_iff, visits_list, List.mem_cons]
    constructor
    · intro h
      refine ⟨?_, Or.inr h⟩
      rintro rfl
      exact absurd (hpairs.1 ([], d) h) (List.lt_irrefl _)
    · rintro ⟨hne, he | h⟩
      · cases he
        exact absurd rfl hne
      · exact h
  rw [hmem]
  constructor
  · rintro ⟨hne, h⟩
    cases h with
    | here => exact absurd rfl hne
    | item hi h => exact ⟨_, _, _, rfl, hi, h⟩
  · rintro ⟨i, rest, top, rfl, hi, h⟩
    exact ⟨List.cons_ne_nil _ _, .item hi h⟩

theorem pairwise_placesOf (stack : List Data) : (placesOf stack).Pairwise fun p q => p.1 < q.1 := by
  have h := pairwise_visits (.list stack)
  rw [visits_list, List.pairwise_cons] at h
  exact h.2

theorem pending_start (stack : List Data) : (Loop.start stack).pending = (placesOf stack).length := by
  rw [Loop.pending, Loop.start, ← map_placesOf, List.length_map]

/-- **The loop pops each value that can be reached once, and then it ends.**  From any stack it ends after
as many turns as there are paths from the stack, and not before; it has then popped what lies at their
ends, in the order of the paths.  What it yields is what the recursion lists, value by value from the top
of the stack on, so elements around a tree change nothing. -/
theorem loop_pops_each_once (stack : List Data) :
    (∃ places : List (List Nat × Data),
      (∀ n, (Loop.turn^[n] (.start stack)).stack = [] ↔ places.length ≤ n) ∧
      Loop.turn^[places.length] (.start stack) = ⟨[], places.map (·.2), walk stack⟩ ∧
      places.Pairwise (fun p q => p.1 < q.1) ∧
      ∀ path d, (path, d) ∈ places ↔
        ∃ i rest top, path = i :: rest ∧ stack[i]? = some top ∧ Reaches top rest d) ∧
    walk stack = stack.flatMap listing ∧
    ∀ above tree n, walk (above ++ wrapped^[n] tree :: stack) = walk (above ++ tree :: stack) := by
  have hends : ∀ n, (Loop.turn^[n] (.start stack)).stack = [] ↔ (placesOf stack).length ≤ n := by
    intro n
    rw [← pending_eq_zero_iff, pending_turns, pending_start, Nat.sub_eq_zero_iff_le]
  refine ⟨⟨placesOf stack, hends, ?_, pairwise_placesOf stack, fun _ _ => mem_placesOf_iff⟩,
    walk_eq_flatMap stack, ?_⟩
  · obtain ⟨hpopped, hfound⟩ := balanced_turns stack (placesOf stack).length
    have hend := (hends (placesOf stack).length).mpr le_rfl
    generalize Loop.turn^[(placesOf stack).length] (.start stack) = s at *
    obtain ⟨rest, popped, found⟩ := s
    cases hend
    rw [List.flatMap_nil, List.append_nil] at hpopped
    rw [walk, List.append_nil] at hfound
    rw [map_placesOf, ← hpopped, ← hfound]
  · intro above tree n
    rw [walk_eq_flatMap, walk_eq_flatMap, List.flatMap_append, List.flatMap_append, List.flatMap_cons,
      List.flatMap_cons, listing_wraps]

end AttributeLint.Syntax
