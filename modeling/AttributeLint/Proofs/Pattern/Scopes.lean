import AttributeLint.Proofs.Pattern.Moves

/-!
# Groups and the references to them

A reference is read where its group has been closed.  So no group stands behind a reference to it, and
none has one inside it.  Such expressions are orderly, and everything that is read is.

* `Regex.Orderly`: the definition, with `orderly_cats`, `orderly_sequence`, `orderly_factor` and
  `orderly_choices` for what is put together.
* `Scoped`: the invariant of reading.  Levels know their groups from the groups of other levels by
  whether a group is closed.
* `parse_orderly`: **what is read is orderly.**
-/

namespace AttributeLint.Pattern

namespace Regex

/-! ## Orderly expressions -/

/-- No reference in the first expression is to a group in the second. -/
def Precedes (r s : Regex) : Prop :=
  ∀ g w, .ref g w ∈ r.features → .group g ∉ s.features

/-- Groups are numbered from one on, and none stands behind a reference to it or around one. -/
def Orderly : Regex → Prop
  | cat r s => r.Orderly ∧ s.Orderly ∧ r.Precedes s
  | alt r s => r.Orderly ∧ s.Orderly
  | capture group r => 1 ≤ group ∧ r.Orderly ∧ ∀ w, .ref group w ∉ r.features
  | flagged _ _ r => r.Orderly
  | iterate _ _ _ r => r.Orderly
  | atomic r => r.Orderly
  | look _ _ r => r.Orderly
  | backref group _ => 1 ≤ group
  | whether _ yes no => yes.Orderly ∧ no.Orderly
  | _ => True

/-- Orderly items, of which none refers to a group in one behind it. -/
def OrderlyRow (row : List Regex) : Prop :=
  (∀ r ∈ row, r.Orderly) ∧ row.Pairwise Precedes

theorem orderly_bare {r : Regex} : r.bare.Orderly ↔ r.Orderly := by
  cases r with
  | flagged on off r =>
    rw [bare]
    split <;> rfl
  | _ => rfl

theorem precedes_cats {r : Regex} {rest : List Regex} :
    r.Precedes (cats rest) ↔ ∀ s ∈ rest, r.Precedes s := by
  constructor
  · exact fun h s hs g w hr hg => h g w hr (mem_features_cats.mpr ⟨s, hs, hg⟩)
  · intro h g w hr hg
    obtain ⟨s, hs, hg⟩ := mem_features_cats.mp hg
    exact h s hs g w hr hg

theorem orderly_cats {row : List Regex} : (cats row).Orderly ↔ OrderlyRow row := by
  induction row with
  | nil => exact ⟨fun _ => ⟨nofun, .nil⟩, fun _ => trivial⟩
  | cons r rest ih =>
    rw [OrderlyRow, List.forall_mem_cons, List.pairwise_cons]
    cases rest with
    | nil => simp [cats]
    | cons s rest =>
      rw [cats_cons (List.cons_ne_nil _ _), Orderly, ih, precedes_cats, OrderlyRow]
      tauto

theorem orderly_items {r : Regex} : OrderlyRow r.items ↔ r.Orderly := by
  induction r with
  | empty => exact ⟨fun _ => trivial, fun _ => ⟨nofun, .nil⟩⟩
  | cat r s ihr ihs =>
    have hprecedes : r.Precedes s ↔ ∀ a ∈ r.items, ∀ b ∈ s.items, a.Precedes b := by
      constructor
      · exact fun h a ha b hb g w hr hg =>
          h g w (mem_features_items.mpr ⟨a, ha, hr⟩) (mem_features_items.mpr ⟨b, hb, hg⟩)
      · intro h g w hr hg
        obtain ⟨a, ha, hr⟩ := mem_features_items.mp hr
        obtain ⟨b, hb, hg⟩ := mem_features_items.mp hg
        exact h a ha b hb g w hr hg
    rw [Orderly, ← ihr, ← ihs, hprecedes, items, OrderlyRow, OrderlyRow, OrderlyRow,
      List.forall_mem_append, List.pairwise_append]
    tauto
  | _ => simp [items, OrderlyRow]

theorem orderly_sequence {rs : List Regex} (h : OrderlyRow rs) : (sequence rs).Orderly := by
  rw [sequence, orderly_cats]
  have hrow : ∀ r ∈ rs, OrderlyRow r.bare.items :=
    fun r hr => orderly_items.mpr (orderly_bare.mpr (h.1 r hr))
  have hmem : ∀ {r i : Regex} {x}, i ∈ r.bare.items → x ∈ i.features → x ∈ r.features :=
    fun {r i x} hi hx => features_bare r ▸ mem_features_items.mpr ⟨i, hi, hx⟩
  refine ⟨?_, List.pairwise_flatMap.mpr ⟨fun r hr => (hrow r hr).2, ?_⟩⟩
  · intro i hi
    obtain ⟨r, hr, hi⟩ := List.mem_flatMap.mp hi
    exact (hrow r hr).1 i hi
  · exact h.2.imp fun hrs a ha b hb g w hr hg => hrs g w (hmem ha hr) (hmem hb hg)

theorem orderly_alts {rows : List (List Regex)} :
    (alts rows).Orderly ↔ ∀ row ∈ rows, OrderlyRow row := by
  induction rows with
  | nil => exact ⟨fun _ => nofun, fun _ => trivial⟩
  | cons row rest ih => rw [alts, Orderly, orderly_cats, ih, List.forall_mem_cons]

theorem orderly_branch {rows : List (List Regex)} :
    (branch rows).Orderly ↔ ∀ row ∈ rows, OrderlyRow row := by
  rw [branch]
  split
  · next members hm =>
    refine ⟨fun _ row hrow => ?_, fun _ => trivial⟩
    obtain ⟨items, hitems⟩ := members?_of_mapM hm row hrow
    unfold members? at hitems
    split at hitems
    · exact ⟨by simp [Orderly], List.pairwise_singleton _ _⟩
    · exact ⟨by simp [Orderly], List.pairwise_singleton _ _⟩
    · cases hitems
  · exact orderly_alts

theorem orderly_factor {rows : List (List Regex)} (hne : rows ≠ []) :
    (factor rows).Orderly ↔ ∀ row ∈ rows, OrderlyRow row := by
  refine factor_induction
    (motive := fun rows => (factor rows).Orderly ↔ ∀ row ∈ rows, OrderlyRow row) ?split ?shared hne
  case split =>
    intro rows hne h
    rw [factor_of_not_shared hne h, orderly_branch]
  case shared =>
    intro p rests hp hr ih
    have hprecedes : p.Precedes (factor rests) ↔ ∀ row ∈ rests, ∀ s ∈ row, p.Precedes s := by
      constructor
      · exact fun h row hrow s hs g w hp hg =>
          h g w hp ((mem_features_factor hr).mpr ⟨row, hrow, s, hs, hg⟩)
      · intro h g w hp hg
        obtain ⟨row, hrow, s, hs, hg⟩ := (mem_features_factor hr).mp hg
        exact h row hrow s hs g w hp hg
    have hrow : ∀ row, OrderlyRow (p :: row) ↔
        p.Orderly ∧ OrderlyRow row ∧ ∀ s ∈ row, p.Precedes s := by
      intro row
      rw [OrderlyRow, OrderlyRow, List.forall_mem_cons, List.pairwise_cons]
      tauto
    rw [factor_shared hp hr, Orderly, ih, hprecedes, List.forall_mem_map]
    simp only [hrow]
    obtain ⟨first, others, rfl⟩ := List.exists_cons_of_ne_nil hr
    constructor
    · rintro ⟨ho, hrests, hprec⟩ row hmem
      exact ⟨ho, hrests row hmem, hprec row hmem⟩
    · intro h
      exact ⟨(h first List.mem_cons_self).1, fun row hmem => (h row hmem).2.1,
        fun row hmem => (h row hmem).2.2⟩

theorem orderly_choices {rs : List Regex} : (choices rs).Orderly ↔ ∀ r ∈ rs, r.Orderly := by
  match rs with
  | [] => exact ⟨fun _ => nofun, fun _ => trivial⟩
  | [r] => simp [choices]
  | r :: s :: rest =>
    rw [choices_eq_factor (by simp), orderly_factor (by simp), List.forall_mem_map]
    simp only [orderly_items]

end Regex

/-! ## Groups that are closed -/

namespace Groups

variable {g g' : Groups}

theorem closed?_eq (h : g'.widths = g.widths) (n : Nat) : g'.closed? n = g.closed? n := by
  cases n with
  | zero => rfl
  | succ n => rw [closed?, closed?, h]

theorem closed?_open (h : g'.widths = g.widths ++ [none]) (n : Nat) : g'.closed? n = g.closed? n := by
  cases n with
  | zero => rfl
  | succ n =>
    rw [closed?, closed?, h]
    rcases Nat.lt_trichotomy n g.widths.length with hn | rfl | hn
    · rw [List.getElem?_append_left hn]
    · simp
    · rw [List.getElem?_eq_none (by simp; omega), List.getElem?_eq_none (by omega)]

theorem closed?_close {n : Nat} (hn : 1 ≤ n) (hle : n ≤ g.widths.length) (w : Width) (m : Nat) :
    (g.close n w).closed? m = if m = n then some w else g.closed? m := by
  cases m with
  | zero => rw [if_neg (by omega)]; rfl
  | succ m =>
    rw [close, closed?, closed?]
    dsimp only
    split
    · next h =>
      rw [show n - 1 = m by omega, List.getElem?_set_self (by omega)]
      rfl
    · next h => rw [List.getElem?_set_ne (by omega)]

theorem one_le_of_closed {n : Nat} (h : (g.closed? n).isSome = true) : 1 ≤ n := by
  cases n with
  | zero => cases h
  | succ n => exact Nat.le_add_left 1 n

end Groups

/-! ## The invariant -/

/-- The items of a level and its complete alternatives are orderly. -/
def Level.Orderly (l : Level) : Prop :=
  Regex.OrderlyRow l.items.reverse ∧ ∀ r ∈ l.done, r.Orderly

/-- The levels that are open. -/
def State.levels (s : State) : List Level :=
  s.level :: s.outer

/-- References in a level are to groups in it or in levels around it; the groups in it are in no level
around it; and a group is open but once. -/
def Nested : List Level → Prop
  | [] => True
  | l :: outer =>
    (∀ g w, .ref g w ∈ l.features → ∃ m ∈ l :: outer, .group g ∈ m.features) ∧
      (∀ g, .group g ∈ l.features → ∀ m ∈ outer, .group g ∉ m.features) ∧
      (∀ n, l.opening = .capture n → ∀ m ∈ outer, m.opening ≠ .capture n) ∧ Nested outer

/-- What holds between any two steps of reading. -/
structure Scoped (s : State) : Prop where
  orderly : ∀ l ∈ s.levels, l.Orderly
  nested : Nested s.levels
  /-- Groups in a level are closed. -/
  closed : ∀ l ∈ s.levels, ∀ g, .group g ∈ l.features → (s.groups.closed? g).isSome = true
  /-- Groups that are closed are in a level. -/
  found : ∀ g, (s.groups.closed? g).isSome = true → ∃ l ∈ s.levels, .group g ∈ l.features
  /-- Groups of levels are not closed. -/
  opened : ∀ l ∈ s.levels, ∀ n, l.opening = .capture n →
    1 ≤ n ∧ n ≤ s.groups.widths.length ∧ s.groups.closed? n = none
  /-- A condition has at most two branches. -/
  branches : ∀ l ∈ s.levels, ∀ n, l.opening = .whether n → l.done.length ≤ 1

/-- Moves inside the innermost level change its items and add references to groups that are closed. -/
theorem Scoped.inside {s s' : State} (hs : Scoped s) (houter : s'.outer = s.outer)
    (hgroups : s'.groups = s.groups) (hopening : s'.level.opening = s.level.opening)
    (horderly : s'.level.Orderly)
    (hgroup : ∀ g, .group g ∈ s'.level.features ↔ .group g ∈ s.level.features)
    (href : ∀ g w, .ref g w ∈ s'.level.features →
      .ref g w ∈ s.level.features ∨ (s.groups.closed? g).isSome = true)
    (hbranch : ∀ n, s'.level.opening = .whether n → s'.level.done.length ≤ 1) : Scoped s' := by
  obtain ⟨ho, hn, hc, hf, hop, hb⟩ := hs
  rw [State.levels] at ho hn hc hop hb
  obtain ⟨hn₁, hn₂, hn₃, hn₄⟩ := hn
  have hmember : ∀ g, (∃ m ∈ s.level :: s.outer, .group g ∈ m.features) →
      ∃ m ∈ s'.level :: s.outer, .group g ∈ m.features := by
    rintro g ⟨m, hm, hg⟩
    rcases List.mem_cons.mp hm with rfl | hm
    · exact ⟨s'.level, List.mem_cons_self, (hgroup g).mpr hg⟩
    · exact ⟨m, List.mem_cons_of_mem _ hm, hg⟩
  constructor
  all_goals rw [State.levels, houter]
  case orderly =>
    exact List.forall_mem_cons.mpr ⟨horderly, (List.forall_mem_cons.mp ho).2⟩
  case nested =>
    refine ⟨fun g w hr => hmember g ?_, fun g hg => hn₂ g ((hgroup g).mp hg), ?_, hn₄⟩
    · exact (href g w hr).elim (hn₁ g w) (hf g)
    · exact hopening ▸ hn₃
  case closed =>
    obtain ⟨hc₁, hc₂⟩ := List.forall_mem_cons.mp hc
    rw [hgroups]
    exact List.forall_mem_cons.mpr ⟨fun g hg => hc₁ g ((hgroup g).mp hg), hc₂⟩
  case found =>
    rw [hgroups]
    exact fun g hg => hmember g (hf g hg)
  case opened =>
    obtain ⟨hop₁, hop₂⟩ := List.forall_mem_cons.mp hop
    rw [hgroups]
    exact List.forall_mem_cons.mpr ⟨hopening ▸ hop₁, hop₂⟩
  case branches =>
    exact List.forall_mem_cons.mpr ⟨hbranch, (List.forall_mem_cons.mp hb).2⟩

/-- Opening a level. -/
theorem Scoped.enter {s : State} (hs : Scoped s) {opening : Opening} {groups : Groups}
    (hopens : Opens s.groups opening groups) (start : Nat) (verbose : Bool) (i : Input) :
    Scoped { s.enter opening start verbose i with groups } := by
  have hempty : ∀ x, x ∉ ({ opening, start, verbose } : Level).features := by
    simp [Level.features]
  have hclosed : ∀ n, groups.closed? n = s.groups.closed? n := by
    rcases hopens with ⟨-, h⟩ | ⟨-, h⟩
    · exact Groups.closed?_open h
    · exact Groups.closed?_eq h
  have hlength : s.groups.widths.length ≤ groups.widths.length := by
    rcases hopens with ⟨-, h⟩ | ⟨-, h⟩ <;> simp [h]
  constructor
  case orderly =>
    refine List.forall_mem_cons.mpr ⟨⟨⟨?_, ?_⟩, ?_⟩, hs.orderly⟩ <;> simp [State.enter]
  case nested =>
    refine ⟨fun g w h => absurd h (hempty _), fun g h => absurd h (hempty _), ?_, hs.nested⟩
    intro n hn m hm hm'
    rcases hopens with ⟨h, -⟩ | ⟨h, -⟩
    · have hnext : s.groups.next = n := by rw [h] at hn; exact Opening.capture.inj hn
      have hle := (hs.opened m hm n hm').2.1
      rw [Groups.next] at hnext
      omega
    · exact h n hn
  case closed =>
    refine List.forall_mem_cons.mpr ⟨fun g h => absurd h (hempty _), ?_⟩
    intro l hl g hg
    rw [hclosed]
    exact hs.closed l hl g hg
  case found =>
    intro g hg
    rw [hclosed] at hg
    obtain ⟨l, hl, h⟩ := hs.found g hg
    exact ⟨l, List.mem_cons_of_mem _ hl, h⟩
  case opened =>
    refine List.forall_mem_cons.mpr ⟨?_, ?_⟩
    · intro n hn
      rcases hopens with ⟨h, hwidths⟩ | ⟨h, -⟩
      · have hnext : s.groups.next = n := by rw [h] at hn; exact Opening.capture.inj hn
        rw [Groups.next] at hnext
        subst hnext
        refine ⟨Nat.le_add_left 1 _, by simp [hwidths], ?_⟩
        rw [hclosed, Groups.closed?, List.getElem?_eq_none (Nat.le_refl _)]
        rfl
      · exact absurd hn (h n)
    · intro l hl n hn
      obtain ⟨h₁, h₂, h₃⟩ := hs.opened l hl n hn
      exact ⟨h₁, Nat.le_trans h₂ hlength, by rw [hclosed]; exact h₃⟩
  case branches =>
    exact List.forall_mem_cons.mpr ⟨fun _ _ => Nat.zero_le _, hs.branches⟩

/-! ### Closing a level -/

namespace Level

variable {l : Level} {g : Groups}

theorem Orderly.current (h : l.Orderly) : l.current.Orderly :=
  Regex.orderly_sequence h.1

theorem Orderly.body (h : l.Orderly) : l.body.Orderly := by
  rw [Level.body, Regex.orderly_choices]
  intro r hr
  rcases List.mem_cons.mp (List.mem_reverse.mp hr) with rfl | hr
  · exact h.current
  · exact h.2 r hr

theorem orderly_closed (h : l.Orderly)
    (hcapture : ∀ n, l.opening = .capture n → 1 ≤ n ∧ ∀ w, .ref n w ∉ l.features) :
    (Reader.closed l g).1.Orderly := by
  unfold Reader.closed
  split
  · exact h.body
  · next n hn =>
    obtain ⟨hpos, href⟩ := hcapture n hn
    exact ⟨hpos, h.body, fun w hw => href w (mem_features_body.mp hw)⟩
  · exact h.body
  · exact h.body
  · exact h.body
  · exact h.body
  · split
    · exact ⟨h.current, trivial⟩
    · next yes done hdone => exact ⟨h.2 yes (hdone ▸ List.mem_cons_self), h.current⟩

/-- Closing a level loses nothing. -/
theorem mem_features_of_closed {x : Feature}
    (hbranch : ∀ n, l.opening = .whether n → l.done.length ≤ 1) (hx : x ∈ l.features) :
    x ∈ (Reader.closed l g).1.features := by
  unfold Reader.closed
  split
  · exact mem_features_body.mpr hx
  · exact List.mem_cons_of_mem _ (mem_features_body.mpr hx)
  · exact mem_features_body.mpr hx
  · exact mem_features_body.mpr hx
  · exact mem_features_body.mpr hx
  · exact mem_features_body.mpr hx
  · next n hn =>
    rw [mem_features, ← mem_features_current] at hx
    cases hdone : l.done with
    | nil => simpa [hdone, Regex.features] using hx
    | cons yes done =>
      have hlength := hbranch n hn
      rw [hdone, List.length_cons] at hlength
      obtain rfl : done = [] := List.eq_nil_of_length_eq_zero (by omega)
      simpa [hdone, Regex.features, or_comm] using hx

theorem group_mem_closed {n : Nat} (h : l.opening = .capture n) :
    .group n ∈ (Reader.closed l g).1.features := by
  unfold Reader.closed
  rw [h]
  exact List.mem_cons_self

/-- Closing a level adds a group at most, and no reference. -/
theorem ref_mem_of_closed {n : Nat} {w : Width} (h : .ref n w ∈ (Reader.closed l g).1.features) :
    .ref n w ∈ l.features := by
  rcases mem_features_closed h with h | ⟨m, -, he⟩
  · exact h
  · cases he

/-- Closing a level that captures closes its group, and closing another one changes nothing. -/
theorem closed?_closed (hopened : ∀ n, l.opening = .capture n → 1 ≤ n ∧ n ≤ g.widths.length)
    (m : Nat) : ((Reader.closed l g).2.closed? m).isSome = true ↔
      l.opening = .capture m ∨ (g.closed? m).isSome = true := by
  unfold Reader.closed
  split
  case h_2 n hn =>
    obtain ⟨hpos, hle⟩ := hopened n hn
    rw [Groups.closed?_close hpos hle]
    split
    · next h => simp [hn, h]
    · next h => simp [hn, Ne.symm h]
  case h_6 mark hn =>
    have hsame : ({ g with mark } : Groups).closed? m = g.closed? m := Groups.closed?_eq rfl m
    simp [hn, hsame]
  case h_7 hn => split <;> simp [hn]
  all_goals
    next hn => simp [hn]

theorem length_widths_closed :
    (Reader.closed l g).2.widths.length = g.widths.length := by
  unfold Reader.closed
  split
  case h_2 => exact List.length_set
  case h_7 => split <;> rfl
  all_goals rfl

end Level

/-- A plain item has no group, and a reference only if it is one. -/
theorem features_of_isPlain {r : Regex} (hr : r.isPlain = true) :
    (∀ g, .group g ∉ r.features) ∧ ∀ g w, .ref g w ∈ r.features → r = .backref g w := by
  cases r with
  | code | any | oneOf | anchor | backref => simp [Regex.features]
  | _ => cases hr

theorem Level.Orderly.push {l : Level} {r : Regex} (hl : l.Orderly) (hr : r.Orderly)
    (hprecedes : ∀ a ∈ l.items, a.Precedes r) : (l.push r).Orderly := by
  refine ⟨⟨?_, ?_⟩, hl.2⟩
  · intro a ha
    rcases List.mem_cons.mp (List.mem_reverse.mp ha) with rfl | ha
    · exact hr
    · exact hl.1.1 a (List.mem_reverse.mpr ha)
  · rw [Level.push, List.reverse_cons, List.pairwise_append]
    refine ⟨hl.1.2, List.pairwise_singleton _ _, fun a ha b hb => ?_⟩
    cases List.mem_singleton.mp hb
    exact hprecedes a (List.mem_reverse.mp ha)

section Close

variable {s : State} (hs : Scoped s)
include hs

/-- A group that is open is in none of the levels. -/
theorem Scoped.open_not_mem {l : Level} (hl : l ∈ s.levels) {n : Nat}
    (hopening : l.opening = .capture n) : ∀ m ∈ s.levels, .group n ∉ m.features := by
  intro m hm hg
  have hsome := hs.closed m hm n hg
  rw [(hs.opened l hl n hopening).2.2] at hsome
  cases hsome

/-- The groups of the innermost level, once it is closed, are in no level around it. -/
theorem Scoped.group_closed_not_mem {g : Nat}
    (hg : .group g ∈ (Reader.closed s.level s.groups).1.features) :
    ∀ m ∈ s.outer, .group g ∉ m.features := by
  intro m hm
  rcases Level.mem_features_closed hg with hg | ⟨n, hopening, he⟩
  · exact hs.nested.2.1 g hg m hm
  · cases he
    exact hs.open_not_mem List.mem_cons_self hopening m (List.mem_cons_of_mem _ hm)

/-- The innermost level is orderly once it is closed: what it refers to is closed before it. -/
theorem Scoped.orderly_closed : (Reader.closed s.level s.groups).1.Orderly := by
  have hlevel : s.level ∈ s.levels := List.mem_cons_self
  refine Level.orderly_closed (hs.orderly _ hlevel) fun n h => ⟨(hs.opened _ hlevel n h).1, ?_⟩
  intro w hw
  obtain ⟨m, hm, hg⟩ := hs.nested.1 n w hw
  exact hs.open_not_mem hlevel h m hm hg

theorem Scoped.closed?_closed (g : Nat) :
    ((Reader.closed s.level s.groups).2.closed? g).isSome = true ↔
      s.level.opening = .capture g ∨ (s.groups.closed? g).isSome = true := by
  refine Level.closed?_closed (fun n h => ?_) g
  obtain ⟨hpos, hle, -⟩ := hs.opened _ List.mem_cons_self n h
  exact ⟨hpos, hle⟩

variable {around : Level} {outer : List Level} (houter : s.outer = around :: outer)
include houter

/-- Once the innermost level is closed and added to the one around it, no group is lost. -/
theorem Scoped.exists_level_of_close {g : Nat} (h : ∃ m ∈ s.levels, .group g ∈ m.features) :
    ∃ m ∈ around.push (Reader.closed s.level s.groups).1 :: outer, .group g ∈ m.features := by
  obtain ⟨m, hm, hg⟩ := h
  rw [State.levels, houter] at hm
  rcases List.mem_cons.mp hm with rfl | hm
  · have hclosed := Level.mem_features_of_closed (g := s.groups) (hs.branches _ List.mem_cons_self) hg
    exact ⟨_, List.mem_cons_self, Level.mem_features_push.mpr (Or.inl hclosed)⟩
  · rcases List.mem_cons.mp hm with rfl | hm
    · exact ⟨_, List.mem_cons_self, Level.mem_features_push.mpr (Or.inr hg)⟩
    · exact ⟨m, List.mem_cons_of_mem _ hm, hg⟩

/-- Closing a level and adding it to the level around it. -/
theorem Scoped.close (i : Input) :
    Scoped { s with
      input := i
      groups := (Reader.closed s.level s.groups).2
      level := around.push (Reader.closed s.level s.groups).1
      outer } := by
  have hown := fun g => hs.group_closed_not_mem (g := g)
  have hlift := fun g => hs.exists_level_of_close houter (g := g)
  have hmem : ∀ m ∈ around :: outer, m ∈ s.levels := by
    intro m hm
    rw [State.levels, houter]
    exact List.mem_cons_of_mem _ hm
  obtain ⟨href, -, hopen, houters⟩ := hs.nested
  rw [houter] at hown hopen houters
  obtain ⟨haround, hapart, hnested⟩ := houters
  constructor
  case orderly =>
    obtain ⟨ha, ho⟩ := List.forall_mem_cons.mp fun m hm => hs.orderly m (hmem m hm)
    refine List.forall_mem_cons.mpr ⟨ha.push hs.orderly_closed ?_, ho⟩
    intro a hitem g w hr hg
    obtain ⟨m, hm, hgm⟩ := haround g w (Level.mem_features.mpr (Or.inl ⟨a, hitem, hr⟩))
    exact hown g hg m hm hgm
  case nested =>
    refine ⟨?_, ?_, hnested⟩
    · intro g w h
      rcases Level.mem_features_push.mp h with h | h
      · exact hlift g (href g w (Level.ref_mem_of_closed h))
      · obtain ⟨m, hm, hg⟩ := haround g w h
        exact hlift g ⟨m, hmem m hm, hg⟩
    · intro g h m hm
      rcases Level.mem_features_push.mp h with h | h
      · exact hown g h m (List.mem_cons_of_mem _ hm)
      · exact hapart g h m hm
  case closed =>
    have hold : ∀ m ∈ s.levels, ∀ g, .group g ∈ m.features →
        ((Reader.closed s.level s.groups).2.closed? g).isSome = true :=
      fun m hm g hg => (hs.closed?_closed g).mpr (Or.inr (hs.closed m hm g hg))
    refine List.forall_mem_cons.mpr ⟨?_, fun l hl => hold l (hmem l (List.mem_cons_of_mem _ hl))⟩
    intro g h
    rcases Level.mem_features_push.mp h with h | h
    · rcases Level.mem_features_closed h with h | ⟨n, hopening, he⟩
      · exact hold _ List.mem_cons_self g h
      · cases he
        exact (hs.closed?_closed g).mpr (Or.inl hopening)
    · exact hold around (hmem around List.mem_cons_self) g h
  case found =>
    intro g h
    rcases (hs.closed?_closed g).mp h with hopening | h
    · exact ⟨_, List.mem_cons_self,
        Level.mem_features_push.mpr (Or.inl (Level.group_mem_closed hopening))⟩
    · exact hlift g (hs.found g h)
  case opened =>
    -- closing a group closes no other one
    have hstill : ∀ m ∈ around :: outer, ∀ n, m.opening = .capture n →
        1 ≤ n ∧ n ≤ (Reader.closed s.level s.groups).2.widths.length ∧
          (Reader.closed s.level s.groups).2.closed? n = none := by
      intro m hm n hopening
      obtain ⟨hpos, hle, hnone⟩ := hs.opened m (hmem m hm) n hopening
      refine ⟨hpos, by rwa [Level.length_widths_closed], ?_⟩
      rw [← Option.not_isSome_iff_eq_none, hs.closed?_closed, hnone]
      rintro (h | h)
      · exact hopen n h m hm hopening
      · cases h
    exact List.forall_mem_cons.mpr (List.forall_mem_cons.mp hstill)
  case branches =>
    exact List.forall_mem_cons.mpr (List.forall_mem_cons.mp fun m hm => hs.branches m (hmem m hm))

end Close

/-- Every move keeps the groups in order. -/
theorem Move.scoped {s s' : State} (h : Move s s') (hs : Scoped s) : Scoped s' := by
  have hlevel : s.level.Orderly := hs.orderly _ List.mem_cons_self
  have hbranches := hs.branches _ List.mem_cons_self
  cases h with
  | push r i hplain hclosed hend hout =>
    obtain ⟨hnone, hbackref⟩ := features_of_isPlain hplain
    refine hs.inside rfl rfl rfl (hlevel.push ?_ fun _ _ g _ _ => hnone g) ?_ ?_ hbranches
    · cases r with
      | backref g w => exact Groups.one_le_of_closed (by rw [hclosed g w rfl]; rfl)
      | code | any | oneOf | anchor => trivial
      | _ => cases hplain
    · intro g
      rw [State.push, Level.mem_features_push]
      exact or_iff_right (hnone g)
    · intro g w h
      rcases Level.mem_features_push.mp h with h | h
      · exact Or.inr (by rw [hclosed g w (hbackref g w h)]; rfl)
      · exact Or.inl h
  | skip i hout =>
    exact hs.inside rfl rfl rfl hlevel (fun _ => Iff.rfl) (fun _ _ => Or.inl) hbranches
  | again g count r rest i hitems hout =>
    have hfeatures : ∀ x, (∀ body, x ≠ .possessive body) → (x ∈ Level.features { s.level with
        items := .iterate g count.least count.most r.bare :: rest } ↔ x ∈ s.level.features) := by
      intro x hx
      rw [Level.mem_features, Level.mem_features, hitems]
      simp [Regex.mem_features_iterate, Regex.features_bare, hx]
    refine hs.inside rfl rfl rfl ?_ (fun n => hfeatures (.group n) nofun)
      (fun n w h => Or.inl ((hfeatures (.ref n w) nofun).mp h)) hbranches
    obtain ⟨⟨hall, hpairs⟩, hdone⟩ := hlevel
    rw [hitems, List.reverse_cons] at hall hpairs
    obtain ⟨hpairs, -, hbefore⟩ := List.pairwise_append.mp hpairs
    have hrest : Level.Orderly { s.level with items := rest } :=
      ⟨⟨fun a ha => hall a (List.mem_append_left _ ha), hpairs⟩, hdone⟩
    have hr : r.Orderly := hall r (List.mem_append_right _ (List.mem_singleton.mpr rfl))
    refine hrest.push (Regex.orderly_bare.mpr hr) fun a ha n w href hgroup => ?_
    have hgroup : .group n ∈ r.features := by
      simpa [Regex.mem_features_iterate, Regex.features_bare] using hgroup
    exact hbefore a (List.mem_reverse.mpr ha) r (List.mem_singleton.mpr rfl) n w href hgroup
  | flags f i hout =>
    exact hs.inside rfl rfl rfl hlevel (fun _ => Iff.rfl) (fun _ _ => Or.inl) hbranches
  | bar verbose i hbranch hout =>
    refine hs.inside rfl rfl rfl ⟨⟨nofun, .nil⟩, ?_⟩ (fun _ => Level.mem_features_split)
      (fun _ _ h => Or.inl (Level.mem_features_split.mp h)) ?_
    · exact List.forall_mem_cons.mpr ⟨hlevel.current, hlevel.2⟩
    · intro n hn
      rw [Level.split, hbranch n hn]
      exact Nat.le_refl 1
  | enter opening start verbose groups i hopens hout => exact hs.enter hopens start verbose i
  | close around outer i houter hout => exact hs.close houter i

theorem scoped_start (input : Input) : Scoped (.start input) := by
  have hempty : ∀ x, x ∉ (State.start input).level.features := by
    simp [State.start, Level.features]
  have hlevels : (State.start input).levels = [(State.start input).level] := rfl
  constructor
  all_goals simp only [hlevels, List.mem_singleton, forall_eq]
  case orderly => refine ⟨⟨?_, ?_⟩, ?_⟩ <;> simp [State.start]
  case nested =>
    refine ⟨fun _ _ h => absurd h (hempty _), fun _ h => absurd h (hempty _), fun _ _ m hm => ?_,
      trivial⟩
    cases hm
  case closed => exact fun _ h => absurd h (hempty _)
  case found =>
    rintro (_ | g) h <;> cases h
  case opened => simp [State.start]
  case branches => simp [State.start]

/-- **What is read is orderly.** -/
theorem parse_orderly (source : List Char) : Gives (fun p => p.regex.Orderly) (parse source) := by
  refine (parse_induction (P := Scoped) (Q := fun _ => True) (fun s s' h _ => h.scoped) ?_
    fun _ _ => trivial).mono ?_
  · exact fun input _ => scoped_start input
  · rintro p ⟨s, hs, -, hp⟩
    rw [hp]
    exact (hs.orderly _ List.mem_cons_self).body

end AttributeLint.Pattern
