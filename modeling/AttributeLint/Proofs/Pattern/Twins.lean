import AttributeLint.Proofs.Pattern.Peers
import Mathlib.Data.List.Forall2

/-!
# Rows of items that are put together alike

Once an end is spelled in another way, a choice may have another common beginning: alternatives that
begin with different ends begin alike if all ends are of one kind.  `Twins` holds of two rows that are
read from such spellings.  They go along item by item up to the first end, and from there on they are
peers as a whole.

* `width_factor`, `peers_of_late`: where all alternatives begin with an end, the common beginning makes
  no difference.
* `Twins.append`, `Twins.factored`: **rows and choices of twins are twins.**
* `Alike`, `AlikeItem`: expressions whose rows are twins, with `alike_sequence`, `alike_choices` and one
  lemma for each kind of item.
-/

namespace AttributeLint.Pattern

/-! ## Widths that are cut -/

namespace Width

theorem add_comm (v w : Width) : v.add w = w.add v := by
  rw [add, add, Nat.add_comm v.least, Nat.add_comm v.most]

theorem add_assoc (u v w : Width) : (u.add v).add w = u.add (v.add w) := by
  simp only [add, capped, mk.injEq, cap]
  omega

theorem add_add_zero (v w : Width) : (v.add w).add ⟨0, 0⟩ = v.add w := by
  simp only [add, capped, mk.injEq, cap]
  omega

theorem either_add (v w u : Width) : (v.either w).add u = (v.add u).either (w.add u) := by
  simp only [add, either, capped, mk.injEq, cap]
  omega

theorem add_either (u v w : Width) : u.add (v.either w) = (u.add v).either (u.add w) := by
  rw [add_comm, either_add, add_comm v, add_comm w]

end Width

namespace Regex

theorem width_cats_cons (r : Regex) (rest : List Regex) :
    (cats (r :: rest)).width.add ⟨0, 0⟩ = r.width.add (cats rest).width := by
  cases rest with
  | nil => rfl
  | cons s rest => rw [cats_cons (List.cons_ne_nil _ _), width, Width.add_add_zero]

theorem width_cats_append (l m : List Regex) :
    (cats (l ++ m)).width.add ⟨0, 0⟩ = (cats l).width.add (cats m).width := by
  induction l with
  | nil => exact Width.add_comm _ _
  | cons r rest ih =>
    calc (cats (r :: rest ++ m)).width.add ⟨0, 0⟩
      _ = r.width.add (cats (rest ++ m)).width := width_cats_cons r (rest ++ m)
      _ = r.width.add ((cats rest).width.add (cats m).width) := by
          rw [← ih, ← Width.add_assoc, Width.add_add_zero]
      _ = ((cats (r :: rest)).width.add ⟨0, 0⟩).add (cats m).width := by
          rw [width_cats_cons, Width.add_assoc]
      _ = (cats (r :: rest)).width.add (cats m).width := by
          rw [Width.add_assoc, Width.add_comm ⟨0, 0⟩, ← Width.add_assoc, Width.add_add_zero]

theorem width_alts_cons (row : List Regex) {rest : List (List Regex)} (h : rest ≠ []) :
    (alts (row :: rest)).width = (cats row).width.either (alts rest).width := by
  match rest, h with
  | _ :: _, _ => rfl

theorem width_members {row : List Regex} {items : List ClassItem} (h : members? row = some items) :
    (cats row).width = ⟨1, 1⟩ := by
  unfold members? at h
  split at h
  · rfl
  · rfl
  · cases h

theorem width_alts_members {rows : List (List Regex)} (hne : rows ≠ [])
    (h : ∀ row ∈ rows, ∃ items, members? row = some items) : (alts rows).width = ⟨1, 1⟩ := by
  induction rows with
  | nil => exact absurd rfl hne
  | cons row rest ih =>
    obtain ⟨⟨items, hrow⟩, hrest⟩ := List.forall_mem_cons.mp h
    by_cases hnil : rest = []
    · subst hnil
      exact width_members hrow
    · rw [width_alts_cons row hnil, width_members hrow, ih hnil hrest]
      rfl

theorem width_alts_behind (p : Regex) {rests : List (List Regex)} (hne : rests ≠ []) :
    (alts (rests.map (p :: ·))).width.add ⟨0, 0⟩ = p.width.add (alts rests).width := by
  induction rests with
  | nil => exact absurd rfl hne
  | cons row rest ih =>
    by_cases hnil : rest = []
    · subst hnil
      exact width_cats_cons p row
    · rw [List.map_cons, width_alts_cons _ (by simpa using hnil), width_alts_cons row hnil,
        Width.either_add, width_cats_cons, ih hnil, Width.add_either]

/-- A choice is as wide as its alternatives one after another, once both are cut. -/
theorem width_factor {rows : List (List Regex)} (hne : rows ≠ []) :
    (factor rows).width.add ⟨0, 0⟩ = (alts rows).width.add ⟨0, 0⟩ := by
  refine factor_induction (motive := fun rows =>
    (factor rows).width.add ⟨0, 0⟩ = (alts rows).width.add ⟨0, 0⟩) ?split ?shared hne
  case split =>
    intro rows hne hnot
    rw [factor_of_not_shared hne hnot, branch]
    split
    · next members hmembers => rw [width_alts_members hne (members?_of_mapM hmembers), width]
    · rfl
  case shared =>
    intro p rests hp hrests ih
    rw [factor_shared hp hrests, width, Width.add_assoc, ih, width_alts_behind p hrests,
      ← Width.add_assoc, Width.add_add_zero]

/-! ## Expressions that begin with an end -/

variable {r r' : Regex}

theorem width_of_late (h : r.late = true) : r.width.add ⟨0, 0⟩ = r.width := by
  induction r with
  | never | anchor => rfl
  | cat r s => exact Width.add_add_zero _ _
  | alt r s ihr ihs =>
    obtain ⟨hr, hs⟩ := Bool.and_eq_true_iff.mp h
    rw [width_alt]
    split
    · exact ihr hr
    · rw [Width.either_add, ihr hr, ihs hs]
  | _ => cases h

theorem lead_of_late (h : r.late = true) (f : Flags) (after : Lead) : r.lead f after = .other := by
  induction r generalizing after with
  | cat r s ihr ihs => exact ihr h _
  | never | anchor | alt => rfl
  | _ => cases h

theorem literalStart_of_late (h : r.late = true) (f : Flags) : r.literalStart f = ([], false) := by
  induction r with
  | cat r s ihr ihs => rw [literalStart, ihr h]
  | never | anchor | alt => rfl
  | _ => cases h

theorem firstItem?_of_late (h : r.late = true) (n : Nat) : r.firstItem? ≠ some (code false n) := by
  induction r with
  | cat r s ihr ihs => exact ihr h
  | never | anchor | alt => nofun
  | _ => cases h

theorem firstCodes?_of_late (h : r.late = true) (hne : r ≠ never) (f : Flags) :
    r.firstCodes? f = none := by
  cases r with
  | alt r s =>
    rw [firstCodes?]
    split
    · next n hn => exact absurd hn (firstItem?_of_late (Bool.and_eq_true_iff.mp h).1 n)
    · rfl
  | never => exact absurd rfl hne
  | cat | anchor => rfl
  | _ => cases h

theorem classStart?_of_late (h : r.late = true) (f : Flags) : r.classStart? f = none := by
  induction r with
  | cat r s ihr ihs => exact ihr h
  | alt r s => rw [classStart?, firstCodes?_of_late h (by rintro ⟨⟩), Option.map_none]
  | never | anchor => rfl
  | _ => cases h

theorem single?_of_late (h : r.late = true) (f : Flags) : r.single? f = none := by
  cases r with
  | never | anchor | cat | alt => rfl
  | _ => cases h

theorem ne_empty_of_late (h : r.late = true) : r ≠ empty := by
  rintro rfl
  cases h

theorem veiled_of_late (h : r.late = true) (hne : r ≠ never) : r.Veiled :=
  ⟨lead_of_late h, literalStart_of_late h, classStart?_of_late h, firstCodes?_of_late h hne,
    firstItem?_of_late h, single?_of_late h, ne_empty_of_late h⟩

/-- Expressions that begin with an end begin alike as far as a search looks. -/
theorem peers_of_late (hr : r.late = true) (hr' : r'.late = true) (hne : r ≠ never)
    (hne' : r' ≠ never) (hwidth : r.width.add ⟨0, 0⟩ = r'.width.add ⟨0, 0⟩)
    (hagree : r.Sound → r'.Sound → ∀ e,
      Matcher.Agree false (Framed e r) (Framed e r') (r.run e) (r'.run e)) : Peers r r' := by
  rw [width_of_late hr, width_of_late hr'] at hwidth
  exact peers_of_veiled (veiled_of_late hr hne) (veiled_of_late hr' hne') hwidth hagree

/-! ## Twins -/

/-- What a row consists of: expressions that are not taken apart any further. -/
structure IsItem (r : Regex) : Prop where
  items : r.items = [r]
  bare : r.bare = r
  ne_never : r ≠ never

/-- Rows of items that go along up to the first end, and are peers from there on. -/
inductive Twins : List Regex → List Regex → Prop
  | nil : Twins [] []
  | item {r r' : Regex} {l l' : List Regex} (hr : r.IsItem) (hr' : r'.IsItem)
    (hplain : r = r' ∨ r.isPlain = false ∧ r'.isPlain = false) (hlate : r.late = false)
    (hlate' : r'.late = false) (hpeers : Peers r r') (rest : Twins l l') : Twins (r :: l) (r' :: l')
  | late {l l' : List Regex} (hl : ∀ i ∈ l, i.IsItem) (hl' : ∀ i ∈ l', i.IsItem)
    (hlate : (cats l).late = true) (hlate' : (cats l').late = true)
    (hpeers : Peers (cats l) (cats l')) : Twins l l'

namespace Twins

variable {l l' m m' : List Regex} {L L' : List (List Regex)}

theorem symm (h : Twins l l') : Twins l' l := by
  induction h with
  | nil => exact .nil
  | item hr hr' hplain hlate hlate' hpeers _ ih =>
    exact .item hr' hr (hplain.imp Eq.symm And.symm) hlate' hlate hpeers.symm ih
  | late hl hl' hlate hlate' hpeers => exact .late hl' hl hlate' hlate hpeers.symm

theorem isItem (h : Twins l l') : ∀ i ∈ l, i.IsItem := by
  induction h with
  | nil => exact fun _ hi => absurd hi List.not_mem_nil
  | item hr _ _ _ _ _ _ ih => exact List.forall_mem_cons.mpr ⟨hr, ih⟩
  | late hl => exact hl

theorem late_eq (h : Twins l l') : (cats l).late = (cats l').late := by
  cases h with
  | nil => rfl
  | item _ _ _ hlate hlate' => rw [late_cats_cons, late_cats_cons, hlate, hlate']
  | late _ _ hlate hlate' => rw [hlate, hlate']

theorem ne_nil_of_late (h : (cats l).late = true) : l ≠ [] := by
  rintro rfl
  cases h

theorem nil_iff (h : Twins l l') : l = [] ↔ l' = [] := by
  cases h with
  | nil => exact Iff.rfl
  | item => exact iff_of_false (List.cons_ne_nil _ _) (List.cons_ne_nil _ _)
  | late _ _ hlate hlate' => exact iff_of_false (ne_nil_of_late hlate) (ne_nil_of_late hlate')

/-- Twins are peers as a whole. -/
theorem peers (h : Twins l l') : Peers (cats l) (cats l') := by
  induction h with
  | nil => exact peers_of_eq rfl
  | @item r r' l l' hr hr' hplain hlate hlate' hpeers rest ih =>
    by_cases hnil : l = []
    · obtain rfl := hnil
      obtain rfl := rest.nil_iff.mp rfl
      exact hpeers
    · rw [cats_cons hnil, cats_cons fun h => hnil (rest.nil_iff.mpr h)]
      exact peers_cat hpeers ih
  | late _ _ _ _ hpeers => exact hpeers

theorem members?_of_not_plain {r : Regex} (hr : r.isPlain = false) (l : List Regex) :
    members? (r :: l) = none := by
  unfold members?
  split
  · next h => cases h; cases hr
  · next h => cases h; cases hr
  · rfl

theorem members?_of_late (h : (cats l).late = true) : members? l = none := by
  unfold members?
  split
  · cases h
  · cases h
  · rfl

theorem members?_eq (h : Twins l l') : members? l = members? l' := by
  cases h with
  | nil => rfl
  | @item r r' l l' hr hr' hplain hlate hlate' hpeers rest =>
    rcases hplain with rfl | ⟨hr, hr'⟩
    · by_cases hnil : l = []
      · obtain rfl := hnil
        obtain rfl := rest.nil_iff.mp rfl
        rfl
      · obtain ⟨s, l, rfl⟩ := List.exists_cons_of_ne_nil hnil
        obtain ⟨s', l', rfl⟩ := List.exists_cons_of_ne_nil fun h => hnil (rest.nil_iff.mpr h)
        simp [members?]
    · rw [members?_of_not_plain hr, members?_of_not_plain hr']
  | late _ _ hlate hlate' => rw [members?_of_late hlate, members?_of_late hlate']

/-! ### Rows behind one another -/

theorem lead_cats_append (l m : List Regex) (f : Flags) (after : Lead) :
    (cats (l ++ m)).lead f after = (cats l).lead f ((cats m).lead f after) := by
  induction l with
  | nil => rfl
  | cons r rest ih => rw [List.cons_append, lead_cats_cons, ih, lead_cats_cons]

theorem run_cats_append (l m : List Regex) (e : Setting) :
    (cats (l ++ m)).run e = (cat (cats l) (cats m)).run e := by
  induction l generalizing e with
  | nil => rfl
  | cons r rest ih =>
    rw [List.cons_append, run_cats_cons, run, lead_cats_append, ih]
    conv_rhs => rw [run, run_cats_cons, run]
    rfl

theorem features_cats_append {x : Feature} :
    x ∈ (cat (cats l) (cats m)).features ↔ x ∈ (cats (l ++ m)).features := by
  rw [features, List.mem_append, mem_features_cats, mem_features_cats, mem_features_cats]
  simp only [List.mem_append, or_and_right, exists_or]

theorem orderly_cats_append (h : (cats (l ++ m)).Orderly) : (cat (cats l) (cats m)).Orderly := by
  obtain ⟨hall, hpairs⟩ := orderly_cats.mp h
  obtain ⟨hl, hm⟩ := List.forall_mem_append.mp hall
  obtain ⟨hpl, hpm, hprecedes⟩ := List.pairwise_append.mp hpairs
  refine ⟨orderly_cats.mpr ⟨hl, hpl⟩, orderly_cats.mpr ⟨hm, hpm⟩, ?_⟩
  intro g w hg hgroup
  obtain ⟨r, hr, hg⟩ := mem_features_cats.mp hg
  obtain ⟨s, hs, hgroup⟩ := mem_features_cats.mp hgroup
  exact hprecedes r hr s hs g w hg hgroup

theorem sound_cats_append (h : (cats (l ++ m)).Sound) : (cat (cats l) (cats m)).Sound :=
  h.part (orderly_cats_append h.orderly) fun _ => features_cats_append.mp

theorem late_cats_append (h : (cats l).late = true) (m : List Regex) :
    (cats (l ++ m)).late = true := by
  obtain ⟨r, l, rfl⟩ := List.exists_cons_of_ne_nil (ne_nil_of_late h)
  rw [List.cons_append, late_cats_cons, ← late_cats_cons r l, h]

theorem cats_ne_never (h : ∀ i ∈ l, i.IsItem) : cats l ≠ never := by
  match l, h with
  | [], _ => nofun
  | [r], h => exact (h r List.mem_cons_self).ne_never
  | _ :: _ :: _, _ => nofun

/-- **Rows of twins behind twins are twins.** -/
theorem append (h : Twins l l') (hm : Twins m m') : Twins (l ++ m) (l' ++ m') := by
  induction h with
  | nil => exact hm
  | item hr hr' hplain hlate hlate' hpeers _ ih => exact .item hr hr' hplain hlate hlate' hpeers ih
  | @late l l' hl hl' hlate hlate' hpeers =>
    have hitems : ∀ i ∈ l ++ m, i.IsItem := List.forall_mem_append.mpr ⟨hl, hm.isItem⟩
    have hitems' : ∀ i ∈ l' ++ m', i.IsItem := List.forall_mem_append.mpr ⟨hl', hm.symm.isItem⟩
    -- behind an end the second rows are no longer compared item by item
    have hlate := late_cats_append hlate m
    have hlate' := late_cats_append hlate' m'
    refine .late hitems hitems' hlate hlate'
      (peers_of_late hlate hlate' (cats_ne_never hitems) (cats_ne_never hitems') ?_ ?_)
    · rw [width_cats_append, width_cats_append, hpeers.width, hm.peers.width]
    · intro hs hs' e
      rw [run_cats_append, run_cats_append]
      refine ((peers_cat hpeers hm.peers).agree (sound_cats_append hs) (sound_cats_append hs')
        e).restrict ?_ ?_
      · exact fun k hk => hk.part rfl fun _ => features_cats_append.mp
      · exact fun k hk => hk.part rfl fun _ => features_cats_append.mp

/-! ### Choices -/

theorem ne_nil_right (h : List.Forall₂ Twins L L') (hne : L ≠ []) : L' ≠ [] := by
  rintro rfl
  exact hne (List.forall₂_nil_right_iff.mp h)

theorem peers_alts (h : List.Forall₂ Twins L L') : Peers (alts L) (alts L') := by
  induction h with
  | nil => exact peers_of_eq rfl
  | @cons row row' rest rest' hrow hrest ih =>
    refine peers_alt hrow.peers ih ?_
    cases hrest with
    | nil => exact Iff.rfl
    | cons => exact ⟨nofun, nofun⟩

theorem isItem_plain {p : Regex} (hp : p.isPlain = true) : p.IsItem := by
  cases p with
  | code | any | oneOf | anchor | backref => exact ⟨rfl, rfl, nofun⟩
  | _ => cases hp

theorem isItem_alts (hne : L ≠ []) : (alts L).IsItem := by
  match L, hne with
  | _ :: _, _ => exact ⟨rfl, rfl, nofun⟩

theorem isItem_factored (hne : L ≠ []) : ∀ i ∈ factored L, i.IsItem := by
  refine factor_induction (motive := fun L => ∀ i ∈ factored L, i.IsItem) ?split ?shared hne
  case split =>
    intro rows hne hnot
    rw [factored_of_not_shared hne hnot, List.forall_mem_singleton, branch]
    split
    · exact isItem_plain rfl
    · exact isItem_alts hne
  case shared =>
    intro p rests hp hrests ih
    rw [factored_shared hp hrests]
    exact List.forall_mem_cons.mpr ⟨isItem_plain hp, ih⟩

theorem mem_features_factor_alts {x : Feature} (hne : L ≠ []) :
    x ∈ (alts L).features ↔ x ∈ (factor L).features :=
  mem_features_alts.trans (mem_features_factor hne).symm

theorem sound_alts (hne : L ≠ []) (h : (factor L).Sound) : (alts L).Sound :=
  h.part (orderly_alts.mpr ((orderly_factor hne).mp h.orderly)) fun _ =>
    (mem_features_factor_alts hne).mp

/-- Where all alternatives begin with an end, a choice agrees with its alternatives. -/
theorem agree_alts_of_late (hne : L ≠ []) (hlate : ∀ row ∈ L, (cats row).late = true)
    (h : (factor L).Sound) (e : Setting) :
    Matcher.Agree false (Framed e (factor L)) (Framed e (factor L)) ((factor L).run e)
      ((alts L).run e) :=
  (agree_factor_of_late hne hlate ((orderly_factor hne).mp h.orderly) e).restrict
    (fun _ _ => trivial) fun _ hk => hk.part rfl fun _ => (mem_features_factor_alts hne).mp

theorem late_iff (h : List.Forall₂ Twins L L') :
    (∀ row ∈ L, (cats row).late = true) ↔ ∀ row ∈ L', (cats row).late = true := by
  induction h with
  | nil => exact ⟨fun _ => nofun, fun _ => nofun⟩
  | cons hrow _ ih => rw [List.forall_mem_cons, List.forall_mem_cons, ih, hrow.late_eq]

/-- Choices whose alternatives all begin with an end are twins, whatever their common beginnings. -/
theorem factored_of_late (h : List.Forall₂ Twins L L') (hne : L ≠ [])
    (hlate : ∀ row ∈ L, (cats row).late = true) : Twins (Regex.factored L) (Regex.factored L') := by
  have hne' := ne_nil_right h hne
  have hlate' := (late_iff h).mp hlate
  have hitems := isItem_factored hne
  have hitems' := isItem_factored hne'
  refine .late hitems hitems' (late_factor hne hlate) (late_factor hne' hlate')
    (peers_of_late (late_factor hne hlate) (late_factor hne' hlate') (cats_ne_never hitems)
      (cats_ne_never hitems') ?_ ?_)
  · exact ((width_factor hne).trans (by rw [(peers_alts h).width])).trans (width_factor hne').symm
  · intro hs hs' e
    -- from the one choice to its alternatives, to the other alternatives, to the other choice
    have halts : Matcher.Agree false (Framed e (factor L)) (Framed e (factor L'))
        ((alts L).run e) ((alts L').run e) :=
      ((peers_alts h).agree (sound_alts hne hs) (sound_alts hne' hs') e).restrict
        (fun _ hk => hk.part rfl fun _ => (mem_features_factor_alts hne).mp)
        fun _ hk => hk.part rfl fun _ => (mem_features_factor_alts hne').mp
    have hleft := (halts.symm.trans (agree_alts_of_late hne hlate hs e).symm).symm
    exact hleft.trans (agree_alts_of_late hne' hlate' hs' e).symm

/-- Twins of rows that share an item before any end share it too. -/
theorem shared {p : Regex} (hp : p.isPlain = true) (hlate : p.late = false)
    {rests : List (List Regex)} (h : List.Forall₂ Twins (rests.map (p :: ·)) L') :
    ∃ rests', L' = rests'.map (p :: ·) ∧ List.Forall₂ Twins rests rests' := by
  induction rests generalizing L' with
  | nil =>
    cases h
    exact ⟨[], rfl, .nil⟩
  | cons rest others ih =>
    obtain ⟨row', others', hrow, hothers, rfl⟩ := List.forall₂_cons_left_iff.mp h
    obtain ⟨rests', rfl, hrests⟩ := ih hothers
    cases hrow with
    | @item _ r' _ l' _ _ hplain _ _ _ hrest =>
      rcases hplain with rfl | ⟨hnot, -⟩
      · exact ⟨l' :: rests', rfl, .cons hrest hrests⟩
      · exact absurd (hp.symm.trans hnot) nofun
    | late _ _ hrow => exact absurd (hlate.symm.trans ((late_cats_cons p rest).symm.trans hrow)) nofun

theorem not_shared (h : List.Forall₂ Twins L L') (hlate : ¬ ∀ row ∈ L, (cats row).late = true)
    (hnot : ∀ p, ¬ Shared p L) (p : Regex) : ¬ Shared p L' := by
  rintro ⟨hp, rests, rfl⟩
  have hplate : p.late = false := by
    rw [Bool.eq_false_iff]
    intro hplate
    refine hlate ((late_iff h).mpr (List.forall_mem_map.mpr fun rest _ => ?_))
    rw [late_cats_cons, hplate]
  have hsymm : List.Forall₂ Twins (rests.map (p :: ·)) L :=
    List.Forall₂.flip (h.imp fun _ _ hrow => hrow.symm)
  obtain ⟨rests', hrests, -⟩ := shared hp hplate hsymm
  exact hnot p ⟨hp, rests', hrests⟩

theorem mapM_members?_eq (h : List.Forall₂ Twins L L') : L.mapM members? = L'.mapM members? := by
  induction h with
  | nil => rfl
  | cons hrow _ ih => rw [List.mapM_cons, List.mapM_cons, hrow.members?_eq, ih]

theorem branch_item (h : List.Forall₂ Twins L L') (hne : L ≠ [])
    (hlate : ¬ ∀ row ∈ L, (cats row).late = true) : Twins [branch L] [branch L'] := by
  rw [branch, branch, ← mapM_members?_eq h]
  split
  · exact .item (isItem_plain rfl) (isItem_plain rfl) (Or.inl rfl) rfl rfl (peers_of_eq rfl) .nil
  · have hne' := ne_nil_right h hne
    have hplain : ∀ {rows : List (List Regex)}, (alts rows).isPlain = false := by
      rintro (_ | ⟨row, rest⟩) <;> rfl
    refine .item (isItem_alts hne) (isItem_alts hne') (Or.inr ⟨hplain, hplain⟩) ?_ ?_ (peers_alts h) .nil
    · rwa [Bool.eq_false_iff, Ne, late_alts]
    · rwa [Bool.eq_false_iff, Ne, late_alts, ← late_iff h]

/-- **Choices between twins are twins.**  A common beginning before any end is common to both; from the
first end on it makes no difference. -/
theorem factored (h : List.Forall₂ Twins L L') (hne : L ≠ []) :
    Twins (Regex.factored L) (Regex.factored L') := by
  revert L'
  refine factor_induction (motive := fun L => ∀ {L'}, List.Forall₂ Twins L L' →
    Twins (Regex.factored L) (Regex.factored L')) ?split ?shared hne
  case split =>
    intro L hne hnot L' h
    by_cases hlate : ∀ row ∈ L, (cats row).late = true
    · exact factored_of_late h hne hlate
    · have hne' := ne_nil_right h hne
      rw [factored_of_not_shared hne hnot, factored_of_not_shared hne' (not_shared h hlate hnot)]
      exact branch_item h hne hlate
  case shared =>
    intro p rests hp hrests ih L' h
    have hne : rests.map (p :: ·) ≠ [] := by simpa using hrests
    cases hlate : p.late with
    | true =>
      refine factored_of_late h hne (List.forall_mem_map.mpr fun rest _ => ?_)
      rw [late_cats_cons, hlate]
    | false =>
      obtain ⟨rests', rfl, hrest⟩ := shared hp hlate h
      rw [factored_shared hp hrests, factored_shared hp (ne_nil_right hrest hrests)]
      exact .item (isItem_plain hp) (isItem_plain hp) (Or.inl rfl) hlate hlate (peers_of_eq rfl)
        (ih hrest)

end Twins

/-! ## Expressions that are put together alike -/

/-- Expressions whose rows of items are twins, and that differ in the kind of ends only unless one of
them is mixed. -/
structure Alike (r r' : Regex) : Prop where
  twins : ∃ l l', r = cats l ∧ r' = cats l' ∧ Twins l l'
  even : Even r r'

/-- Expressions that are alike once the parentheses of groups that do nothing are taken off. -/
structure AlikeItem (r r' : Regex) : Prop where
  twins : ∃ l l', r.bare = cats l ∧ r'.bare = cats l' ∧ Twins l l'
  even : Even r r'

theorem Alike.peers (h : Alike r r') : Peers r r' := by
  obtain ⟨l, l', rfl, rfl, htwins⟩ := h.twins
  exact htwins.peers

theorem AlikeItem.peers (h : AlikeItem r r') : Peers r.bare r'.bare := by
  obtain ⟨l, l', hl, hl', htwins⟩ := h.twins
  rw [hl, hl']
  exact htwins.peers

theorem items_cats {l : List Regex} (h : ∀ i ∈ l, i.IsItem) : (cats l).items = l := by
  induction l with
  | nil => rfl
  | cons r rest ih =>
    obtain ⟨hr, hrest⟩ := List.forall_mem_cons.mp h
    by_cases hnil : rest = []
    · subst hnil
      exact hr.items
    · rw [cats_cons hnil, items, hr.items, ih hrest]
      rfl

theorem alike_empty : Alike empty empty :=
  ⟨⟨[], [], rfl, rfl, .nil⟩, fun _ _ => rfl⟩

/-- Rows of items are put together to one row. -/
theorem alike_sequence {rs rs' : List Regex} (h : List.Forall₂ AlikeItem rs rs') :
    Alike (sequence rs) (sequence rs') := by
  refine ⟨⟨_, _, rfl, rfl, ?_⟩, even_sequence (h.imp fun _ _ hr => hr.even)⟩
  induction h with
  | nil => exact .nil
  | cons hr _ ih =>
    obtain ⟨l, l', hl, hl', htwins⟩ := hr.twins
    rw [List.flatMap_cons, List.flatMap_cons, hl, hl', items_cats htwins.isItem,
      items_cats htwins.symm.isItem]
    exact htwins.append ih

theorem forall₂_items {rs rs' : List Regex} (h : List.Forall₂ Alike rs rs') :
    List.Forall₂ Twins (rs.map items) (rs'.map items) := by
  rw [List.forall₂_map_left_iff, List.forall₂_map_right_iff]
  refine h.imp fun r r' hr => ?_
  obtain ⟨l, l', rfl, rfl, htwins⟩ := hr.twins
  rw [items_cats htwins.isItem, items_cats htwins.symm.isItem]
  exact htwins

theorem alike_choices {rs rs' : List Regex} (h : List.Forall₂ Alike rs rs') :
    Alike (choices rs) (choices rs') := by
  refine ⟨?_, even_choices (h.imp fun _ _ hr => hr.even)⟩
  cases h with
  | nil => exact ⟨[], [], rfl, rfl, .nil⟩
  | cons hr hrest =>
    cases hrest with
    | nil => exact hr.twins
    | cons hs hrest =>
      refine ⟨_, _, rfl, rfl, Twins.factored (forall₂_items (.cons hr (.cons hs hrest))) ?_⟩
      exact List.cons_ne_nil _ _

/-! ### Items -/

theorem alikeItem_plain {p : Regex} (hp : p.isPlain = true) : AlikeItem p p := by
  have hitem := Twins.isItem_plain hp
  refine ⟨⟨[p], [p], hitem.bare, hitem.bare, ?_⟩, fun _ _ => rfl⟩
  cases hlate : p.late with
  | true =>
    exact .late (List.forall_mem_singleton.mpr hitem) (List.forall_mem_singleton.mpr hitem) hlate hlate
      (peers_of_eq rfl)
  | false => exact .item hitem hitem (Or.inl rfl) hlate hlate (peers_of_eq rfl) .nil

/-- The end of a line and the end of the text are alike. -/
theorem alikeItem_ends : AlikeItem (anchor .lineEnd) (anchor .textEnd) := by
  have hitem : ∀ a, ∀ i ∈ [anchor a], i.IsItem :=
    fun a => List.forall_mem_singleton.mpr (Twins.isItem_plain rfl)
  refine ⟨⟨[_], [_], rfl, rfl, .late (hitem _) (hitem _) rfl rfl ?_⟩, fun _ _ => rfl⟩
  refine peers_of_late rfl rfl nofun nofun rfl fun _ _ e => ?_
  have hstrict : (anchor .lineEnd).strict = (anchor .textEnd).strict := rfl
  exact (agree_of_strict_eq hstrict false e).of_any

/-- An item that is no group with flags and has expressions inside it. -/
def isNested : Regex → Bool
  | capture _ _ => true
  | iterate _ _ _ _ => true
  | atomic _ => true
  | look _ _ _ => true
  | whether _ _ _ => true
  | _ => false

theorem isItem_of_isNested (h : r.isNested = true) :
    r.IsItem ∧ r.isPlain = false ∧ r.late = false := by
  cases r with
  | capture | iterate | atomic | look | whether => exact ⟨⟨rfl, rfl, nofun⟩, rfl, rfl⟩
  | _ => cases h

/-- Items with expressions inside them are twins if they are peers. -/
theorem Twins.of_nested (hr : r.isNested = true) (hr' : r'.isNested = true) (h : Peers r r') :
    ∃ l l', r.bare = cats l ∧ r'.bare = cats l' ∧ Twins l l' := by
  obtain ⟨hitem, hplain, hlate⟩ := isItem_of_isNested hr
  obtain ⟨hitem', hplain', hlate'⟩ := isItem_of_isNested hr'
  exact ⟨[r], [r'], hitem.bare, hitem'.bare,
    .item hitem hitem' (Or.inr ⟨hplain, hplain'⟩) hlate hlate' h .nil⟩

theorem alikeItem_capture (h : Alike r r') (group : Nat) :
    AlikeItem (capture group r) (capture group r') := by
  refine ⟨Twins.of_nested rfl rfl (peers_capture h.peers group), fun hm hm' => ?_⟩
  rw [strict, strict, h.even.within hm hm' (fun _ => List.mem_cons_of_mem _)
    fun _ => List.mem_cons_of_mem _]

theorem alikeItem_flagged (h : Alike r r') (on off : Flags) :
    AlikeItem (flagged on off r) (flagged on off r') := by
  refine ⟨?_, fun hm hm' => by rw [strict, strict, h.even hm hm']⟩
  by_cases hnone : (on = {} && off = {}) = true
  · rw [bare, bare, if_pos hnone, if_pos hnone]
    exact h.twins
  · have hitem : ∀ s, (flagged on off s).IsItem := fun s => ⟨rfl, if_neg hnone, by rintro ⟨⟩⟩
    exact ⟨[_], [_], (hitem r).bare, (hitem r').bare,
      .item (hitem r) (hitem r') (Or.inr ⟨rfl, rfl⟩) rfl rfl (peers_flagged h.peers on off) .nil⟩

theorem alikeItem_atomic (h : Alike r r') : AlikeItem (atomic r) (atomic r') :=
  ⟨Twins.of_nested rfl rfl (peers_atomic h.peers),
    fun hm hm' => by rw [strict, strict, h.even hm hm']⟩

theorem alikeItem_look (h : Alike r r') (direction : Direction) (negated : Bool) :
    AlikeItem (look direction negated r) (look direction negated r') :=
  ⟨Twins.of_nested rfl rfl (peers_look h.peers direction negated),
    fun hm hm' => by rw [strict, strict, h.even hm hm']⟩

theorem alikeItem_whether {s s' : Regex} (hr : Alike r r') (hs : Alike s s') (group : Nat) :
    AlikeItem (whether group r s) (whether group r' s') := by
  refine ⟨Twins.of_nested rfl rfl (peers_whether hr.peers hs.peers group), fun hm hm' => ?_⟩
  rw [strict, strict]
  rw [hr.even.within hm hm' (fun _ => List.mem_append_left _) fun _ => List.mem_append_left _]
  rw [hs.even.within hm hm' (fun _ => List.mem_append_right _) fun _ => List.mem_append_right _]

theorem alikeItem_iterate (h : AlikeItem r r') (greed : Greed) (least : Nat) (most : Option Nat) :
    AlikeItem (iterate greed least most r.bare) (iterate greed least most r'.bare) := by
  have heven := even_bare h.even
  refine ⟨Twins.of_nested rfl rfl (peers_iterate h.peers heven greed least most), fun hm hm' => ?_⟩
  rw [strict, strict, heven.within hm hm' (fun _ hx => mem_features_iterate.mpr (Or.inr hx))
    fun _ hx => mem_features_iterate.mpr (Or.inr hx)]

end Regex

end AttributeLint.Pattern
