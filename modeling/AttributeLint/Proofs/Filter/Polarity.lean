import AttributeLint.Proofs.Filter.Rearranged
import AttributeLint.Proofs.Filter.SurfaceForms

/-!
# What a change of options does

A change of options can only take findings away, or only add some, and which of the two follows from the
place where it is made.

* `Context`: what stands around a place in a written expression.  `Context.nots` counts the `not`s
  among it.
* `selects_fill`: **each `not` turns the direction around.**  Where more is matched at a place, the whole
  matches more if the number of `not`s is even, and less if it is odd.
* `Widens`, `widens_of_oneMore`: one more text in a leaf or one more item of an `or` matches more.
* `OnlyRemoves`: the findings in any tree are some of those from before the change, in the same order.
* `onlyRemoves_of_polarity`: the changes of an expression in `only` or `ignore`, and those that put one
  more expression there.  The first expression in `only` takes away what all the others add.
-/

namespace AttributeLint.Filter

/-! ## Places in expressions -/

/-- What stands around a place in a written expression. -/
inductive Context where
  | here
  | inAnd (before : List Data) (p : Context) (after : List Data)
  | inOr (before : List Data) (p : Context) (after : List Data)
  | inNot (p : Context)

namespace Context

/-- The whole expression, with one written at the place. -/
def fill : Context → Data → Data
  | here, e => e
  | inAnd before p after, e => .object [("and", .list (before ++ p.fill e :: after))]
  | inOr before p after, e => .object [("or", .list (before ++ p.fill e :: after))]
  | inNot p, e => .object [("not", p.fill e)]

/-- The number of `not`s around the place. -/
def nots : Context → Nat
  | here => 0
  | inAnd _ p _ => p.nots
  | inOr _ p _ => p.nots
  | inNot p => p.nots + 1

end Context

theorem not_isLeaf_of_combinator {key : String} (hkey : key ∈ combinators) (raw : Data) :
    ¬ IsLeaf [(key, raw)] := by
  intro hl
  have hk := hl.keys key List.mem_cons_self
  simp only [combinators, List.mem_cons, List.not_mem_nil, or_false] at hkey
  rcases hkey with rfl | rfl | rfl <;> exact absurd hk (by decide)

/-- The items of an `and` or an `or` are expressions. -/
theorem isExpression_of_mem_items {key : String} (hkey : key = "and" ∨ key = "or")
    {items : List Data} (h : IsExpression (.object [(key, .list items)])) :
    ∀ e ∈ items, IsExpression e := by
  rcases isExpression_single.mp h with ⟨-, hi⟩ | ⟨rfl, -⟩ | hl
  · exact isExpressions_list.mp hi
  · exact absurd hkey (by decide)
  · have hmem : key ∈ combinators := by rcases hkey with rfl | rfl <;> decide
    exact absurd hl (not_isLeaf_of_combinator hmem _)

theorem isExpression_of_fill {p : Context} {e : Data} (h : IsExpression (p.fill e)) :
    IsExpression e := by
  induction p with
  | here => exact h
  | inAnd before p after ih => exact ih (isExpression_of_mem_items (Or.inl rfl) h _ (by simp))
  | inOr before p after ih => exact ih (isExpression_of_mem_items (Or.inr rfl) h _ (by simp))
  | inNot p ih =>
    rcases isExpression_single.mp h with ⟨hk, -⟩ | ⟨-, hn⟩ | hl
    · exact absurd hk (by decide)
    · exact ih hn
    · exact absurd hl (not_isLeaf_of_combinator (by decide) _)

section Around

variable {d : Descriptor} {e e' : Data}

theorem all_around (h : selects d e = true → selects d e' = true) (before after : List Data) :
    (before ++ e :: after).all (selects d) = true →
      (before ++ e' :: after).all (selects d) = true := by
  simp only [List.all_append, List.all_cons, Bool.and_eq_true]
  rintro ⟨hb, he, ha⟩
  exact ⟨hb, h he, ha⟩

theorem any_around (h : selects d e = true → selects d e' = true) (before after : List Data) :
    (before ++ e :: after).any (selects d) = true →
      (before ++ e' :: after).any (selects d) = true := by
  simp only [List.any_append, List.any_cons, Bool.or_eq_true]
  rintro (hb | he | ha)
  · exact Or.inl hb
  · exact Or.inr (Or.inl (h he))
  · exact Or.inr (Or.inr ha)

theorem selects_not_of_imp (h : selects d e = true → selects d e' = true) :
    selects d (.object [("not", e')]) = true → selects d (.object [("not", e)]) = true := by
  rw [selects_not, selects_not, Bool.not_eq_true', Bool.not_eq_true']
  intro hn
  rw [← Bool.not_eq_true] at hn ⊢
  exact fun he => hn (h he)

/-- **Each `not` turns the direction around.** -/
theorem selects_fill (h : selects d e = true → selects d e' = true) (p : Context) :
    (Even p.nots → selects d (p.fill e) = true → selects d (p.fill e') = true) ∧
      (Odd p.nots → selects d (p.fill e') = true → selects d (p.fill e) = true) := by
  induction p with
  | here => exact ⟨fun _ => h, fun hodd => absurd hodd (by decide)⟩
  | inAnd before p after ih =>
    simp only [Context.fill, Context.nots, selects_and]
    exact ⟨fun heven => all_around (ih.1 heven) before after,
      fun hodd => all_around (ih.2 hodd) before after⟩
  | inOr before p after ih =>
    simp only [Context.fill, Context.nots, selects_or]
    exact ⟨fun heven => any_around (ih.1 heven) before after,
      fun hodd => any_around (ih.2 hodd) before after⟩
  | inNot p ih =>
    simp only [Context.fill, Context.nots, Nat.even_add_one, Nat.odd_add_one]
    exact ⟨fun hodd => selects_not_of_imp (ih.2 (Nat.not_even_iff_odd.mp hodd)),
      fun heven => selects_not_of_imp (ih.1 (Nat.not_odd_iff_even.mp heven))⟩

end Around

/-! ## Expressions that match more -/

/-- Every attribute that one expression matches is matched by the other. -/
def Widens (e e' : Data) : Prop :=
  ∀ x x', Expression.read e = .ok x → Expression.read e' = .ok x' →
    ∀ d, x.holds d = true → x'.holds d = true

/-- One more name or pattern in a leaf, or one more item of an `or`. -/
inductive OneMore : Data → Data → Prop
  | text {fields : Fields} (hl : IsLeaf fields) {key : String} (hk : key ∈ leafKeys)
      (before after : List String) (h : textsUnder fields key = before ++ after) (text : String) :
      OneMore (.object fields)
        (.object (fields.put key (.list ((before ++ text :: after).map .str))))
  | item (before after : List Data) (e : Data) :
      OneMore (anyOf (before ++ after)) (anyOf (before ++ e :: after))

theorem holds_of_read {e : Data} {x : Expression} (h : Expression.read e = .ok x) (d : Descriptor) :
    x.holds d = selects d e :=
  holds_eq_selects d x e (read_sound h).2

theorem widens_iff {e e' : Data} (he : IsExpression e) (he' : IsExpression e') :
    Widens e e' ↔ ∀ d, selects d e = true → selects d e' = true := by
  obtain ⟨x, hx⟩ := read_complete he
  obtain ⟨x', hx'⟩ := read_complete he'
  constructor
  · intro h d
    rw [← holds_of_read hx, ← holds_of_read hx']
    exact h x x' hx hx' d
  · intro h y y' hy hy' d
    rw [holds_of_read hy, holds_of_read hy']
    exact h d

/-- A leaf that lists the same texts and perhaps more matches more. -/
theorem leafSelects_mono {fields fields' : Fields}
    (h : ∀ key, textsUnder fields key ⊆ textsUnder fields' key) {d : Descriptor} :
    leafSelects d fields = true → leafSelects d fields' = true := by
  rw [leafSelects_eq, leafSelects_eq]
  simp only [List.any_eq_true]
  rintro ⟨key, hk, text, ht, hm⟩
  exact ⟨key, hk, text, h key ht, hm⟩

theorem textsUnder_put (fields : Fields) (key : String) (texts : List String) (other : String) :
    textsUnder (fields.put key (.list (texts.map .str))) other =
      if key = other then texts else textsUnder fields other := by
  rw [textsUnder, Data.field_put]
  split
  · exact textsIn_texts texts
  · rfl

/-- **One more text or item matches more.** -/
theorem widens_of_oneMore {e e' : Data} (h : OneMore e e') : Widens e e' := by
  intro x x' hx hx' d
  rw [holds_of_read hx, holds_of_read hx']
  cases h with
  | item before after e =>
    rw [anyOf, anyOf, selects_or, selects_or]
    simp only [List.any_append, List.any_cons, Bool.or_eq_true]
    rintro (hb | ha)
    · exact Or.inl hb
    · exact Or.inr (Or.inr ha)
  | @text fields hl key hk before after ht text =>
    have hkeys : ∀ k ∈ Fields.keys (fields.put key (.list ((before ++ text :: after).map .str))),
        k ∈ leafKeys := by
      intro k hmem
      rcases Fields.mem_keys_put.mp hmem with rfl | hmem
      · exact hk
      · exact mem_leafKeys_iff.mpr (hl.keys k hmem)
    have hl' : IsLeaf (fields.put key (.list ((before ++ text :: after).map .str))) := by
      rw [read_of_keys hkeys, map_eq_ok_iff] at hx'
      obtain ⟨c, hc, -⟩ := hx'
      exact leaf_ok_iff.mp ⟨c, hc⟩
    rw [selects_of_isLeaf hl, selects_of_isLeaf hl']
    refine leafSelects_mono fun other => ?_
    rw [textsUnder_put]
    split
    · next hother =>
      rw [← hother, ht]
      exact List.append_subset.mpr
        ⟨List.subset_append_left _ _, fun s hs => by simp [hs]⟩
    · exact List.Subset.refl _

/-! ## What options keep -/

/-- The two clauses of options. -/
inductive Side where
  | only
  | ignore
  deriving DecidableEq

namespace Side

/-- The key of a clause. -/
def key : Side → String
  | only => "only"
  | ignore => "ignore"

/-- The other clause. -/
def other : Side → Side
  | only => ignore
  | ignore => only

/-- The expressions that options hold for a clause. -/
def clause (s : Side) (raw : Data) : List Data :=
  written (raw.field s.key)

end Side

theorem keeps_iff {raw : Data} {d : Descriptor} :
    keeps raw d = true ↔
      (Side.only.clause raw = [] ∨ (Side.only.clause raw).any (selects d) = true) ∧
        ¬ (Side.ignore.clause raw).any (selects d) = true := by
  rw [keeps, Bool.and_eq_true, Bool.or_eq_true, List.isEmpty_iff, Bool.not_eq_true',
    ← Bool.not_eq_true]
  rfl

/-- Two options that differ in the expression at one place. -/
structure DifferAt (s : Side) (p : Context) (e e' raw raw' : Data) : Prop where
  around : ∃ before after,
    s.clause raw = before ++ p.fill e :: after ∧ s.clause raw' = before ++ p.fill e' :: after
  elsewhere : s.other.clause raw' = s.other.clause raw

/-- Options with one more expression at the end of a clause. -/
structure Appended (s : Side) (e raw raw' : Data) : Prop where
  last : s.clause raw' = s.clause raw ++ [e]
  elsewhere : s.other.clause raw' = s.other.clause raw

/-! ## What is found -/

/-- Going from the first options to the second only takes findings away, whatever the tree: it is
refused under both, or what is found under the second is some of what is found under the first, in the
same order. -/
def OnlyRemoves (o o' : Options) : Prop :=
  ∀ file tree, Together (fun fs fs' => fs'.Sublist fs)
    (Rule.lint ⟨o⟩ file tree).outcome (Rule.lint ⟨o'⟩ file tree).outcome

theorem onlyRemoves_of_reports {o o' : Options}
    (h : ∀ d, o'.reports d = true → o.reports d = true) : OnlyRemoves o o' := by
  intro file tree
  have hsub : (((occurrences tree).filter fun occurrence =>
      o'.reports occurrence.descriptor).map (·.finding file)).Sublist
      (((occurrences tree).filter fun occurrence =>
        o.reports occurrence.descriptor).map (·.finding file)) :=
    (List.monotone_filter_right _ fun (occurrence : Occurrence) => h occurrence.descriptor).map _
  constructor
  · intro fs hfs
    obtain rfl := Except.ok.inj ((lint_occurrences hfs ⟨o⟩).symm.trans hfs)
    exact ⟨_, lint_occurrences hfs ⟨o'⟩, hsub⟩
  · intro fs' hfs'
    obtain rfl := Except.ok.inj ((lint_occurrences hfs' ⟨o'⟩).symm.trans hfs')
    exact ⟨_, lint_occurrences hfs' ⟨o⟩, hsub⟩

section Read

variable {raw raw' : Data} {o o' : Options} (ho : Options.read raw = .ok o)
  (ho' : Options.read raw' = .ok o')
include ho ho'

theorem onlyRemoves_of_keeps (h : ∀ d, keeps raw' d = true → keeps raw d = true) :
    OnlyRemoves o o' := by
  refine onlyRemoves_of_reports fun d => ?_
  rw [reports_eq_keeps ho, reports_eq_keeps ho']
  exact h d

/-- Where more is ignored, less is found. -/
theorem onlyRemoves_of_ignore
    (h : ∀ d, (Side.ignore.clause raw).any (selects d) = true →
      (Side.ignore.clause raw').any (selects d) = true)
    (honly : Side.only.clause raw' = Side.only.clause raw) : OnlyRemoves o o' := by
  refine onlyRemoves_of_keeps ho ho' fun d => ?_
  rw [keeps_iff, keeps_iff, honly]
  exact fun hk => ⟨hk.1, fun hi => hk.2 (h d hi)⟩

/-- Where `only` is not empty and matches more, more is found. -/
theorem onlyRemoves_of_only (hne : Side.only.clause raw ≠ [])
    (h : ∀ d, (Side.only.clause raw).any (selects d) = true →
      (Side.only.clause raw').any (selects d) = true)
    (hignore : Side.ignore.clause raw' = Side.ignore.clause raw) : OnlyRemoves o' o := by
  refine onlyRemoves_of_keeps ho' ho fun d => ?_
  rw [keeps_iff, keeps_iff, hignore]
  exact fun hk => ⟨Or.inr (h d (hk.1.resolve_left hne)), hk.2⟩

end Read

theorem isExpression_of_written {clause : Data} (h : IsClause clause) :
    ∀ e ∈ written clause, IsExpression e := by
  cases h with
  | null => exact fun e he => absurd he List.not_mem_nil
  | single hs =>
    intro e he
    rw [hs.written_eq, List.mem_singleton] at he
    rwa [he]
  | list hi => exact hi

theorem isExpression_of_clause {raw : Data} {o : Options} (ho : Options.read raw = .ok o) (s : Side) :
    ∀ e ∈ s.clause raw, IsExpression e := by
  cases (options_read_sound ho).1 with
  | null => exact fun e he => absurd he List.not_mem_nil
  | object _ honly hignore =>
    cases s with
    | only => exact isExpression_of_written honly
    | ignore => exact isExpression_of_written hignore

section Change

variable {raw raw' : Data} {o o' : Options} {s : Side} {p : Context} {e e' : Data}

/-- Options that match more at a place match more throughout the clause, or less. -/
theorem DifferAt.any_clause (h : DifferAt s p e e' raw raw') (ho : Options.read raw = .ok o)
    (ho' : Options.read raw' = .ok o') (hw : Widens e e') (d : Descriptor) :
    (Even p.nots → (s.clause raw).any (selects d) = true → (s.clause raw').any (selects d) = true) ∧
      (Odd p.nots →
        (s.clause raw').any (selects d) = true → (s.clause raw).any (selects d) = true) := by
  obtain ⟨before, after, hc, hc'⟩ := h.around
  have he : IsExpression e :=
    isExpression_of_fill (p := p) (isExpression_of_clause ho s _ (by simp [hc]))
  have he' : IsExpression e' :=
    isExpression_of_fill (p := p) (isExpression_of_clause ho' s _ (by simp [hc']))
  have hfill := selects_fill ((widens_iff he he').mp hw d) p
  rw [hc, hc']
  exact ⟨fun heven => any_around (hfill.1 heven) before after,
    fun hodd => any_around (hfill.2 hodd) before after⟩

theorem DifferAt.clause_ne_nil (h : DifferAt s p e e' raw raw') :
    s.clause raw ≠ [] ∧ s.clause raw' ≠ [] := by
  obtain ⟨before, after, hc, hc'⟩ := h.around
  rw [hc, hc']
  simp

end Change

/-- **What a change of options does follows from its place.**  Where one expression at a place is
replaced by one that matches more, findings are only taken away if the place is in `ignore` under an even
number of `not`s or in `only` under an odd one, and else they are only added; one more text in a leaf and
one more item of an `or` match more.  One more expression for `ignore` only takes findings away, one more
for `only` only adds some, but the first for `only` only takes findings away. -/
theorem onlyRemoves_of_polarity {raw raw' : Data} {o o' : Options}
    (ho : Options.read raw = .ok o) (ho' : Options.read raw' = .ok o') :
    (∀ s p e e', DifferAt s p e e' raw raw' → Widens e e' →
      (s = .ignore ∧ Even p.nots ∨ s = .only ∧ Odd p.nots → OnlyRemoves o o') ∧
      (s = .ignore ∧ Odd p.nots ∨ s = .only ∧ Even p.nots → OnlyRemoves o' o)) ∧
    (∀ e e', OneMore e e' → Widens e e') ∧
    (∀ e, Appended .ignore e raw raw' → OnlyRemoves o o') ∧
    (∀ e, Appended .only e raw raw' → Side.only.clause raw ≠ [] → OnlyRemoves o' o) ∧
    ∀ e, Appended .only e raw raw' → Side.only.clause raw = [] → OnlyRemoves o o' := by
  refine ⟨?place, fun e e' => widens_of_oneMore, ?ignore, ?only, ?first⟩
  case place =>
    intro s p e e' h hw
    obtain ⟨hne, hne'⟩ := h.clause_ne_nil
    have hany := h.any_clause ho ho' hw
    constructor
    · rintro (⟨rfl, heven⟩ | ⟨rfl, hodd⟩)
      · exact onlyRemoves_of_ignore ho ho' (fun d => (hany d).1 heven) h.elsewhere
      · exact onlyRemoves_of_only ho' ho hne' (fun d => (hany d).2 hodd) h.elsewhere.symm
    · rintro (⟨rfl, hodd⟩ | ⟨rfl, heven⟩)
      · exact onlyRemoves_of_ignore ho' ho (fun d => (hany d).2 hodd) h.elsewhere.symm
      · exact onlyRemoves_of_only ho ho' hne (fun d => (hany d).1 heven) h.elsewhere
  case ignore =>
    intro e h
    refine onlyRemoves_of_ignore ho ho' (fun d hd => ?_) h.elsewhere
    rw [h.last, List.any_append, hd, Bool.true_or]
  case only =>
    intro e h hne
    refine onlyRemoves_of_only ho ho' hne (fun d hd => ?_) h.elsewhere
    rw [h.last, List.any_append, hd, Bool.true_or]
  case first =>
    intro e h hnil
    have hignore : Side.ignore.clause raw' = Side.ignore.clause raw := h.elsewhere
    refine onlyRemoves_of_keeps ho ho' fun d => ?_
    rw [keeps_iff, keeps_iff, hignore]
    exact fun hk => ⟨Or.inl hnil, hk.2⟩

theorem onlyRemoves_of_polarity_sample :
    let boxes : Data := .object [("components", .list [.str "Box"])]
    let leaf : Data := .object [("attributes", .list [.str "a"])]
    let leaf' : Data := .object [("attributes", .list [.str "a", .str "b"])]
    let raw : Data := .object [("only", .list [boxes, .object [("not", leaf)]])]
    let raw' : Data := .object [("only", .list [boxes, .object [("not", leaf')]])]
    let more : Data := .object [("ignore", boxes),
      ("only", .list [boxes, .object [("not", leaf')]])]
    let x : Expression := .criteria { component := ⟨["Box"], []⟩ }
    let y : Expression := .not (.criteria { name := ⟨["a"], []⟩ })
    let y' : Expression := .not (.criteria { name := ⟨["a", "b"], []⟩ })
    Options.read raw = .ok ⟨[x, y], []⟩ ∧ Options.read raw' = .ok ⟨[x, y'], []⟩ ∧
      DifferAt .only (.inNot .here) leaf leaf' raw raw' ∧ OneMore leaf leaf' ∧
      OnlyRemoves ⟨[x, y], []⟩ ⟨[x, y'], []⟩ ∧
      Options.read more = .ok ⟨[x, y'], [x]⟩ ∧ Appended .ignore boxes raw' more ∧
      OnlyRemoves ⟨[x, y'], []⟩ ⟨[x, y'], [x]⟩ := by
  intro boxes leaf leaf' raw raw' more x y y'
  have ho : Options.read raw = .ok ⟨[x, y], []⟩ := by cbv
  have ho' : Options.read raw' = .ok ⟨[x, y'], []⟩ := by cbv
  have hm : Options.read more = .ok ⟨[x, y'], [x]⟩ := by cbv
  have hl : IsLeaf [("attributes", .list [.str "a"])] :=
    leaf_ok_iff.mp ⟨{ name := ⟨["a"], []⟩ }, by cbv⟩
  have hd : DifferAt .only (.inNot .here) leaf leaf' raw raw' := ⟨⟨[boxes], [], rfl, rfl⟩, rfl⟩
  have hkey : "attributes" ∈ leafKeys := by decide
  have hone : OneMore leaf leaf' := OneMore.text hl hkey ["a"] [] rfl "b"
  have ha : Appended .ignore boxes raw' more := ⟨rfl, rfl⟩
  have hwidens : Widens leaf leaf' := (onlyRemoves_of_polarity ho ho').2.1 _ _ hone
  exact ⟨ho, ho', hd, hone,
    ((onlyRemoves_of_polarity ho ho').1 _ _ _ _ hd hwidens).1 (Or.inr ⟨rfl, by decide⟩),
    hm, ha, (onlyRemoves_of_polarity ho' hm).2.2.1 _ ha⟩

end AttributeLint.Filter
