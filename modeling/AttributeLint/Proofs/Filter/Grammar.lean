import AttributeLint.Proofs.Filter.Leaf
import Mathlib

/-!
# The grammar of filter options

What can be read as filter options, said by rules and without a reader.

* `IsExpression`: an expression is an object with the single key `and` or `or` and a list of
  expressions, an object with the single key `not` and an expression, or a leaf.
* `IsOptions`: options are null, or an object with no keys but `only` and `ignore`, each of which is
  missing, null, one expression or a list of expressions.
* `Expression.Mirrors`, `Options.Mirrors`: what is read keeps the shape of what is written.
* `read_sound`: what is read is an expression, and the result mirrors it.  The induction runs along the
  reader, through objects and lists at once.
* `read_complete`: every expression is read.  The induction runs along the rules.
-/

namespace AttributeLint.Filter

/-! ## Rules -/

/-- The values that are expressions. -/
inductive IsExpression : Data → Prop
  | and {items : List Data} (h : ∀ d ∈ items, IsExpression d) :
      IsExpression (.object [("and", .list items)])
  | or {items : List Data} (h : ∀ d ∈ items, IsExpression d) :
      IsExpression (.object [("or", .list items)])
  | not {d : Data} (h : IsExpression d) : IsExpression (.object [("not", d)])
  | leaf {fields : Fields} (h : IsLeaf fields) : IsExpression (.object fields)

/-- The values that `only` and `ignore` can have; one that is missing counts as null. -/
inductive IsClause : Data → Prop
  | null : IsClause .null
  | single {d : Data} (h : IsExpression d) : IsClause d
  | list {items : List Data} (h : ∀ d ∈ items, IsExpression d) : IsClause (.list items)

/-- The values that are options. -/
inductive IsOptions : Data → Prop
  | null : IsOptions .null
  | object {fields : Fields} (keys : ∀ key ∈ fields.keys, key = "only" ∨ key = "ignore")
      (only : IsClause ((Data.object fields).field "only"))
      (ignore : IsClause ((Data.object fields).field "ignore")) : IsOptions (.object fields)

theorem IsExpression.isObject {d : Data} (h : IsExpression d) : ∃ fields, d = .object fields := by
  cases h with
  | and _ => exact ⟨_, rfl⟩
  | or _ => exact ⟨_, rfl⟩
  | not _ => exact ⟨_, rfl⟩
  | leaf _ => exact ⟨_, rfl⟩

/-! ## Mirrors -/

mutual

/-- An expression mirrors the value that it is read from. -/
def Expression.Mirrors : Expression → Data → Prop
  | .and es, d => ∃ items, d = .object [("and", .list items)] ∧ MirrorAll es items
  | .or es, d => ∃ items, d = .object [("or", .list items)] ∧ MirrorAll es items
  | .not e, d => ∃ child, d = .object [("not", child)] ∧ e.Mirrors child
  | .criteria c, d => ∃ fields, d = .object fields ∧ IsLeaf fields ∧ c.Mirrors fields

/-- Expressions mirror the items of a list, one for each and in their order. -/
def MirrorAll : List Expression → List Data → Prop
  | [], items => items = []
  | e :: es, items => ∃ d rest, items = d :: rest ∧ e.Mirrors d ∧ MirrorAll es rest

end

/-- What is read for `only` or `ignore`: nothing for null, one expression for each item of a list, and
a single expression for anything else. -/
def ClauseMirrors (es : List Expression) (d : Data) : Prop :=
  match d with
  | .null => es = []
  | .list items => MirrorAll es items
  | _ => ∃ e, es = [e] ∧ e.Mirrors d

/-- Options mirror the value that they are read from. -/
def Options.Mirrors (o : Options) (d : Data) : Prop :=
  ClauseMirrors o.only (d.field "only") ∧ ClauseMirrors o.ignore (d.field "ignore")

/-! ## The reader on combinators -/

theorem read_and (d : Data) : Expression.read (.object [("and", d)]) =
    Expression.and <$> (Expression.readList d).mapError (·.under [.field "and"]) := by
  rw [Expression.read, if_pos (by decide)]

theorem read_or (d : Data) : Expression.read (.object [("or", d)]) =
    Expression.or <$> (Expression.readList d).mapError (·.under [.field "or"]) := by
  rw [Expression.read, if_neg (by decide), if_pos (by decide)]

theorem read_not (d : Data) : Expression.read (.object [("not", d)]) =
    Expression.not <$> (Expression.read d).mapError (·.under [.field "not"]) := by
  rw [Expression.read, if_neg (by decide), if_neg (by decide), if_pos (by decide)]

/-! ## What is read is written by the rules -/

theorem leafOnly_eq_ok {fields : Fields} {e : Expression} (h : leafOnly fields = .ok e) :
    ∃ c, leaf fields = .ok c ∧ e = .criteria c := by
  rw [leafOnly] at h
  split at h
  · cases h
  · obtain ⟨c, hc, he⟩ := map_eq_ok_iff.mp h
    exact ⟨c, hc, he.symm⟩

theorem leafOnly_sound {fields : Fields} {e : Expression} (h : leafOnly fields = .ok e) :
    IsExpression (.object fields) ∧ e.Mirrors (.object fields) := by
  obtain ⟨c, hc, rfl⟩ := leafOnly_eq_ok h
  have hl : IsLeaf fields := leaf_ok_iff.mp ⟨c, hc⟩
  refine ⟨.leaf hl, ?_⟩
  rw [Expression.Mirrors]
  exact ⟨fields, rfl, hl, leaf_mirrors hc⟩

/-- What is read follows the rules, and the result mirrors it: for a value, for a value that has to be
a list, and for the items of a list. -/
theorem read_sound_all :
    (∀ d e, Expression.read d = .ok e → IsExpression d ∧ e.Mirrors d) ∧
    (∀ d es, Expression.readList d = .ok es →
      ∃ items, d = .list items ∧ (∀ x ∈ items, IsExpression x) ∧ MirrorAll es items) ∧
    (∀ index items es, Expression.readItems index items = .ok es →
      (∀ x ∈ items, IsExpression x) ∧ MirrorAll es items) := by
  refine Expression.read.mutual_induct
    (fun d => ∀ e, Expression.read d = .ok e → IsExpression d ∧ e.Mirrors d)
    (fun d => ∀ es, Expression.readList d = .ok es →
      ∃ items, d = .list items ∧ (∀ x ∈ items, IsExpression x) ∧ MirrorAll es items)
    (fun index items => ∀ es, Expression.readItems index items = .ok es →
      (∀ x ∈ items, IsExpression x) ∧ MirrorAll es items)
    ?and ?or ?not ?leaf ?object ?scalar ?list ?notList ?nil ?cons
  case and =>
    intro key d hk ih e h
    obtain rfl := beq_iff_eq.mp hk
    rw [read_and, map_eq_ok_iff] at h
    obtain ⟨es, hes, rfl⟩ := h
    obtain ⟨items, rfl, hi, hm⟩ := ih es (mapError_eq_ok_iff.mp hes)
    refine ⟨.and hi, ?_⟩
    rw [Expression.Mirrors]
    exact ⟨items, rfl, hm⟩
  case or =>
    intro key d _ hk ih e h
    obtain rfl := beq_iff_eq.mp hk
    rw [read_or, map_eq_ok_iff] at h
    obtain ⟨es, hes, rfl⟩ := h
    obtain ⟨items, rfl, hi, hm⟩ := ih es (mapError_eq_ok_iff.mp hes)
    refine ⟨.or hi, ?_⟩
    rw [Expression.Mirrors]
    exact ⟨items, rfl, hm⟩
  case not =>
    intro key d _ _ hk ih e h
    obtain rfl := beq_iff_eq.mp hk
    rw [read_not, map_eq_ok_iff] at h
    obtain ⟨child, hc, rfl⟩ := h
    obtain ⟨hi, hm⟩ := ih child (mapError_eq_ok_iff.mp hc)
    refine ⟨.not hi, ?_⟩
    rw [Expression.Mirrors]
    exact ⟨d, rfl, hm⟩
  case leaf =>
    intro key d ha ho hn e h
    rw [Expression.read, if_neg ha, if_neg ho, if_neg hn] at h
    exact leafOnly_sound h
  case object =>
    intro fields hf e h
    rw [Expression.read] at h
    · exact leafOnly_sound h
    · exact hf
  case scalar =>
    intro d hs ho e h
    rw [Expression.read] at h
    · cases h
    · exact hs
    · exact ho
  case list =>
    intro items ih es h
    rw [Expression.readList] at h
    exact ⟨items, rfl, ih es h⟩
  case notList =>
    intro d hl es h
    rw [Expression.readList] at h
    · cases h
    · exact hl
  case nil =>
    intro index es h
    rw [Expression.readItems] at h
    cases h
    exact ⟨fun x hx => absurd hx List.not_mem_nil, by rw [MirrorAll]⟩
  case cons =>
    intro index d rest ihd ihr es h
    rw [Expression.readItems, bind_eq_ok_iff] at h
    obtain ⟨e, he, h⟩ := h
    obtain ⟨more, hm, h⟩ := bind_eq_ok_iff.mp h
    cases h
    obtain ⟨hd, hed⟩ := ihd e (mapError_eq_ok_iff.mp he)
    obtain ⟨hr, hmr⟩ := ihr more hm
    refine ⟨List.forall_mem_cons.mpr ⟨hd, hr⟩, ?_⟩
    rw [MirrorAll]
    exact ⟨d, rest, rfl, hed, hmr⟩

theorem read_sound {d : Data} {e : Expression} (h : Expression.read d = .ok e) :
    IsExpression d ∧ e.Mirrors d :=
  read_sound_all.1 d e h

theorem readItems_sound {index : Nat} {items : List Data} {es : List Expression}
    (h : Expression.readItems index items = .ok es) :
    (∀ x ∈ items, IsExpression x) ∧ MirrorAll es items :=
  read_sound_all.2.2 index items es h

/-! ## What the rules write is read -/

/-- No key of a leaf combines expressions. -/
theorem combinator?_of_keys {fields : Fields} (h : ∀ key ∈ fields.keys, key ∈ leafKeys) :
    combinator? fields = none := by
  rw [combinator?, List.find?_eq_none]
  intro key hkey hhas
  obtain ⟨entry, he, hk⟩ := List.any_eq_true.mp hhas
  have hmem : key ∈ fields.keys := by
    rw [← beq_iff_eq.mp hk]
    exact List.mem_map_of_mem he
  have hleaf := h key hmem
  simp only [combinators, List.mem_cons, List.not_mem_nil, or_false] at hkey
  rcases hkey with rfl | rfl | rfl <;> exact absurd hleaf (by decide)

/-- An object with no keys but those of leaves is read as a leaf. -/
theorem read_of_keys {fields : Fields} (h : ∀ key ∈ fields.keys, key ∈ leafKeys) :
    Expression.read (.object fields) = Expression.criteria <$> leaf fields := by
  have hleaf : Expression.criteria <$> leaf fields = leafOnly fields := by
    rw [leafOnly, combinator?_of_keys h]
  rw [hleaf]
  match fields with
  | [] => rw [Expression.read]; nofun
  | [(key, d)] =>
    have hk : key ∈ leafKeys := h key List.mem_cons_self
    rw [Expression.read, if_neg, if_neg, if_neg]
    all_goals rw [beq_iff_eq]; rintro rfl; exact absurd hk (by decide)
  | _ :: _ :: _ => rw [Expression.read]; nofun

theorem readItems_complete {items : List Data}
    (h : ∀ d ∈ items, ∃ e, Expression.read d = .ok e) (index : Nat) :
    ∃ es, Expression.readItems index items = .ok es := by
  induction items generalizing index with
  | nil => exact ⟨[], by rw [Expression.readItems]⟩
  | cons d rest ih =>
    obtain ⟨e, he⟩ := h d List.mem_cons_self
    obtain ⟨es, hes⟩ := ih (fun x hx => h x (List.mem_cons_of_mem _ hx)) (index + 1)
    refine ⟨e :: es, ?_⟩
    rw [Expression.readItems, he, hes]; rfl

/-- **Every expression is read.** -/
theorem read_complete {d : Data} (h : IsExpression d) : ∃ e, Expression.read d = .ok e := by
  induction h with
  | and _ ih =>
    obtain ⟨es, hes⟩ := readItems_complete ih 0
    exact ⟨.and es, by rw [read_and, Expression.readList, hes]; rfl⟩
  | or _ ih =>
    obtain ⟨es, hes⟩ := readItems_complete ih 0
    exact ⟨.or es, by rw [read_or, Expression.readList, hes]; rfl⟩
  | not _ ih =>
    obtain ⟨e, he⟩ := ih
    exact ⟨.not e, by rw [read_not, he]; rfl⟩
  | leaf hl =>
    obtain ⟨c, hc⟩ := leaf_ok_iff.mpr hl
    have hk : ∀ key ∈ _, key ∈ leafKeys := fun key hkey => mem_leafKeys_iff.mpr (hl.keys key hkey)
    exact ⟨.criteria c, by rw [read_of_keys hk, hc]; rfl⟩

/-! ## Clauses and options -/

theorem readAll_sound {d : Data} {es : List Expression} (h : Expression.readAll d = .ok es) :
    IsClause d ∧ ClauseMirrors es d := by
  unfold Expression.readAll at h
  split at h
  · cases h
    exact ⟨.null, rfl⟩
  · obtain ⟨hi, hm⟩ := readItems_sound h
    exact ⟨.list hi, hm⟩
  · rename_i hnull hlist
    obtain ⟨e, he, rfl⟩ := map_eq_ok_iff.mp h
    obtain ⟨hi, hm⟩ := read_sound he
    refine ⟨.single hi, ?_⟩
    rw [ClauseMirrors]
    · exact ⟨e, rfl, hm⟩
    · exact hnull
    · exact hlist

theorem readAll_complete {d : Data} (h : IsClause d) : ∃ es, Expression.readAll d = .ok es := by
  cases h with
  | null => exact ⟨[], rfl⟩
  | list hi => exact readItems_complete (fun x hx => read_complete (hi x hx)) 0
  | single hi =>
    obtain ⟨e, he⟩ := read_complete hi
    obtain ⟨fields, rfl⟩ := hi.isObject
    refine ⟨[e], ?_⟩
    show (fun e => [e]) <$> Expression.read (.object fields) = .ok [e]
    rw [he]; rfl

theorem options_read_object {fields : Fields} {o : Options} :
    Options.read (.object fields) = .ok o ↔
      (∀ key ∈ fields.keys, key ∈ optionKeys) ∧
        Expression.readAll ((Data.object fields).field "only") = .ok o.only ∧
        Expression.readAll ((Data.object fields).field "ignore") = .ok o.ignore := by
  rw [← unknownKeys_isEmpty, Options.read]
  dsimp only
  cases hu : (unknownKeys optionKeys fields).isEmpty with
  | false => exact ⟨nofun, fun h => nomatch h.1⟩
  | true =>
    rw [if_neg (by simp)]
    simp only [bind_eq_ok_iff, mapError_eq_ok_iff, true_and]
    constructor
    · rintro ⟨only, h₁, ignore, h₂, ho⟩
      cases ho
      exact ⟨h₁, h₂⟩
    · rintro ⟨h₁, h₂⟩
      exact ⟨o.only, h₁, o.ignore, h₂, rfl⟩

theorem options_read_sound {d : Data} {o : Options} (h : Options.read d = .ok o) :
    IsOptions d ∧ o.Mirrors d := by
  cases d with
  | null => cases h; exact ⟨.null, rfl, rfl⟩
  | object fields =>
    obtain ⟨hk, h₁, h₂⟩ := options_read_object.mp h
    obtain ⟨hc₁, hm₁⟩ := readAll_sound h₁
    obtain ⟨hc₂, hm₂⟩ := readAll_sound h₂
    exact ⟨.object (fun key hkey => by simpa [optionKeys] using hk key hkey) hc₁ hc₂, hm₁, hm₂⟩
  | _ => cases h

theorem options_read_complete {d : Data} (h : IsOptions d) : ∃ o, Options.read d = .ok o := by
  cases h with
  | null => exact ⟨{}, rfl⟩
  | object hk h₁ h₂ =>
    obtain ⟨only, h₁⟩ := readAll_complete h₁
    obtain ⟨ignore, h₂⟩ := readAll_complete h₂
    refine ⟨⟨only, ignore⟩, options_read_object.mpr ⟨fun key hkey => ?_, h₁, h₂⟩⟩
    simpa [optionKeys] using hk key hkey

/-- **The reader of options accepts exactly the grammar**, and what it gives mirrors what it reads. -/
theorem options_read_iff_grammar (raw : Data) :
    ((∃ o, Options.read raw = .ok o) ↔ IsOptions raw) ∧
      ∀ o, Options.read raw = .ok o → o.Mirrors raw := by
  refine ⟨⟨?_, options_read_complete⟩, fun o h => (options_read_sound h).2⟩
  rintro ⟨o, h⟩
  exact (options_read_sound h).1

theorem options_read_iff_grammar_sample :
    let raw : Data :=
      .object [("ignore", .list [.object [("and", .list [.object [],
        .object [("not", .object [("attributes", .list [.str "b", .str "a", .str "b"])])]])]])]
    let o : Options := ⟨[], [.and [.criteria {}, .not (.criteria { name := ⟨["a", "b"], []⟩ })]]⟩
    Options.read raw = .ok o ∧ IsOptions raw ∧ o.Mirrors raw := by
  intro raw o
  have ho : Options.read raw = .ok o := by cbv
  exact ⟨ho, (options_read_iff_grammar raw).1.mp ⟨o, ho⟩, (options_read_iff_grammar raw).2 o ho⟩

end AttributeLint.Filter
