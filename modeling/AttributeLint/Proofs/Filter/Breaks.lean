import AttributeLint.Proofs.Filter.Grammar

/-!
# Options that break

Options that cannot be read have a fault of the configuration, which is told with the way to it; or
they break, because a pattern in them fails without being malformed: a number of repetitions is too
large or too long, two flags exclude one another, or it looks behind too far.  Reading stops at the
first fault, so options break exactly if all that stands before such a pattern can be read.

* `FirstBad`: one of several things is bad, and those before it are good.
* `LeafBreaks`, `ExpressionBreaks`, `ClauseBreaks`, `OptionsBreak`: what breaks, said by rules.
* `leaf_pattern_iff`, `read_pattern_iff`: the readers break exactly there.
* `options_read_unless_breaks`: whatever the value, it is read, or has a fault of the configuration,
  or breaks by the rules.
-/

namespace AttributeLint.Filter

open Pattern (Failure)

/-! ## The first of several -/

/-- One of several things is bad, and all before it are good. -/
def FirstBad {α : Type} (good bad : α → Prop) (xs : List α) : Prop :=
  ∃ before x after, xs = before ++ x :: after ∧ (∀ y ∈ before, good y) ∧ bad x

section FirstBad

variable {α : Type} {good bad : α → Prop}

theorem not_firstBad_nil : ¬ FirstBad good bad [] := by
  rintro ⟨before, x, after, h, _⟩
  exact absurd h.symm (List.append_ne_nil_of_right_ne_nil _ (List.cons_ne_nil _ _))

theorem firstBad_cons {x : α} {xs : List α} :
    FirstBad good bad (x :: xs) ↔ bad x ∨ good x ∧ FirstBad good bad xs := by
  constructor
  · rintro ⟨before, y, after, h, hg, hb⟩
    cases before with
    | nil =>
      cases h
      exact Or.inl hb
    | cons z before =>
      cases h
      obtain ⟨hz, hg⟩ := List.forall_mem_cons.mp hg
      exact Or.inr ⟨hz, before, y, after, rfl, hg, hb⟩
  · rintro (hb | ⟨hx, before, y, after, rfl, hg, hb⟩)
    · exact ⟨[], x, xs, rfl, nofun, hb⟩
    · exact ⟨x :: before, y, after, rfl, List.forall_mem_cons.mpr ⟨hx, hg⟩, hb⟩

theorem firstBad_append {xs ys : List α} :
    FirstBad good bad (xs ++ ys) ↔
      FirstBad good bad xs ∨ (∀ x ∈ xs, good x) ∧ FirstBad good bad ys := by
  induction xs with
  | nil => simp [not_firstBad_nil]
  | cons x xs ih =>
    rw [List.cons_append, firstBad_cons, firstBad_cons, ih, List.forall_mem_cons]
    tauto

/-- What is the first bad thing in two ways is the same thing. -/
theorem FirstBad.meet {bad' : α → Prop} {xs : List α} (hb : ∀ x, good x → ¬ bad x)
    (hb' : ∀ x, good x → ¬ bad' x) (h : FirstBad good bad xs) (h' : FirstBad good bad' xs) :
    ∃ x, bad x ∧ bad' x := by
  induction xs with
  | nil => exact absurd h not_firstBad_nil
  | cons x xs ih =>
    rcases firstBad_cons.mp h with hx | ⟨hx, h⟩
    · rcases firstBad_cons.mp h' with hx' | ⟨hx', -⟩
      · exact ⟨x, hx, hx'⟩
      · exact absurd hx (hb x hx')
    · rcases firstBad_cons.mp h' with hx' | ⟨-, h'⟩
      · exact absurd hx' (hb' x hx)
      · exact ih h h'

end FirstBad

/-! ## What breaks -/

/-- A source that can be compiled. -/
def Compiles (source : String) : Prop :=
  ∃ p, Pattern.compile source = .ok p

/-- A source that fails without being malformed. -/
def SourceBreaks (f : Failure) (source : String) : Prop :=
  Pattern.compile source = .error f ∧ ∀ cause place, f ≠ .malformed cause place

/-- A leaf breaks if its keys and lists are in order and, of the sources of its patterns from the first
axis to the last, one breaks after others that can be compiled. -/
structure LeafBreaks (f : Failure) (fields : Fields) : Prop where
  keys : ∀ key ∈ fields.keys, key ∈ nameKeys ∨ key ∈ patternKeys
  texts : ∀ entry ∈ fields, IsTexts entry.2
  patterns : FirstBad Compiles (SourceBreaks f) (patternKeys.flatMap (textsUnder fields))

/-- The values that break in place of an expression. -/
inductive ExpressionBreaks (f : Failure) : Data → Prop
  | and {before after : List Data} {d : Data} (hb : ∀ x ∈ before, IsExpression x)
      (h : ExpressionBreaks f d) : ExpressionBreaks f (.object [("and", .list (before ++ d :: after))])
  | or {before after : List Data} {d : Data} (hb : ∀ x ∈ before, IsExpression x)
      (h : ExpressionBreaks f d) : ExpressionBreaks f (.object [("or", .list (before ++ d :: after))])
  | not {d : Data} (h : ExpressionBreaks f d) : ExpressionBreaks f (.object [("not", d)])
  | leaf {fields : Fields} (h : LeafBreaks f fields) : ExpressionBreaks f (.object fields)

/-- Expressions of which one breaks after others that can be read. -/
abbrev ItemsBreak (f : Failure) (items : List Data) : Prop :=
  FirstBad IsExpression (ExpressionBreaks f) items

/-- The values of `only` or `ignore` that break. -/
inductive ClauseBreaks (f : Failure) : Data → Prop
  | single {d : Data} (h : ExpressionBreaks f d) : ClauseBreaks f d
  | list {items : List Data} (h : ItemsBreak f items) : ClauseBreaks f (.list items)

/-- The options that break, with the clause in which they do. -/
inductive OptionsBreak (f : Failure) : String → Data → Prop
  | only {fields : Fields} (keys : ∀ key ∈ fields.keys, key = "only" ∨ key = "ignore")
      (h : ClauseBreaks f ((Data.object fields).field "only")) :
      OptionsBreak f "only" (.object fields)
  | ignore {fields : Fields} (keys : ∀ key ∈ fields.keys, key = "only" ∨ key = "ignore")
      (only : IsClause ((Data.object fields).field "only"))
      (h : ClauseBreaks f ((Data.object fields).field "ignore")) :
      OptionsBreak f "ignore" (.object fields)

/-! ## Leaves -/

theorem mapError_under_iff {α : Type} {x : Except Fault α} {steps : List Step} {f : Failure} :
    x.mapError (·.under steps) = .error (.pattern f) ↔ x = .error (.pattern f) := by
  rw [mapError_eq_error_iff]
  constructor
  · rintro ⟨fault, rfl, h⟩
    cases fault with
    | config path cause => cases h
    | pattern g => cases h; rfl
  · rintro rfl
    exact ⟨_, rfl, rfl⟩

/-- At a source that fails, compiling breaks exactly if the source does. -/
theorem compileFrom_of_error {index : Nat} {source : String} {rest : List String}
    {failure f : Failure} (hc : Pattern.compile source = .error failure) :
    compileFrom index (source :: rest) = .error (.pattern f) ↔ SourceBreaks f source := by
  rw [compileFrom, SourceBreaks, hc]
  cases failure with
  | malformed cause place =>
    refine ⟨by rintro ⟨⟩, ?_⟩
    rintro ⟨h, hne⟩
    cases h
    exact absurd rfl (hne cause place)
  | _ =>
    constructor
    · intro h
      cases h
      exact ⟨rfl, by rintro _ _ ⟨⟩⟩
    · rintro ⟨h, _⟩
      cases h
      rfl

theorem compileFrom_pattern_iff {sources : List String} {f : Failure} :
    ∀ {index : Nat}, compileFrom index sources = .error (.pattern f) ↔
      FirstBad Compiles (SourceBreaks f) sources := by
  induction sources with
  | nil =>
    intro index
    rw [compileFrom]
    exact ⟨by rintro ⟨⟩, fun h => absurd h not_firstBad_nil⟩
  | cons source rest ih =>
    intro index
    rw [firstBad_cons]
    cases hc : Pattern.compile source with
    | error failure =>
      have hn : ¬ Compiles source := by
        rintro ⟨p, hp⟩
        rw [hc] at hp
        cases hp
      rw [compileFrom_of_error hc]
      exact ⟨Or.inl, fun h => h.resolve_right fun hr => hn hr.1⟩
    | ok p =>
      have hb : ¬ SourceBreaks f source := by
        rintro ⟨h, _⟩
        rw [hc] at h
        cases h
      rw [compileFrom, hc]
      dsimp only
      rw [bind_eq_error_iff, ih]
      constructor
      · rintro (h | ⟨_, _, h⟩)
        · exact Or.inr ⟨⟨p, hc⟩, h⟩
        · cases h
      · rintro (h | ⟨_, h⟩)
        · exact absurd h hb
        · exact Or.inl h

theorem patternsOf_pattern_iff {lists : List (String × List String)} {key : String} {f : Failure} :
    patternsOf lists key = .error (.pattern f) ↔
      FirstBad Compiles (SourceBreaks f) (textsOf lists key) := by
  rw [patternsOf, mapError_under_iff, compileAll, compileFrom_pattern_iff]

theorem textLists_ne_pattern {fields : Fields} {f : Failure} :
    textLists fields ≠ .error (.pattern f) := by
  induction fields with
  | nil => rintro ⟨⟩
  | cons field rest ih =>
    obtain ⟨key, d⟩ := field
    rw [textLists]
    split
    · rintro ⟨⟩
    · intro h
      rcases bind_eq_error_iff.mp h with h | ⟨_, _, h⟩
      · exact ih h
      · cases h

/-- The patterns of a field can be read exactly if each of its sources compiles. -/
theorem patternsOf_ok_iff {lists : List (String × List String)} {key : String} :
    (∃ ps, patternsOf lists key = .ok ps) ↔ ∀ source ∈ textsOf lists key, Compiles source := by
  simp only [patternsOf_eq_ok_iff]
  exact exists_forall₂_compile

/-- A leaf breaks as the rules say.  The three lists of patterns are compiled one after another, so that
the first source that fails decides. -/
theorem leaf_pattern_iff {fields : Fields} {f : Failure} :
    leaf fields = .error (.pattern f) ↔ LeafBreaks f fields := by
  have hkeys : (∀ key ∈ fields.keys, key ∈ leafKeys) ↔
      ∀ key ∈ fields.keys, key ∈ nameKeys ∨ key ∈ patternKeys := by
    simp only [mem_leafKeys_iff]
  have hpatterns : ∀ {lists}, textLists fields = .ok lists →
      (FirstBad Compiles (SourceBreaks f) (patternKeys.flatMap (textsUnder fields)) ↔
        patternsOf lists "attributePatterns" = .error (.pattern f) ∨
        (∃ ps, patternsOf lists "attributePatterns" = .ok ps) ∧
          (patternsOf lists "componentPatterns" = .error (.pattern f) ∨
          (∃ ps, patternsOf lists "componentPatterns" = .ok ps) ∧
            patternsOf lists "valuePatterns" = .error (.pattern f))) := by
    intro lists hl
    simp only [patternsOf_pattern_iff, patternsOf_ok_iff, textsOf_eq hl, patternKeys,
      List.flatMap_cons, List.flatMap_nil, List.append_nil, firstBad_append]
  rw [leaf]
  dsimp only
  cases hu : (unknownKeys leafKeys fields).isEmpty with
  | false =>
    refine ⟨by rintro ⟨⟩, fun h => ?_⟩
    rw [unknownKeys_isEmpty.mpr (hkeys.mpr h.keys)] at hu
    cases hu
  | true =>
    rw [if_neg (by simp)]
    simp only [bind_eq_error_iff]
    constructor
    · rintro (h | ⟨lists, hl, h⟩)
      · exact absurd h textLists_ne_pattern
      · refine ⟨hkeys.mp (unknownKeys_isEmpty.mp hu), textLists_ok_iff.mp ⟨lists, hl⟩,
          (hpatterns hl).mpr ?_⟩
        rcases h with h | ⟨ps₁, h₁, h | ⟨ps₂, h₂, h | ⟨_, _, h⟩⟩⟩
        · exact Or.inl h
        · exact Or.inr ⟨⟨ps₁, h₁⟩, Or.inl h⟩
        · exact Or.inr ⟨⟨ps₁, h₁⟩, Or.inr ⟨⟨ps₂, h₂⟩, h⟩⟩
        · cases h
    · intro h
      obtain ⟨lists, hl⟩ := textLists_ok_iff.mpr h.texts
      refine Or.inr ⟨lists, hl, ?_⟩
      rcases (hpatterns hl).mp h.patterns with h | ⟨⟨ps₁, h₁⟩, h | ⟨⟨ps₂, h₂⟩, h⟩⟩
      · exact Or.inl h
      · exact Or.inr ⟨ps₁, h₁, Or.inl h⟩
      · exact Or.inr ⟨ps₁, h₁, Or.inr ⟨ps₂, h₂, Or.inl h⟩⟩

/-! ## Expressions -/

theorem leafOnly_breaks {fields : Fields} {f : Failure}
    (h : leafOnly fields = .error (.pattern f)) : ExpressionBreaks f (.object fields) := by
  rw [leafOnly] at h
  split at h
  · cases h
  · exact .leaf (leaf_pattern_iff.mp (map_eq_error_iff.mp h))

/-- A reader that breaks does so by the rules: on a value, on a value that has to be a list, and on the
items of a list. -/
theorem breaks_of_read_all {f : Failure} :
    (∀ d, Expression.read d = .error (.pattern f) → ExpressionBreaks f d) ∧
    (∀ d, Expression.readList d = .error (.pattern f) →
      ∃ items, d = .list items ∧ ItemsBreak f items) ∧
    (∀ index items, Expression.readItems index items = .error (.pattern f) →
      ItemsBreak f items) := by
  refine Expression.read.mutual_induct
    (fun d => Expression.read d = .error (.pattern f) → ExpressionBreaks f d)
    (fun d => Expression.readList d = .error (.pattern f) →
      ∃ items, d = .list items ∧ ItemsBreak f items)
    (fun index items => Expression.readItems index items = .error (.pattern f) →
      ItemsBreak f items)
    ?and ?or ?not ?leaf ?object ?scalar ?list ?notList ?nil ?cons
  case and =>
    intro key d hk ih h
    obtain rfl := beq_iff_eq.mp hk
    rw [read_and, map_eq_error_iff, mapError_under_iff] at h
    obtain ⟨items, rfl, before, x, after, rfl, hb, hx⟩ := ih h
    exact .and hb hx
  case or =>
    intro key d _ hk ih h
    obtain rfl := beq_iff_eq.mp hk
    rw [read_or, map_eq_error_iff, mapError_under_iff] at h
    obtain ⟨items, rfl, before, x, after, rfl, hb, hx⟩ := ih h
    exact .or hb hx
  case not =>
    intro key d _ _ hk ih h
    obtain rfl := beq_iff_eq.mp hk
    rw [read_not, map_eq_error_iff, mapError_under_iff] at h
    exact .not (ih h)
  case leaf =>
    intro key d ha ho hn h
    rw [Expression.read, if_neg ha, if_neg ho, if_neg hn] at h
    exact leafOnly_breaks h
  case object =>
    intro fields hf h
    rw [Expression.read] at h
    · exact leafOnly_breaks h
    · exact hf
  case scalar =>
    intro d hs ho h
    rw [Expression.read] at h
    · cases h
    · exact hs
    · exact ho
  case list =>
    intro items ih h
    rw [Expression.readList] at h
    exact ⟨items, rfl, ih h⟩
  case notList =>
    intro d hl h
    rw [Expression.readList] at h
    · cases h
    · exact hl
  case nil =>
    intro index h
    rw [Expression.readItems] at h
    cases h
  case cons =>
    intro index d rest ihd ihr h
    rw [Expression.readItems, bind_eq_error_iff, mapError_under_iff] at h
    rcases h with h | ⟨e, he, h⟩
    · exact firstBad_cons.mpr (Or.inl (ihd h))
    · rcases bind_eq_error_iff.mp h with h | ⟨_, _, h⟩
      · exact firstBad_cons.mpr (Or.inr ⟨(read_sound (mapError_eq_ok_iff.mp he)).1, ihr h⟩)
      · cases h

/-- Items break at one that breaks, if those before it are read. -/
theorem readItems_of_break {before after : List Data} {d : Data} {f : Failure}
    (hb : ∀ x ∈ before, IsExpression x) (hd : Expression.read d = .error (.pattern f)) :
    ∀ index, Expression.readItems index (before ++ d :: after) = .error (.pattern f) := by
  induction before with
  | nil =>
    intro index
    rw [List.nil_append, Expression.readItems, hd]
    rfl
  | cons x before ih =>
    intro index
    obtain ⟨hx, hb⟩ := List.forall_mem_cons.mp hb
    obtain ⟨e, he⟩ := read_complete hx
    rw [List.cons_append, Expression.readItems, he, ih hb]
    rfl

/-- What breaks by the rules breaks the reader. -/
theorem read_of_breaks {d : Data} {f : Failure} (h : ExpressionBreaks f d) :
    Expression.read d = .error (.pattern f) := by
  induction h with
  | and hb _ ih => rw [read_and, Expression.readList, readItems_of_break hb ih]; rfl
  | or hb _ ih => rw [read_or, Expression.readList, readItems_of_break hb ih]; rfl
  | not _ ih => rw [read_not, ih]; rfl
  | leaf hl =>
    have hk : ∀ key ∈ _, key ∈ leafKeys := fun key hkey => mem_leafKeys_iff.mpr (hl.keys key hkey)
    rw [read_of_keys hk, leaf_pattern_iff.mpr hl]
    rfl

/-- **An expression breaks exactly by the rules.** -/
theorem read_pattern_iff {d : Data} {f : Failure} :
    Expression.read d = .error (.pattern f) ↔ ExpressionBreaks f d :=
  ⟨breaks_of_read_all.1 d, read_of_breaks⟩

/-! ## Clauses and options -/

theorem ExpressionBreaks.isObject {d : Data} {f : Failure} (h : ExpressionBreaks f d) :
    ∃ fields, d = .object fields := by
  cases h with
  | and _ _ => exact ⟨_, rfl⟩
  | or _ _ => exact ⟨_, rfl⟩
  | not _ => exact ⟨_, rfl⟩
  | leaf _ => exact ⟨_, rfl⟩

theorem readAll_pattern_iff {d : Data} {f : Failure} :
    Expression.readAll d = .error (.pattern f) ↔ ClauseBreaks f d := by
  constructor
  · intro h
    unfold Expression.readAll at h
    split at h
    · cases h
    · exact .list (breaks_of_read_all.2.2 0 _ h)
    · exact .single (read_pattern_iff.mp (map_eq_error_iff.mp h))
  · intro h
    cases h with
    | list hi =>
      obtain ⟨before, x, after, rfl, hb, hx⟩ := hi
      exact readItems_of_break hb (read_of_breaks hx) 0
    | single hd =>
      obtain ⟨fields, rfl⟩ := hd.isObject
      exact map_eq_error_iff.mpr (read_of_breaks hd)

theorem readAll_ok_iff {d : Data} : (∃ es, Expression.readAll d = .ok es) ↔ IsClause d :=
  ⟨fun ⟨_, h⟩ => (readAll_sound h).1, readAll_complete⟩

theorem mapError_located_iff {α : Type} {x : Except Fault α} {name root : String} {fault : Fault} :
    x.mapError (Located.mk name) = .error ⟨root, fault⟩ ↔ root = name ∧ x = .error fault := by
  rw [mapError_eq_error_iff]
  constructor
  · rintro ⟨_, rfl, h⟩
    cases h
    exact ⟨rfl, rfl⟩
  · rintro ⟨rfl, rfl⟩
    exact ⟨_, rfl, rfl⟩

theorem mapError_located_ok_iff {α : Type} {x : Except Fault α} {name : String} {a : α} :
    x.mapError (Located.mk name) = .ok a ↔ x = .ok a :=
  mapError_eq_ok_iff

/-- Options break exactly by the rules. -/
theorem options_read_pattern_iff {raw : Data} {root : String} {f : Failure} :
    Options.read raw = .error ⟨root, .pattern f⟩ ↔ OptionsBreak f root raw := by
  cases raw with
  | object fields =>
    have hkeys : (∀ key ∈ Fields.keys fields, key ∈ optionKeys) ↔
        ∀ key ∈ Fields.keys fields, key = "only" ∨ key = "ignore" := by
      simp [optionKeys]
    rw [Options.read]
    dsimp only
    cases hu : (unknownKeys optionKeys fields).isEmpty with
    | false =>
      refine ⟨by rintro ⟨⟩, fun h => ?_⟩
      have hk : ∀ key ∈ Fields.keys fields, key = "only" ∨ key = "ignore" := by
        cases h with
        | only hk _ => exact hk
        | ignore hk _ _ => exact hk
      rw [unknownKeys_isEmpty.mpr (hkeys.mpr hk)] at hu
      cases hu
    | true =>
      have hk := hkeys.mp (unknownKeys_isEmpty.mp hu)
      rw [if_neg (by simp)]
      simp only [bind_eq_error_iff, mapError_located_iff, mapError_located_ok_iff,
        readAll_pattern_iff]
      constructor
      · rintro (⟨rfl, h⟩ | ⟨only, ho, ⟨rfl, h⟩ | ⟨_, _, h⟩⟩)
        · exact .only hk h
        · exact .ignore hk (readAll_ok_iff.mp ⟨only, ho⟩) h
        · cases h
      · intro h
        cases h with
        | only _ h => exact Or.inl ⟨rfl, h⟩
        | ignore _ ho h =>
          obtain ⟨only, ho⟩ := readAll_ok_iff.mpr ho
          exact Or.inr ⟨only, ho, Or.inl ⟨rfl, h⟩⟩
  | _ => exact ⟨by rintro ⟨⟩, by rintro ⟨⟩⟩

/-- **What becomes of options.**  Any value is read, or has a fault of the configuration, unless it
breaks by the rules; and then reading ends with the failure of the pattern that breaks it. -/
theorem options_read_unless_breaks (raw : Data) :
    ((∃ o, Options.read raw = .ok o) ∨
        (∃ root path cause, Options.read raw = .error ⟨root, .config path cause⟩) ↔
      ¬ ∃ f root, OptionsBreak f root raw) ∧
    ∀ f root, Options.read raw = .error ⟨root, .pattern f⟩ ↔ OptionsBreak f root raw := by
  refine ⟨?_, fun f root => options_read_pattern_iff⟩
  simp only [← options_read_pattern_iff]
  cases Options.read raw with
  | ok o =>
    refine ⟨fun _ => ?_, fun _ => Or.inl ⟨o, rfl⟩⟩
    rintro ⟨_, _, h⟩
    cases h
  | error l =>
    obtain ⟨root, fault⟩ := l
    cases fault with
    | config path cause =>
      refine ⟨fun _ => ?_, fun _ => Or.inr ⟨root, path, cause, rfl⟩⟩
      rintro ⟨_, _, h⟩
      cases h
    | pattern f =>
      refine ⟨?_, fun h => absurd ⟨f, root, rfl⟩ h⟩
      rintro (⟨_, h⟩ | ⟨_, _, _, h⟩)
      · cases h
      · cases h

/-- A number of repetitions that is too large breaks the options, although the pattern before it is
read and another one behind it is malformed. -/
example : Options.read (.object [("only", .object [("not", .object
    [("valuePatterns", .list [.str "a+", .str "a{4294967295}", .str "("])])])]) =
      .error ⟨"only", .pattern .repeatTooLarge⟩ := by cbv

end AttributeLint.Filter
