import AttributeLint.Filter.Read
import AttributeLint.Proofs.Fields
import AttributeLint.Proofs.Readers
import Mathlib.Data.List.Forall2

/-!
# Leaves of filter expressions

A leaf names, for each of three axes, exact texts under one key and sources of patterns under another.

* `IsLeaf`: the objects that can be read as a leaf.
* `Criteria.Mirrors`: what the leaf that is read has to be.  Its names are the listed texts as a set,
  its patterns are the listed sources, spelled out and compiled, in their order and with repetitions.
* `leaf_ok_iff`, `leaf_mirrors`: exactly these objects are read, and the result mirrors them.
-/

namespace AttributeLint.Filter

/-! ## What is written -/

/-- The keys under which a leaf lists exact texts. -/
def nameKeys : List String :=
  ["attributes", "components", "values"]

/-- The keys under which a leaf lists sources of patterns. -/
def patternKeys : List String :=
  ["attributePatterns", "componentPatterns", "valuePatterns"]

/-- A value that is a list of texts and of nothing else. -/
def IsTexts (d : Data) : Prop :=
  ∃ texts : List String, d = .list (texts.map .str)

/-- The texts in a list. -/
def textsIn : Data → List String
  | .list items => items.filterMap fun
    | .str s => some s
    | _ => none
  | _ => []

/-- The texts that are listed under a key. -/
def textsUnder (fields : Fields) (key : String) : List String :=
  textsIn ((Data.object fields).field key)

/-- The objects that are leaves: every key belongs to an axis and holds a list of texts, and the texts
that stand for patterns can be compiled. -/
structure IsLeaf (fields : Fields) : Prop where
  keys : ∀ key ∈ fields.keys, key ∈ nameKeys ∨ key ∈ patternKeys
  texts : ∀ entry ∈ fields, IsTexts entry.2
  patterns : ∀ key ∈ patternKeys, ∀ source ∈ textsUnder fields key,
    ∃ p, Pattern.compile source = .ok p

/-- The source of a pattern with its anchors spelled out. -/
def spelled (source : String) : String :=
  String.ofList (Pattern.endAnchors source.toList)

/-- An axis mirrors what is written: its names are the written ones as a set, and its patterns are
those of the written sources, one for each and in their order. -/
structure Axis.Mirrors (a : Axis) (names sources : List String) : Prop where
  mem_names : ∀ s, s ∈ a.names ↔ s ∈ names
  nodup_names : a.names.Nodup
  sources_eq : a.patterns.map (·.source) = sources.map spelled
  compiled : List.Forall₂ (fun source p => Pattern.compile source = .ok p) sources a.patterns

/-- A leaf mirrors the object that it is read from, axis by axis. -/
structure Criteria.Mirrors (c : Criteria) (fields : Fields) : Prop where
  name : c.name.Mirrors (textsUnder fields "attributes") (textsUnder fields "attributePatterns")
  component : c.component.Mirrors (textsUnder fields "components")
    (textsUnder fields "componentPatterns")
  value : c.value.Mirrors (textsUnder fields "values") (textsUnder fields "valuePatterns")

/-! ## Lists of texts -/

theorem textsIn_texts (texts : List String) : textsIn (.list (texts.map .str)) = texts := by
  induction texts with
  | nil => rfl
  | cons s rest ih =>
    rw [textsIn] at ih ⊢
    rw [List.map_cons, List.filterMap_cons, ih]

theorem texts?_eq_some_iff {items : List Data} {texts : List String} :
    texts? items = some texts ↔ items = texts.map .str := by
  induction items generalizing texts with
  | nil =>
    cases texts with
    | nil => exact ⟨fun _ => rfl, fun _ => rfl⟩
    | cons s rest => exact ⟨nofun, nofun⟩
  | cons d rest ih =>
    cases d with
    | str s =>
      rw [texts?, Option.map_eq_some_iff]
      constructor
      · rintro ⟨more, hm, rfl⟩
        rw [ih.mp hm, List.map_cons]
      · intro h
        cases texts with
        | nil => cases h
        | cons t more =>
          rw [List.map_cons, List.cons.injEq, Data.str.injEq] at h
          exact ⟨more, ih.mpr h.2, by rw [h.1]⟩
    | _ => cases texts <;> exact ⟨nofun, fun h => by cases h⟩

theorem textList?_eq_some_iff {d : Data} {texts : List String} :
    textList? d = some texts ↔ d = .list (texts.map .str) := by
  cases d with
  | list items => rw [textList?, texts?_eq_some_iff, Data.list.injEq]
  | _ => exact ⟨nofun, nofun⟩

theorem textLists_cons {key : String} {d : Data} {rest : Fields}
    {lists : List (String × List String)} :
    textLists ((key, d) :: rest) = .ok lists ↔
      ∃ texts more, d = .list (texts.map .str) ∧ textLists rest = .ok more ∧
        lists = (key, texts) :: more := by
  rw [textLists]
  cases hd : textList? d with
  | none =>
    refine ⟨nofun, ?_⟩
    rintro ⟨texts, _, h, _⟩
    rw [textList?_eq_some_iff.mpr h] at hd
    cases hd
  | some texts =>
    have hd' := textList?_eq_some_iff.mp hd
    dsimp only
    rw [bind_eq_ok_iff]
    constructor
    · rintro ⟨more, hm, hl⟩
      exact ⟨texts, more, hd', hm, (Except.ok.inj hl).symm⟩
    · rintro ⟨texts', more, h, hm, rfl⟩
      rw [textList?_eq_some_iff.mpr h, Option.some.injEq] at hd
      exact ⟨more, hm, by rw [hd]; rfl⟩

theorem textLists_ok_iff {fields : Fields} :
    (∃ lists, textLists fields = .ok lists) ↔ ∀ entry ∈ fields, IsTexts entry.2 := by
  induction fields with
  | nil => exact ⟨fun _ _ h => absurd h List.not_mem_nil, fun _ => ⟨[], rfl⟩⟩
  | cons field rest ih =>
    obtain ⟨key, d⟩ := field
    constructor
    · rintro ⟨lists, h⟩ entry he
      obtain ⟨texts, more, hd, hm, -⟩ := textLists_cons.mp h
      rcases List.mem_cons.mp he with rfl | he
      · exact ⟨texts, hd⟩
      · exact ih.mp ⟨more, hm⟩ entry he
    · intro h
      obtain ⟨texts, hd⟩ := h (key, d) List.mem_cons_self
      obtain ⟨more, hm⟩ := ih.mpr fun entry he => h entry (List.mem_cons_of_mem _ he)
      exact ⟨_, textLists_cons.mpr ⟨texts, more, hd, hm, rfl⟩⟩

/-- The lists that are read hold what is written under each key. -/
theorem textsOf_eq {fields : Fields} {lists : List (String × List String)}
    (h : textLists fields = .ok lists) (key : String) : textsOf lists key = textsUnder fields key := by
  induction fields generalizing lists with
  | nil => cases h; rfl
  | cons field rest ih =>
    obtain ⟨k, d⟩ := field
    obtain ⟨texts, more, hd, hm, rfl⟩ := textLists_cons.mp h
    have hr := ih hm
    rw [textsOf] at hr ⊢
    rw [textsUnder, Data.field_cons, List.lookup_cons]
    by_cases hk : k = key
    · rw [if_pos hk, hk, BEq.rfl, hd]
      exact (textsIn_texts texts).symm
    · rw [if_neg hk, beq_eq_false_iff_ne.mpr (Ne.symm hk)]
      exact hr

/-! ## Patterns -/

/-- Compiling keeps the source, its anchors spelled out. -/
theorem source_of_compile {source : String} {p : Pattern} (h : Pattern.compile source = .ok p) :
    p.source = spelled source := by
  rw [Pattern.compile, Pattern.ofSource, bind_eq_ok_iff] at h
  obtain ⟨parsed, -, h⟩ := h
  split at h
  · cases h
  · split at h
    · cases h
    · cases h; rfl

theorem compileFrom_eq_ok_iff {index : Nat} {sources : List String} {ps : List Pattern} :
    compileFrom index sources = .ok ps ↔
      List.Forall₂ (fun source p => Pattern.compile source = .ok p) sources ps := by
  induction sources generalizing index ps with
  | nil =>
    rw [compileFrom, List.forall₂_nil_left_iff]
    exact ⟨fun h => (Except.ok.inj h).symm, fun h => by rw [h]⟩
  | cons source rest ih =>
    rw [compileFrom, List.forall₂_cons_left_iff]
    cases hc : Pattern.compile source with
    | error failure =>
      constructor
      · intro h; cases failure <;> cases h
      · rintro ⟨p, _, hp, _⟩; cases hp
    | ok p =>
      dsimp only
      rw [bind_eq_ok_iff]
      constructor
      · rintro ⟨more, hm, h⟩
        exact ⟨p, more, rfl, ih.mp hm, (Except.ok.inj h).symm⟩
      · rintro ⟨p', more, hp, hm, rfl⟩
        cases hp
        exact ⟨more, ih.mpr hm, rfl⟩

theorem patternsOf_eq_ok_iff {lists : List (String × List String)} {key : String}
    {ps : List Pattern} :
    patternsOf lists key = .ok ps ↔
      List.Forall₂ (fun source p => Pattern.compile source = .ok p) (textsOf lists key) ps := by
  rw [patternsOf, mapError_eq_ok_iff, compileAll, compileFrom_eq_ok_iff]

theorem exists_forall₂_compile {sources : List String} :
    (∃ ps, List.Forall₂ (fun source p => Pattern.compile source = .ok p) sources ps) ↔
      ∀ source ∈ sources, ∃ p, Pattern.compile source = .ok p := by
  induction sources with
  | nil => exact ⟨fun _ _ h => absurd h List.not_mem_nil, fun _ => ⟨[], .nil⟩⟩
  | cons source rest ih =>
    rw [List.forall_mem_cons, ← ih]
    constructor
    · rintro ⟨ps, h⟩
      obtain ⟨p, more, hp, hm, -⟩ := List.forall₂_cons_left_iff.mp h
      exact ⟨⟨p, hp⟩, more, hm⟩
    · rintro ⟨⟨p, hp⟩, more, hm⟩
      exact ⟨p :: more, .cons hp hm⟩

/-! ## Sets of names -/

theorem nodup_eraseDups : ∀ (texts : List String), texts.eraseDups.Nodup := by
  intro texts
  induction hn : texts.length using Nat.strongRecOn generalizing texts with
  | ind n ih =>
    cases texts with
    | nil => exact List.nodup_nil
    | cons s rest =>
      rw [List.eraseDups_cons, List.nodup_cons, List.mem_eraseDups]
      refine ⟨by simp, ih _ ?_ _ rfl⟩
      rw [← hn, List.length_cons]
      exact Nat.lt_succ_of_le (List.length_filter_le _ _)

theorem mem_sortedSet {s : String} {texts : List String} : s ∈ sortedSet texts ↔ s ∈ texts := by
  rw [sortedSet, List.mem_eraseDups, List.mem_mergeSort]

theorem axis_mirrors {names sources : List String} {ps : List Pattern}
    (h : List.Forall₂ (fun source p => Pattern.compile source = .ok p) sources ps) :
    Axis.Mirrors ⟨sortedSet names, ps⟩ names sources where
  mem_names _ := mem_sortedSet
  nodup_names := nodup_eraseDups _
  sources_eq := by
    induction h with
    | nil => rfl
    | cons hp _ ih => rw [List.map_cons, List.map_cons, source_of_compile hp, ih]
  compiled := h

/-! ## Leaves -/

theorem unknownKeys_isEmpty {known : List String} {fields : Fields} :
    (unknownKeys known fields).isEmpty = true ↔ ∀ key ∈ fields.keys, key ∈ known := by
  rw [List.isEmpty_iff, unknownKeys, ← List.length_eq_zero_iff, List.length_mergeSort,
    List.length_eq_zero_iff, List.filter_eq_nil_iff]
  simp

theorem leaf_eq_ok_iff {fields : Fields} {c : Criteria} :
    leaf fields = .ok c ↔
      (∀ key ∈ fields.keys, key ∈ leafKeys) ∧ ∃ lists, textLists fields = .ok lists ∧
        ∃ ps₁, patternsOf lists "attributePatterns" = .ok ps₁ ∧
        ∃ ps₂, patternsOf lists "componentPatterns" = .ok ps₂ ∧
        ∃ ps₃, patternsOf lists "valuePatterns" = .ok ps₃ ∧
        c = { name := ⟨sortedSet (textsOf lists "attributes"), ps₁⟩
              component := ⟨sortedSet (textsOf lists "components"), ps₂⟩
              value := ⟨sortedSet (textsOf lists "values"), ps₃⟩ } := by
  rw [← unknownKeys_isEmpty, leaf]
  dsimp only
  cases hu : (unknownKeys leafKeys fields).isEmpty with
  | false => exact ⟨nofun, fun h => nomatch h.1⟩
  | true =>
    rw [if_neg (by simp), bind_eq_ok_iff]
    simp only [bind_eq_ok_iff, true_and]
    constructor
    · rintro ⟨lists, hl, ps₁, h₁, ps₂, h₂, ps₃, h₃, hc⟩
      exact ⟨lists, hl, ps₁, h₁, ps₂, h₂, ps₃, h₃, (Except.ok.inj hc).symm⟩
    · rintro ⟨lists, hl, ps₁, h₁, ps₂, h₂, ps₃, h₃, rfl⟩
      exact ⟨lists, hl, ps₁, h₁, ps₂, h₂, ps₃, h₃, rfl⟩

theorem mem_leafKeys_iff {key : String} :
    key ∈ leafKeys ↔ key ∈ nameKeys ∨ key ∈ patternKeys := by
  simp only [leafKeys, nameKeys, patternKeys, List.mem_cons, List.not_mem_nil, or_false]
  tauto

/-- **Exactly the leaves are read.** -/
theorem leaf_ok_iff {fields : Fields} : (∃ c, leaf fields = .ok c) ↔ IsLeaf fields := by
  constructor
  · rintro ⟨c, h⟩
    obtain ⟨hk, lists, hl, ps₁, h₁, ps₂, h₂, ps₃, h₃, -⟩ := leaf_eq_ok_iff.mp h
    rw [patternsOf_eq_ok_iff, textsOf_eq hl] at h₁ h₂ h₃
    refine ⟨fun key hkey => mem_leafKeys_iff.mp (hk key hkey), textLists_ok_iff.mp ⟨lists, hl⟩, ?_⟩
    simp only [patternKeys, List.forall_mem_cons, List.not_mem_nil, false_implies, implies_true,
      and_true]
    exact ⟨exists_forall₂_compile.mp ⟨ps₁, h₁⟩, exists_forall₂_compile.mp ⟨ps₂, h₂⟩,
      exists_forall₂_compile.mp ⟨ps₃, h₃⟩⟩
  · intro h
    obtain ⟨lists, hl⟩ := textLists_ok_iff.mpr h.texts
    have hp : ∀ key ∈ patternKeys, ∃ ps, patternsOf lists key = .ok ps := by
      intro key hkey
      obtain ⟨ps, hps⟩ := exists_forall₂_compile.mpr (h.patterns key hkey)
      exact ⟨ps, patternsOf_eq_ok_iff.mpr (by rw [textsOf_eq hl]; exact hps)⟩
    obtain ⟨ps₁, h₁⟩ := hp "attributePatterns" (by decide)
    obtain ⟨ps₂, h₂⟩ := hp "componentPatterns" (by decide)
    obtain ⟨ps₃, h₃⟩ := hp "valuePatterns" (by decide)
    exact ⟨_, leaf_eq_ok_iff.mpr ⟨fun key hkey => mem_leafKeys_iff.mpr (h.keys key hkey),
      lists, hl, ps₁, h₁, ps₂, h₂, ps₃, h₃, rfl⟩⟩

/-- **A leaf mirrors the object that it is read from.** -/
theorem leaf_mirrors {fields : Fields} {c : Criteria} (h : leaf fields = .ok c) :
    c.Mirrors fields := by
  obtain ⟨-, lists, hl, ps₁, h₁, ps₂, h₂, ps₃, h₃, rfl⟩ := leaf_eq_ok_iff.mp h
  rw [patternsOf_eq_ok_iff, textsOf_eq hl] at h₁ h₂ h₃
  rw [textsOf_eq hl, textsOf_eq hl, textsOf_eq hl]
  exact ⟨axis_mirrors h₁, axis_mirrors h₂, axis_mirrors h₃⟩

end AttributeLint.Filter
