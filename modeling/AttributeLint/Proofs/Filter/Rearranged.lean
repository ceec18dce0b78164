import AttributeLint.Proofs.Rule.Findings

/-!
# The order of options

Options may be written in another order: the keys of an object and the items of a list can change
places, and an item can be written twice, at any depth.

* `Rearranged`: the values that come of a value in this way.
* `Interchangeable`: two values that can stand for one another wherever options have a value: as a text,
  a list of texts, an expression, a list of expressions or nothing.
* `Rearranged.interchangeable`: a value and what comes of it are interchangeable.  The induction is along
  the rules of `Rearranged`, with one lemma for lists and one for objects.
* `lint_of_rearranged`: **the order of options does not matter**, neither for whether they are read nor
  for what is found in a tree.
-/

namespace AttributeLint.Filter

/-- What comes of a value by changing the order of keys and of items and by writing items twice, at any
depth.  An object has no key twice. -/
inductive Rearranged : Data → Data → Prop
  | refl (raw : Data) : Rearranged raw raw
  | trans {raw raw' raw'' : Data} (h : Rearranged raw raw') (h' : Rearranged raw' raw'') :
      Rearranged raw raw''
  | keys {fields fields' : Fields} (hn : fields.keys.Nodup) (hp : fields.Perm fields') :
      Rearranged (.object fields) (.object fields')
  | items {items items' : List Data} (hp : items.Perm items') :
      Rearranged (.list items) (.list items')
  | twice (raw : Data) (items : List Data) :
      Rearranged (.list (raw :: items)) (.list (raw :: raw :: items))
  | inField (before after : Fields) {key : String} {raw raw' : Data} (h : Rearranged raw raw') :
      Rearranged (.object (before ++ (key, raw) :: after)) (.object (before ++ (key, raw') :: after))
  | inItem (before after : List Data) {raw raw' : Data} (h : Rearranged raw raw') :
      Rearranged (.list (before ++ raw :: after)) (.list (before ++ raw' :: after))

/-- A list of expressions. -/
def IsExpressions (raw : Data) : Prop :=
  ∃ items, raw = .list items ∧ ∀ item ∈ items, IsExpression item

/-- Values that can stand for one another in options.  Of lists only matters what occurs in them. -/
structure Interchangeable (raw raw' : Data) : Prop where
  null : raw = .null ↔ raw' = .null
  text : ∀ s, raw = .str s ↔ raw' = .str s
  list : (∃ items, raw = .list items) ↔ ∃ items, raw' = .list items
  isTexts : IsTexts raw ↔ IsTexts raw'
  mem_texts : ∀ s, s ∈ textsIn raw ↔ s ∈ textsIn raw'
  isExpression : IsExpression raw ↔ IsExpression raw'
  selects : ∀ d, selects d raw = selects d raw'
  isExpressions : IsExpressions raw ↔ IsExpressions raw'
  mem_answers : ∀ d b, b ∈ answers d raw ↔ b ∈ answers d raw'

theorem Interchangeable.refl (raw : Data) : Interchangeable raw raw :=
  ⟨.rfl, fun _ => .rfl, .rfl, .rfl, fun _ => .rfl, .rfl, fun _ => rfl, .rfl, fun _ _ => .rfl⟩

theorem Interchangeable.trans {raw raw' raw'' : Data} (h : Interchangeable raw raw')
    (h' : Interchangeable raw' raw'') : Interchangeable raw raw'' where
  null := h.null.trans h'.null
  text s := (h.text s).trans (h'.text s)
  list := h.list.trans h'.list
  isTexts := h.isTexts.trans h'.isTexts
  mem_texts s := (h.mem_texts s).trans (h'.mem_texts s)
  isExpression := h.isExpression.trans h'.isExpression
  selects d := (h.selects d).trans (h'.selects d)
  isExpressions := h.isExpressions.trans h'.isExpressions
  mem_answers d b := (h.mem_answers d b).trans (h'.mem_answers d b)

/-! ## Lists -/

theorem isTexts_list {items : List Data} :
    IsTexts (.list items) ↔ ∀ raw ∈ items, ∃ s, raw = .str s := by
  constructor
  · rintro ⟨texts, h⟩ raw hr
    cases h
    obtain ⟨s, -, rfl⟩ := List.mem_map.mp hr
    exact ⟨s, rfl⟩
  · intro h
    have hmap : ∃ texts : List String, texts.map Data.str = items := by
      induction items with
      | nil => exact ⟨[], rfl⟩
      | cons raw rest ih =>
        obtain ⟨s, rfl⟩ := h raw List.mem_cons_self
        obtain ⟨texts, rfl⟩ := ih fun raw hr => h raw (List.mem_cons_of_mem _ hr)
        exact ⟨s :: texts, rfl⟩
    obtain ⟨texts, rfl⟩ := hmap
    exact ⟨texts, rfl⟩

theorem mem_textsIn_list {items : List Data} {s : String} :
    s ∈ textsIn (.list items) ↔ .str s ∈ items := by
  rw [textsIn, List.mem_filterMap]
  constructor
  · rintro ⟨raw, hr, h⟩
    split at h
    · cases h
      exact hr
    · cases h
  · intro h
    exact ⟨.str s, h, rfl⟩

theorem isExpressions_list {items : List Data} :
    IsExpressions (.list items) ↔ ∀ raw ∈ items, IsExpression raw := by
  constructor
  · rintro ⟨_, h, hi⟩
    cases h
    exact hi
  · intro h
    exact ⟨items, rfl, h⟩

theorem mem_answers_list {items : List Data} {d : Descriptor} {b : Bool} :
    b ∈ answers d (.list items) ↔ ∃ raw ∈ items, selects d raw = b := by
  rw [answers, answersOf_eq, List.mem_map]

theorem selects_list (d : Descriptor) (items : List Data) : selects d (.list items) = false := by
  rw [selects]
  · rintro key raw ⟨⟩
  · rintro fields ⟨⟩

/-- Each item of one list has its like in the other. -/
def Matching (items items' : List Data) : Prop :=
  (∀ raw ∈ items, ∃ raw' ∈ items', Interchangeable raw raw') ∧
    ∀ raw' ∈ items', ∃ raw ∈ items, Interchangeable raw raw'

namespace Matching

variable {items items' : List Data}

/-- What is as good of any two interchangeable values holds throughout both lists or throughout none. -/
theorem forall_iff (h : Matching items items') {P : Data → Prop}
    (hP : ∀ raw raw', Interchangeable raw raw' → (P raw ↔ P raw')) :
    (∀ raw ∈ items, P raw) ↔ ∀ raw ∈ items', P raw := by
  constructor
  · intro hi raw' hr'
    obtain ⟨raw, hr, he⟩ := h.2 raw' hr'
    exact (hP raw raw' he).mp (hi raw hr)
  · intro hi raw hr
    obtain ⟨raw', hr', he⟩ := h.1 raw hr
    exact (hP raw raw' he).mpr (hi raw' hr')

theorem exists_iff (h : Matching items items') {P : Data → Prop}
    (hP : ∀ raw raw', Interchangeable raw raw' → (P raw ↔ P raw')) :
    (∃ raw ∈ items, P raw) ↔ ∃ raw ∈ items', P raw := by
  constructor
  · rintro ⟨raw, hr, hp⟩
    obtain ⟨raw', hr', he⟩ := h.1 raw hr
    exact ⟨raw', hr', (hP raw raw' he).mp hp⟩
  · rintro ⟨raw', hr', hp⟩
    obtain ⟨raw, hr, he⟩ := h.2 raw' hr'
    exact ⟨raw, hr, (hP raw raw' he).mpr hp⟩

theorem interchangeable (h : Matching items items') :
    Interchangeable (.list items) (.list items') where
  null := by simp
  text s := by simp
  list := iff_of_true ⟨items, rfl⟩ ⟨items', rfl⟩
  isTexts := by
    rw [isTexts_list, isTexts_list]
    exact h.forall_iff fun raw raw' he => exists_congr he.text
  mem_texts s := by
    have hmem := h.exists_iff (P := (· = .str s)) fun raw raw' he => he.text s
    simpa [mem_textsIn_list] using hmem
  isExpression := by
    refine iff_of_false ?_ ?_ <;> rintro ⟨⟩
  selects d := by rw [selects_list, selects_list]
  isExpressions := by
    rw [isExpressions_list, isExpressions_list]
    exact h.forall_iff fun raw raw' he => he.isExpression
  mem_answers d b := by
    rw [mem_answers_list, mem_answers_list]
    exact h.exists_iff fun raw raw' he => by rw [he.selects d]

theorem of_perm (h : items.Perm items') : Matching items items' :=
  ⟨fun raw hr => ⟨raw, h.mem_iff.mp hr, .refl raw⟩, fun raw hr => ⟨raw, h.mem_iff.mpr hr, .refl raw⟩⟩

theorem of_twice (raw : Data) (items : List Data) : Matching (raw :: items) (raw :: raw :: items) := by
  refine ⟨fun other ho => ⟨other, List.mem_cons_of_mem _ ho, .refl other⟩, fun other ho => ?_⟩
  exact ⟨other, by simpa using ho, .refl other⟩

theorem of_item {raw raw' : Data} (h : Interchangeable raw raw') (before after : List Data) :
    Matching (before ++ raw :: after) (before ++ raw' :: after) := by
  constructor
  · intro other ho
    rcases List.mem_append.mp ho with ho | ho
    · exact ⟨other, List.mem_append_left _ ho, .refl other⟩
    · rcases List.mem_cons.mp ho with rfl | ho
      · exact ⟨raw', by simp, h⟩
      · exact ⟨other, by simp [ho], .refl other⟩
  · intro other ho
    rcases List.mem_append.mp ho with ho | ho
    · exact ⟨other, List.mem_append_left _ ho, .refl other⟩
    · rcases List.mem_cons.mp ho with rfl | ho
      · exact ⟨raw, by simp, h⟩
      · exact ⟨other, by simp [ho], .refl other⟩

end Matching

/-! ## Objects -/

theorem isExpression_single {key : String} {raw : Data} :
    IsExpression (.object [(key, raw)]) ↔
      (key = "and" ∨ key = "or") ∧ IsExpressions raw ∨ key = "not" ∧ IsExpression raw ∨
        IsLeaf [(key, raw)] := by
  constructor
  · intro h
    cases h with
    | and hi => exact Or.inl ⟨Or.inl rfl, _, rfl, hi⟩
    | or hi => exact Or.inl ⟨Or.inr rfl, _, rfl, hi⟩
    | not hn => exact Or.inr (Or.inl ⟨rfl, hn⟩)
    | leaf hl => exact Or.inr (Or.inr hl)
  · rintro (⟨rfl | rfl, _, rfl, hi⟩ | ⟨rfl, hn⟩ | hl)
    · exact .and hi
    · exact .or hi
    · exact .not hn
    · exact .leaf hl

theorem isExpression_of_not_single {fields : Fields} (h : ∀ entry, fields ≠ [entry]) :
    IsExpression (.object fields) ↔ IsLeaf fields := by
  constructor
  · intro he
    cases he with
    | and _ => exact absurd rfl (h _)
    | or _ => exact absurd rfl (h _)
    | not _ => exact absurd rfl (h _)
    | leaf hl => exact hl
  · exact .leaf

theorem selects_of_not_single {fields : Fields} (h : ∀ entry, fields ≠ [entry]) (d : Descriptor) :
    selects d (.object fields) = leafSelects d fields := by
  rw [selects]
  intro key raw hf
  exact h (key, raw) hf

/-- Fields under which leaves list the same texts. -/
structure SameTexts (fields fields' : Fields) : Prop where
  mem_keys : ∀ key, key ∈ fields.keys ↔ key ∈ fields'.keys
  isTexts : (∀ entry ∈ fields, IsTexts entry.2) ↔ ∀ entry ∈ fields', IsTexts entry.2
  mem_texts : ∀ key s, s ∈ textsUnder fields key ↔ s ∈ textsUnder fields' key

namespace SameTexts

variable {fields fields' : Fields}

theorem isLeaf_iff (h : SameTexts fields fields') : IsLeaf fields ↔ IsLeaf fields' := by
  constructor
  · intro hl
    refine ⟨fun key hk => hl.keys key ((h.mem_keys key).mpr hk), h.isTexts.mp hl.texts, ?_⟩
    exact fun key hk source hs => hl.patterns key hk source ((h.mem_texts key source).mpr hs)
  · intro hl
    refine ⟨fun key hk => hl.keys key ((h.mem_keys key).mp hk), h.isTexts.mpr hl.texts, ?_⟩
    exact fun key hk source hs => hl.patterns key hk source ((h.mem_texts key source).mp hs)

theorem leafSelects_eq (h : SameTexts fields fields') (d : Descriptor) :
    leafSelects d fields = leafSelects d fields' := by
  have hany : ∀ key, (textsUnder fields key).any (textMatches d key) =
      (textsUnder fields' key).any (textMatches d key) := by
    intro key
    rw [Bool.eq_iff_iff, List.any_eq_true, List.any_eq_true]
    simp only [h.mem_texts key]
  simp only [Filter.leafSelects_eq, hany]

/-- Objects are interchangeable if a single field of one is a single field of the other, with values
that are, and leaves list the same texts in both. -/
theorem interchangeable (h : SameTexts fields fields')
    (hsingle : (∃ key raw raw', fields = [(key, raw)] ∧ fields' = [(key, raw')] ∧
        Interchangeable raw raw') ∨
      (∀ entry, fields ≠ [entry]) ∧ ∀ entry, fields' ≠ [entry]) :
    Interchangeable (.object fields) (.object fields') where
  null := by simp
  text s := by simp
  list := by simp
  isTexts := by simp [IsTexts]
  mem_texts s := Iff.rfl
  isExpression := by
    rcases hsingle with ⟨key, raw, raw', rfl, rfl, he⟩ | ⟨hs, hs'⟩
    · rw [isExpression_single, isExpression_single, he.isExpressions, he.isExpression, h.isLeaf_iff]
    · rw [isExpression_of_not_single hs, isExpression_of_not_single hs', h.isLeaf_iff]
  selects d := by
    rcases hsingle with ⟨key, raw, raw', rfl, rfl, he⟩ | ⟨hs, hs'⟩
    · have hall : (answers d raw).all id = (answers d raw').all id := by
        rw [Bool.eq_iff_iff, List.all_eq_true, List.all_eq_true]
        simp only [he.mem_answers d]
      have hany : (answers d raw).any id = (answers d raw').any id := by
        rw [Bool.eq_iff_iff, List.any_eq_true, List.any_eq_true]
        simp only [he.mem_answers d]
      rw [selects, selects, hall, hany, he.selects d, h.leafSelects_eq]
    · rw [selects_of_not_single hs, selects_of_not_single hs', h.leafSelects_eq]
  isExpressions := by simp [IsExpressions]
  mem_answers d b := by simp [answers]

theorem of_perm (hn : fields.keys.Nodup) (hp : fields.Perm fields') : SameTexts fields fields' where
  mem_keys key := (hp.map _).mem_iff
  isTexts := by simp only [hp.mem_iff]
  mem_texts key s := by rw [textsUnder, textsUnder, Data.field_perm hp hn]

end SameTexts

section InField

variable {key : String} {raw raw' : Data} (h : Interchangeable raw raw') (before after : Fields)
include h

/-- Wherever a field is looked up, interchangeable values are found. -/
theorem field_inField (other : String) :
    Interchangeable ((Data.object (before ++ (key, raw) :: after)).field other)
      ((Data.object (before ++ (key, raw') :: after)).field other) := by
  induction before with
  | nil =>
    rw [List.nil_append, List.nil_append, Data.field_cons, Data.field_cons]
    split
    · exact h
    · exact .refl _
  | cons entry before ih =>
    obtain ⟨k, d⟩ := entry
    rw [List.cons_append, List.cons_append, Data.field_cons, Data.field_cons]
    split
    · exact .refl _
    · exact ih

theorem sameTexts_inField :
    SameTexts (before ++ (key, raw) :: after) (before ++ (key, raw') :: after) where
  mem_keys other := by simp [Fields.keys]
  isTexts := by simp only [List.forall_mem_append, List.forall_mem_cons, h.isTexts]
  mem_texts other := (field_inField h before after other).mem_texts

theorem interchangeable_inField :
    Interchangeable (.object (before ++ (key, raw) :: after))
      (.object (before ++ (key, raw') :: after)) := by
  refine (sameTexts_inField h before after).interchangeable ?_
  have hlength : ∀ (d : Data) (entry : String × Data), before ++ (key, d) :: after = [entry] →
      before = [] ∧ after = [] := by
    intro d entry he
    have := congrArg List.length he
    simp only [List.length_append, List.length_cons, List.length_nil] at this
    exact ⟨List.eq_nil_of_length_eq_zero (by omega), List.eq_nil_of_length_eq_zero (by omega)⟩
  by_cases hnil : before = [] ∧ after = []
  · obtain ⟨rfl, rfl⟩ := hnil
    exact Or.inl ⟨key, raw, raw', rfl, rfl, h⟩
  · exact Or.inr ⟨fun entry he => hnil (hlength raw entry he),
      fun entry he => hnil (hlength raw' entry he)⟩

end InField

/-- **A value and what comes of it by rearranging are interchangeable.** -/
theorem Rearranged.interchangeable {raw raw' : Data} (h : Rearranged raw raw') :
    Interchangeable raw raw' := by
  induction h with
  | refl raw => exact .refl raw
  | trans _ _ ih ih' => exact ih.trans ih'
  | @keys fields fields' hn hp =>
    refine (SameTexts.of_perm hn hp).interchangeable ?_
    match fields, hp with
    | [(key, raw)], hp =>
      exact Or.inl ⟨key, raw, raw, rfl, List.perm_singleton.mp hp.symm, .refl raw⟩
    | [], hp =>
      obtain rfl := hp.nil_eq
      exact Or.inr ⟨nofun, nofun⟩
    | _ :: _ :: rest, hp =>
      refine Or.inr ⟨nofun, fun entry he => ?_⟩
      have hlength := hp.length_eq
      rw [he] at hlength
      simp at hlength
  | items hp => exact (Matching.of_perm hp).interchangeable
  | twice raw items => exact (Matching.of_twice raw items).interchangeable
  | inField before after _ ih => exact interchangeable_inField ih before after
  | inItem before after _ ih => exact (Matching.of_item ih before after).interchangeable

/-! ## Clauses and options -/

theorem isClause_iff {clause : Data} :
    IsClause clause ↔ clause = .null ∨ IsExpression clause ∨ IsExpressions clause := by
  constructor
  · intro h
    cases h with
    | null => exact Or.inl rfl
    | single he => exact Or.inr (Or.inl he)
    | list hi => exact Or.inr (Or.inr ⟨_, rfl, hi⟩)
  · rintro (rfl | he | ⟨_, rfl, hi⟩)
    · exact .null
    · exact .single he
    · exact .list hi

theorem written_single {clause : Data} (hn : clause ≠ .null)
    (hl : ¬ ∃ items, clause = .list items) : written clause = [clause] := by
  cases clause with
  | null => exact absurd rfl hn
  | list items => exact absurd ⟨items, rfl⟩ hl
  | _ => rfl

namespace Interchangeable

variable {raw raw' : Data}

theorem isClause (h : Interchangeable raw raw') : IsClause raw ↔ IsClause raw' := by
  rw [isClause_iff, isClause_iff, h.null, h.isExpression, h.isExpressions]

/-- For `only` and `ignore`, interchangeable values write nothing or both something, and one of the
expressions that they write matches, or none. -/
theorem written (h : Interchangeable raw raw') :
    (written raw).isEmpty = (written raw').isEmpty ∧
      ∀ d, (written raw).any (Filter.selects d) = (written raw').any (Filter.selects d) := by
  by_cases hn : raw = .null
  · rw [hn, h.null.mp hn]
    exact ⟨rfl, fun _ => rfl⟩
  by_cases hl : ∃ items, raw = .list items
  · obtain ⟨items', hl'⟩ := h.list.mp hl
    obtain ⟨items, hl⟩ := hl
    have hmem := h.mem_answers
    simp only [hl, hl', mem_answers_list] at hmem
    rw [hl, hl']
    constructor
    · rw [Bool.eq_iff_iff, Filter.written, Filter.written, List.isEmpty_iff, List.isEmpty_iff,
        List.eq_nil_iff_forall_not_mem, List.eq_nil_iff_forall_not_mem]
      constructor
      · intro hi raw hr
        obtain ⟨other, ho, -⟩ := (hmem default _).mpr ⟨raw, hr, rfl⟩
        exact hi other ho
      · intro hi raw hr
        obtain ⟨other, ho, -⟩ := (hmem default _).mp ⟨raw, hr, rfl⟩
        exact hi other ho
    · intro d
      rw [Bool.eq_iff_iff, Filter.written, Filter.written, List.any_eq_true, List.any_eq_true]
      exact hmem d true
  · rw [written_single hn hl, written_single (fun hn' => hn (h.null.mpr hn'))
      (fun hl' => hl (h.list.mpr hl'))]
    refine ⟨rfl, fun d => ?_⟩
    rw [List.any_cons, List.any_cons, h.selects d]

end Interchangeable

/-- Options with the same keys and interchangeable values. -/
theorem options_of_fields {fields fields' : Fields}
    (hk : ∀ key, key ∈ fields.keys ↔ key ∈ fields'.keys)
    (hf : ∀ key, Interchangeable ((Data.object fields).field key) ((Data.object fields').field key)) :
    (IsOptions (.object fields) ↔ IsOptions (.object fields')) ∧
      ∀ d, keeps (.object fields) d = keeps (.object fields') d := by
  have honly := (hf "only").written
  have hignore := (hf "ignore").written
  constructor
  · constructor
    · rintro (_ | ⟨hkeys, ho, hi⟩)
      exact .object (fun key hkey => hkeys key ((hk key).mpr hkey)) ((hf _).isClause.mp ho)
        ((hf _).isClause.mp hi)
    · rintro (_ | ⟨hkeys, ho, hi⟩)
      exact .object (fun key hkey => hkeys key ((hk key).mp hkey)) ((hf _).isClause.mpr ho)
        ((hf _).isClause.mpr hi)
  · intro d
    rw [keeps, keeps, honly.1, honly.2 d, hignore.2 d]

/-- Options that are rearranged are options, and keep the same attributes. -/
theorem Rearranged.options {raw raw' : Data} (h : Rearranged raw raw') :
    (IsOptions raw ↔ IsOptions raw') ∧ ∀ d, keeps raw d = keeps raw' d := by
  have hlist : ∀ items, ¬ IsOptions (.list items) := by
    rintro items ⟨⟩
  induction h with
  | refl raw => exact ⟨.rfl, fun _ => rfl⟩
  | trans _ _ ih ih' => exact ⟨ih.1.trans ih'.1, fun d => (ih.2 d).trans (ih'.2 d)⟩
  | keys hn hp =>
    refine options_of_fields (fun key => (hp.map _).mem_iff) fun key => ?_
    rw [Data.field_perm hp hn]
    exact .refl _
  | inField before after h _ =>
    exact options_of_fields (sameTexts_inField h.interchangeable before after).mem_keys
      (field_inField h.interchangeable before after)
  | items _ => exact ⟨iff_of_false (hlist _) (hlist _), fun _ => rfl⟩
  | twice _ _ => exact ⟨iff_of_false (hlist _) (hlist _), fun _ => rfl⟩
  | inItem _ _ _ _ => exact ⟨iff_of_false (hlist _) (hlist _), fun _ => rfl⟩

/-- **The order of options does not matter.**  Rearranged options are read exactly if the options are,
and linting gives the same with both, whatever the tree. -/
theorem lint_of_rearranged {raw raw' : Data} (h : Rearranged raw raw') :
    ((∃ o, Options.read raw = .ok o) ↔ ∃ o, Options.read raw' = .ok o) ∧
      ∀ o o', Options.read raw = .ok o → Options.read raw' = .ok o' →
        ∀ file tree, Rule.lint ⟨o⟩ file tree = Rule.lint ⟨o'⟩ file tree := by
  obtain ⟨hoptions, hkeeps⟩ := h.options
  constructor
  · constructor
    · rintro ⟨o, ho⟩
      exact options_read_complete (hoptions.mp (options_read_sound ho).1)
    · rintro ⟨o, ho⟩
      exact options_read_complete (hoptions.mpr (options_read_sound ho).1)
  · intro o o' ho ho' file tree
    refine lint_congr (fun d => ?_) file tree
    rw [reports_eq_keeps ho, reports_eq_keeps ho', hkeeps]

theorem lint_of_rearranged_sample :
    let boxes : Data := .object [("components", .list [.str "Box"])]
    let leaf : Data := .object [("values", .list [.str "x"]), ("attributes", .list [.str "a", .str "b"])]
    let leaf' : Data :=
      .object [("attributes", .list [.str "b", .str "a", .str "b"]), ("values", .list [.str "x"])]
    let raw : Data := .object [("only", .list [.object [("not", leaf)], boxes]), ("ignore", .null)]
    let raw' : Data := .object [("ignore", .null), ("only", .list [boxes, .object [("not", leaf')]])]
    let e : Expression := .not (.criteria { name := ⟨["a", "b"], []⟩, value := ⟨["x"], []⟩ })
    let e' : Expression := .criteria { component := ⟨["Box"], []⟩ }
    Rearranged raw raw' ∧ Options.read raw = .ok ⟨[e, e'], []⟩ ∧
      Options.read raw' = .ok ⟨[e', e], []⟩ ∧
      ∀ file tree, Rule.lint ⟨⟨[e, e'], []⟩⟩ file tree = Rule.lint ⟨⟨[e', e], []⟩⟩ file tree := by
  intro boxes leaf leaf' raw raw' e e'
  have htexts : Rearranged (.list [.str "a", .str "b"]) (.list [.str "b", .str "a", .str "b"]) :=
    .trans (.items (.swap _ _ _)) (.trans (.twice _ _) (.items ((List.Perm.swap _ _ _).cons _)))
  have hleaf : Rearranged leaf leaf' :=
    .trans (.inField [("values", _)] [] htexts)
      (.keys (by decide) (.swap _ _ _))
  have hitems : Rearranged (.list [.object [("not", leaf)], boxes])
      (.list [boxes, .object [("not", leaf')]]) :=
    .trans (.inItem [] [boxes] (.inField [] [] hleaf))
      (.items (.swap _ _ _))
  have h : Rearranged raw raw' :=
    .trans (.inField [] [("ignore", .null)] hitems) (.keys (by decide) (.swap _ _ _))
  have ho : Options.read raw = .ok ⟨[e, e'], []⟩ := by cbv
  have ho' : Options.read raw' = .ok ⟨[e', e], []⟩ := by cbv
  exact ⟨h, ho, ho', (lint_of_rearranged h).2 _ _ ho ho'⟩

end AttributeLint.Filter
