import AttributeLint.Proofs.Filter.Selection

/-!
# Surface forms of options

The same options can be written with large leaves or with many small ones, and with a list of
expressions or with a single one.

* `spread`: an expression with each leaf, at any depth, replaced by any of its texts, each in a leaf of
  its own.
* `spreadOptions`: options with all expressions spread, and each list that is not empty replaced by any
  of its items.
* `IsExpression.spread`, `selects_spread`: an expression that is spread is an expression and matches the
  same attributes.
* `reports_spreadOptions`: **options that are spread report the same attributes.**  An empty list for
  `only` is as good as none, while an expression for `only` that matches nothing leaves nothing to
  report.
-/

namespace AttributeLint.Filter

/-! ## Spreading -/

/-- Any of some expressions. -/
def anyOf (items : List Data) : Data :=
  .object [("or", .list items)]

/-- A leaf with one text under one key. -/
def smallLeaf (key text : String) : Data :=
  .object [(key, .list [.str text])]

/-- The texts of a leaf, each in a leaf of its own. -/
def smallLeaves (fields : Fields) : List Data :=
  leafKeys.flatMap fun key => (textsUnder fields key).map (smallLeaf key)

mutual

/-- An expression with its leaves replaced by small ones. -/
def spread : Data → Data
  | .object [(key, raw)] =>
    if key == "and" || key == "or" then .object [(key, spreadList raw)]
    else if key == "not" then .object [(key, spread raw)]
    else anyOf (smallLeaves [(key, raw)])
  | .object fields => anyOf (smallLeaves fields)
  | raw => raw

/-- A list of expressions with their leaves replaced by small ones. -/
def spreadList : Data → Data
  | .list items => .list (spreadItems items)
  | raw => raw

/-- Expressions with their leaves replaced by small ones. -/
def spreadItems : List Data → List Data
  | [] => []
  | raw :: rest => spread raw :: spreadItems rest

end

/-- The value of `only` or `ignore` with its expressions spread, and as a single expression unless there
is none. -/
def spreadClause (clause : Data) : Data :=
  match clause with
  | .null => .null
  | .list [] => .list []
  | .list items => anyOf (items.map spread)
  | _ => spread clause

/-- Options with both clauses spread. -/
def spreadOptions (raw : Data) : Data :=
  match raw with
  | .object fields => .object (fields.map fun entry => (entry.1, spreadClause entry.2))
  | _ => raw

theorem spreadItems_eq (items : List Data) : spreadItems items = items.map spread := by
  induction items with
  | nil => rw [spreadItems, List.map_nil]
  | cons raw rest ih => rw [spreadItems, ih, List.map_cons]

theorem spread_and (items : List Data) :
    spread (.object [("and", .list items)]) = .object [("and", .list (items.map spread))] := by
  rw [spread, if_pos (by decide), spreadList, spreadItems_eq]

theorem spread_or (items : List Data) : spread (anyOf items) = anyOf (items.map spread) := by
  rw [anyOf, spread, if_pos (by decide), spreadList, spreadItems_eq, anyOf]

theorem spread_not (raw : Data) :
    spread (.object [("not", raw)]) = .object [("not", spread raw)] := by
  rw [spread, if_neg (by decide), if_pos (by decide)]

theorem spread_leaf {fields : Fields} (h : ∀ key ∈ fields.keys, key ∈ leafKeys) :
    spread (.object fields) = anyOf (smallLeaves fields) := by
  match fields with
  | [] => rw [spread]; nofun
  | [(key, raw)] =>
    have hk : key ∈ leafKeys := h key List.mem_cons_self
    have hcombine : ¬ (key == "and" || key == "or") = true := by
      rw [Bool.or_eq_true, beq_iff_eq, beq_iff_eq]
      rintro (rfl | rfl) <;> exact absurd hk (by decide)
    have hnot : ¬ (key == "not") = true := by
      rw [beq_iff_eq]
      rintro rfl
      exact absurd hk (by decide)
    rw [spread, if_neg hcombine, if_neg hnot]
  | _ :: _ :: _ => rw [spread]; nofun

/-! ## Small leaves -/

theorem textsUnder_small (key text other : String) :
    textsUnder [(key, .list [.str text])] other = if key = other then [text] else [] := by
  rw [textsUnder, Data.field_cons, Data.field_nil]
  split
  · rfl
  · rfl

theorem isLeaf_small {key text : String} (hk : key ∈ leafKeys)
    (hp : key ∈ patternKeys → ∃ p, Pattern.compile text = .ok p) :
    IsLeaf [(key, .list [.str text])] where
  keys other ho := by
    obtain rfl : other = key := by simpa [Fields.keys] using ho
    exact mem_leafKeys_iff.mp hk
  texts entry he := by
    obtain rfl := List.mem_singleton.mp he
    exact ⟨[text], rfl⟩
  patterns other ho source hs := by
    rw [textsUnder_small] at hs
    split at hs
    · next h =>
      obtain rfl := List.mem_singleton.mp hs
      exact hp (h ▸ ho)
    · cases hs

/-- A small leaf matches if its text does. -/
theorem selects_small {key text : String} (hk : key ∈ leafKeys)
    (hp : key ∈ patternKeys → ∃ p, Pattern.compile text = .ok p) (d : Descriptor) :
    selects d (smallLeaf key text) = textMatches d key text := by
  have hone : ∀ other, (textsUnder [(key, .list [.str text])] other).any (textMatches d other) =
      (decide (other = key) && textMatches d key text) := by
    intro other
    rw [textsUnder_small]
    by_cases h : key = other
    · subst h
      simp
    · simp [h, Ne.symm h]
  rw [smallLeaf, selects_of_isLeaf (isLeaf_small hk hp), leafSelects_eq]
  simp only [hone]
  rw [Bool.eq_iff_iff, List.any_eq_true]
  constructor
  · rintro ⟨other, -, h⟩
    exact (Bool.and_eq_true_iff.mp h).2
  · intro h
    exact ⟨key, hk, by simp [h]⟩

theorem mem_smallLeaves {fields : Fields} {raw : Data} :
    raw ∈ smallLeaves fields ↔
      ∃ key ∈ leafKeys, ∃ text ∈ textsUnder fields key, smallLeaf key text = raw := by
  simp [smallLeaves]

/-- The texts of a leaf can be compiled where they stand for patterns. -/
theorem IsLeaf.compiles {fields : Fields} (h : IsLeaf fields) {key text : String}
    (ht : text ∈ textsUnder fields key) :
    key ∈ patternKeys → ∃ p, Pattern.compile text = .ok p :=
  fun hp => h.patterns key hp text ht

/-- **One of the small leaves matches exactly if the leaf does.** -/
theorem any_smallLeaves {fields : Fields} (h : IsLeaf fields) (d : Descriptor) :
    (smallLeaves fields).any (selects d) = leafSelects d fields := by
  rw [leafSelects_eq, Bool.eq_iff_iff]
  simp only [List.any_eq_true, mem_smallLeaves]
  constructor
  · rintro ⟨_, ⟨key, hk, text, ht, rfl⟩, hs⟩
    rw [selects_small hk (h.compiles ht)] at hs
    exact ⟨key, hk, text, ht, hs⟩
  · rintro ⟨key, hk, text, ht, hs⟩
    refine ⟨_, ⟨key, hk, text, ht, rfl⟩, ?_⟩
    rw [selects_small hk (h.compiles ht)]
    exact hs

/-! ## Expressions -/

/-- An expression that is spread is an expression. -/
theorem IsExpression.spread {raw : Data} (h : IsExpression raw) : IsExpression (spread raw) := by
  induction h with
  | and _ ih =>
    rw [spread_and]
    exact .and (List.forall_mem_map.mpr ih)
  | or _ ih =>
    rw [← anyOf, spread_or]
    exact .or (List.forall_mem_map.mpr ih)
  | not _ ih =>
    rw [spread_not]
    exact .not ih
  | leaf hl =>
    rw [spread_leaf fun key hk => mem_leafKeys_iff.mpr (hl.keys key hk)]
    refine .or fun raw hr => ?_
    obtain ⟨key, hk, text, ht, rfl⟩ := mem_smallLeaves.mp hr
    exact .leaf (isLeaf_small hk (hl.compiles ht))

/-- **An expression that is spread matches the same attributes.** -/
theorem selects_spread {raw : Data} (h : IsExpression raw) (d : Descriptor) :
    selects d (spread raw) = selects d raw := by
  induction h with
  | and _ ih =>
    have hall := congrArg (List.all · id) (List.map_congr_left ih)
    rw [spread_and, selects_and, selects_and, List.all_map]
    rwa [List.all_map, List.all_map] at hall
  | or _ ih =>
    have hany := congrArg (List.any · id) (List.map_congr_left ih)
    rw [← anyOf, spread_or, anyOf, anyOf, selects_or, selects_or, List.any_map]
    rwa [List.any_map, List.any_map] at hany
  | not _ ih => rw [spread_not, selects_not, selects_not, ih]
  | leaf hl =>
    rw [spread_leaf fun key hk => mem_leafKeys_iff.mpr (hl.keys key hk), anyOf, selects_or,
      any_smallLeaves hl, selects_of_isLeaf hl]

/-! ## Options -/

theorem spreadClause_of_object (fields : Fields) :
    spreadClause (.object fields) = spread (.object fields) := rfl

/-- A clause that is spread is a clause, it is empty only if the clause is, and matches the same
attributes. -/
theorem spreadClause_clause {clause : Data} (h : IsClause clause) :
    IsClause (spreadClause clause) ∧
      (written (spreadClause clause)).isEmpty = (written clause).isEmpty ∧
      ∀ d, (written (spreadClause clause)).any (selects d) = (written clause).any (selects d) := by
  cases h with
  | null => exact ⟨.null, rfl, fun _ => rfl⟩
  | single he =>
    obtain ⟨fields, rfl⟩ := he.isObject
    rw [spreadClause_of_object, he.spread.written_eq, he.written_eq]
    refine ⟨.single he.spread, rfl, fun d => ?_⟩
    rw [List.any_cons, List.any_cons, selects_spread he]
  | @list items hi =>
    cases items with
    | nil => exact ⟨.list nofun, rfl, fun _ => rfl⟩
    | cons raw rest =>
      have hor : IsExpression (anyOf (raw :: rest)) := .or hi
      have hspread : spreadClause (.list (raw :: rest)) = spread (anyOf (raw :: rest)) :=
        (spread_or _).symm
      rw [hspread, hor.spread.written_eq]
      refine ⟨.single hor.spread, rfl, fun d => ?_⟩
      rw [List.any_cons, List.any_nil, Bool.or_false, selects_spread hor, anyOf, selects_or]
      rfl

theorem isOptions_spread {raw : Data} (h : IsOptions raw) : IsOptions (spreadOptions raw) := by
  cases h with
  | null => exact .null
  | object hk ho hi =>
    refine .object ?_ ?_ ?_
    · rwa [Fields.keys_map]
    · rw [Data.field_map spreadClause rfl]
      exact (spreadClause_clause ho).1
    · rw [Data.field_map spreadClause rfl]
      exact (spreadClause_clause hi).1

theorem keeps_spread {raw : Data} (h : IsOptions raw) (d : Descriptor) :
    keeps (spreadOptions raw) d = keeps raw d := by
  cases h with
  | null => rfl
  | object _ ho hi =>
    obtain ⟨-, hempty, hany⟩ := spreadClause_clause ho
    obtain ⟨-, -, hignore⟩ := spreadClause_clause hi
    rw [spreadOptions, keeps, keeps, Data.field_map spreadClause rfl,
      Data.field_map spreadClause rfl, hempty, hany, hignore]

/-! ## Empty clauses -/

theorem unknownKeys_put {known : List String} {key : String} (hk : key ∈ known) (fields : Fields)
    (raw : Data) : unknownKeys known (fields.put key raw) = unknownKeys known fields := by
  have hfilter : (Fields.keys (fields.put key raw)).filter (fun k => !known.contains k) =
      (Fields.keys fields).filter (fun k => !known.contains k) := by
    induction fields with
    | nil => simp [Fields.put, Fields.keys, hk]
    | cons entry rest ih =>
      obtain ⟨k, old⟩ := entry
      rw [Fields.put]
      split
      · rfl
      · simp only [Fields.keys, List.map_cons, List.filter_cons] at ih ⊢
        rw [ih]
  rw [unknownKeys, unknownKeys, hfilter]

theorem unknownKeys_without {known : List String} {key : String} (hk : key ∈ known)
    (fields : Fields) :
    unknownKeys known (fields.filter (·.1 != key)) = unknownKeys known fields := by
  have hfilter : (Fields.keys (fields.filter (·.1 != key))).filter (fun k => !known.contains k) =
      (Fields.keys fields).filter (fun k => !known.contains k) := by
    induction fields with
    | nil => rfl
    | cons entry rest ih =>
      obtain ⟨k, old⟩ := entry
      by_cases h : k = key
      · simpa [Fields.keys, h, hk] using ih
      · have hcons : (Fields.keys ((k, old) :: rest.filter (·.1 != key))).filter
            (fun k => !known.contains k) =
              (Fields.keys ((k, old) :: rest)).filter (fun k => !known.contains k) := by
          simp only [Fields.keys, List.map_cons, List.filter_cons] at ih ⊢
          rw [ih]
        rwa [List.filter_cons_of_pos (by simpa using h)]
  rw [unknownKeys, unknownKeys, hfilter]

/-- An empty list for `only` is as good as none. -/
theorem read_empty_only (fields : Fields) :
    Options.read (.object (fields.put "only" (.list []))) =
      Options.read (.object (fields.filter (·.1 != "only"))) := by
  have hknown : "only" ∈ optionKeys := by decide
  have hother : ¬ "only" = "ignore" := by decide
  rw [Options.read, Options.read]
  dsimp only
  rw [unknownKeys_put hknown, unknownKeys_without hknown, Data.field_put, Data.field_put,
    Data.field_without, Data.field_without, if_pos rfl, if_pos rfl, if_neg hother, if_neg hother]
  rfl

/-- An expression for `only` that matches nothing leaves nothing to report. -/
theorem reports_of_void {fields : Fields} {o : Options} (h : Options.read (.object fields) = .ok o)
    {e : Data} (he : IsExpression e) (hvoid : ∀ d, selects d e = false) :
    ∃ o', Options.read (.object (fields.put "only" e)) = .ok o' ∧ ∀ d, o'.reports d = false := by
  cases (options_read_sound h).1 with
  | object hk _ hi =>
    have hoptions : IsOptions (.object (fields.put "only" e)) := by
      refine .object (fun key hkey => ?_) ?_ ?_
      · rcases Fields.mem_keys_put.mp hkey with rfl | hkey
        · exact Or.inl rfl
        · exact hk key hkey
      · rw [Data.field_put, if_pos rfl]
        exact .single he
      · rwa [Data.field_put, if_neg (by decide)]
    obtain ⟨o', ho'⟩ := options_read_complete hoptions
    refine ⟨o', ho', fun d => ?_⟩
    rw [reports_eq_keeps ho', keeps, Data.field_put, if_pos rfl]
    simp [he.written_eq, hvoid d]

/-- **Surface forms are interchangeable.**  Options that are spread are read too and report the same
attributes; an empty list for `only` is as good as none; and any of no expressions, or a leaf without
texts, leaves nothing to report if it stands for `only`. -/
theorem reports_spreadOptions :
    (∀ raw o, Options.read raw = .ok o → ∃ o', Options.read (spreadOptions raw) = .ok o' ∧
      ∀ d, o'.reports d = o.reports d) ∧
    (∀ fields : Fields, Options.read (.object (fields.put "only" (.list []))) =
      Options.read (.object (fields.filter (·.1 != "only")))) ∧
    ∀ (fields : Fields) o, Options.read (.object fields) = .ok o →
      ∀ e, e = anyOf [] ∨ e = .object [] →
        ∃ o', Options.read (.object (fields.put "only" e)) = .ok o' ∧ ∀ d, o'.reports d = false := by
  refine ⟨fun raw o h => ?_, read_empty_only, fun fields o h e he => ?_⟩
  · have hoptions := (options_read_sound h).1
    obtain ⟨o', ho'⟩ := options_read_complete (isOptions_spread hoptions)
    refine ⟨o', ho', fun d => ?_⟩
    rw [reports_eq_keeps ho', reports_eq_keeps h, keeps_spread hoptions]
  · rcases he with rfl | rfl
    · exact reports_of_void h (.or nofun) fun d => selects_or d []
    · have hleaf : IsLeaf [] := ⟨nofun, nofun, fun _ _ _ hs => nomatch hs⟩
      exact reports_of_void h (.leaf hleaf) fun d => selects_of_isLeaf hleaf d

theorem reports_spreadOptions_sample :
    let boxes : Data := .object [("components", .list [.str "Box"])]
    let raw : Data := .object [
      ("only", .list [
        .object [("valuePatterns", .list [.str "x$"]), ("attributes", .list [.str "b", .str "a"])],
        .object [("not", .object [])]]),
      ("ignore", boxes)]
    let o : Options := ⟨[
      .criteria {
        name := ⟨["a", "b"], []⟩
        value := ⟨[], [⟨"x\\Z", .cat (.code false 0x78) (.anchor .textEnd), { ascii := true }⟩]⟩ },
      .not (.criteria {})], [.criteria { component := ⟨["Box"], []⟩ }]⟩
    let small : Data := .object [
      ("only", anyOf [
        anyOf [smallLeaf "attributes" "b", smallLeaf "attributes" "a", smallLeaf "valuePatterns" "x$"],
        .object [("not", anyOf [])]]),
      ("ignore", anyOf [boxes])]
    Options.read raw = .ok o ∧ spreadOptions raw = small ∧
      (∃ o', Options.read small = .ok o' ∧ ∀ d, o'.reports d = o.reports d) ∧
      ∃ o', Options.read (.object [("only", anyOf []), ("ignore", boxes)]) = .ok o' ∧
        ∀ d, o'.reports d = false := by
  intro boxes raw o small
  have ho : Options.read raw = .ok o := by cbv
  have hs : spreadOptions raw = small := by cbv
  exact ⟨ho, hs, hs ▸ reports_spreadOptions.1 raw o ho,
    reports_spreadOptions.2.2 _ o ho _ (Or.inl rfl)⟩

end AttributeLint.Filter
