import AttributeLint.Proofs.Filter.Grammar

/-!
# What written options select

`selects` says of a written expression, before anything is read or compiled into a leaf, whether it
matches an attribute; `keeps` says the same of written options.  On everything that can be read they
agree with the expressions that are read (`reports_eq_keeps`), because these mirror what is written.
-/

namespace AttributeLint.Filter

/-! ## Written expressions -/

/-- Whether the pattern of a source is found in a text. -/
def sourceFound (text source : String) : Bool :=
  match Pattern.compile source with
  | .ok p => p.search text
  | .error _ => false

/-- Whether a written axis matches a text: one of its names is the text, or one of its patterns is found
in it. -/
def axisSelects (fields : Fields) (names patterns : String) (text : String) : Bool :=
  (textsUnder fields names).contains text ||
    (textsUnder fields patterns).any (sourceFound text)

/-- Whether a written leaf matches an attribute. -/
def leafSelects (d : Descriptor) (fields : Fields) : Bool :=
  axisSelects fields "attributes" "attributePatterns" d.name ||
    axisSelects fields "components" "componentPatterns" d.component ||
    axisSelects fields "values" "valuePatterns" d.value

mutual

/-- Whether a written expression matches an attribute. -/
def selects (d : Descriptor) : Data → Bool
  | .object [(key, raw)] =>
    if key == "and" then (answers d raw).all id
    else if key == "or" then (answers d raw).any id
    else if key == "not" then !selects d raw
    else leafSelects d [(key, raw)]
  | .object fields => leafSelects d fields
  | _ => false

/-- The answers of the expressions in a written list. -/
def answers (d : Descriptor) : Data → List Bool
  | .list items => answersOf d items
  | _ => []

/-- The answers of written expressions. -/
def answersOf (d : Descriptor) : List Data → List Bool
  | [] => []
  | raw :: rest => selects d raw :: answersOf d rest

end

/-- The expressions that are written for `only` or `ignore`. -/
def written (clause : Data) : List Data :=
  match clause with
  | .null => []
  | .list items => items
  | _ => [clause]

/-- A single expression stands for itself. -/
theorem IsExpression.written_eq {e : Data} (h : IsExpression e) : written e = [e] := by
  obtain ⟨fields, rfl⟩ := h.isObject
  rfl

/-- Whether written options keep an attribute: nothing is written for `only` or one of its expressions
matches, and none of those for `ignore` does. -/
def keeps (raw : Data) (d : Descriptor) : Bool :=
  let only := written (raw.field "only")
  let ignore := written (raw.field "ignore")
  (only.isEmpty || only.any (selects d)) && !ignore.any (selects d)

theorem answersOf_eq (d : Descriptor) (items : List Data) :
    answersOf d items = items.map (selects d) := by
  induction items with
  | nil => rw [answersOf]; rfl
  | cons raw rest ih => rw [answersOf, ih, List.map_cons]

theorem selects_and (d : Descriptor) (items : List Data) :
    selects d (.object [("and", .list items)]) = items.all (selects d) := by
  rw [selects, if_pos (by decide), answers, answersOf_eq, List.all_map]
  rfl

theorem selects_or (d : Descriptor) (items : List Data) :
    selects d (.object [("or", .list items)]) = items.any (selects d) := by
  rw [selects, if_neg (by decide), if_pos (by decide), answers, answersOf_eq, List.any_map]
  rfl

theorem selects_not (d : Descriptor) (raw : Data) :
    selects d (.object [("not", raw)]) = !selects d raw := by
  rw [selects, if_neg (by decide), if_neg (by decide), if_pos (by decide)]

/-! ## Leaves -/

theorem any_search_eq {sources : List String} {ps : List Pattern}
    (h : List.Forall₂ (fun source p => Pattern.compile source = .ok p) sources ps) (text : String) :
    ps.any (·.search text) = sources.any (sourceFound text) := by
  induction h with
  | nil => rfl
  | cons hs _ ih => rw [List.any_cons, List.any_cons, ih, sourceFound, hs]

theorem axis_holds {a : Axis} {fields : Fields} {names patterns : String}
    (h : a.Mirrors (textsUnder fields names) (textsUnder fields patterns)) (text : String) :
    a.holds text = axisSelects fields names patterns text := by
  have hn : a.names.contains text = (textsUnder fields names).contains text := by
    rw [Bool.eq_iff_iff, List.contains_iff_mem, List.contains_iff_mem, h.mem_names]
  rw [Axis.holds, axisSelects, hn, any_search_eq h.compiled]

theorem criteria_holds {c : Criteria} {fields : Fields} (h : c.Mirrors fields) (d : Descriptor) :
    c.holds d = leafSelects d fields := by
  rw [Criteria.holds, leafSelects, axis_holds h.name, axis_holds h.component, axis_holds h.value]

theorem selects_of_isLeaf {fields : Fields} (h : IsLeaf fields) (d : Descriptor) :
    selects d (.object fields) = leafSelects d fields := by
  match fields with
  | [] => rw [selects]; nofun
  | [(key, raw)] =>
    have hk : key ∈ leafKeys := mem_leafKeys_iff.mpr (h.keys key List.mem_cons_self)
    rw [selects, if_neg, if_neg, if_neg]
    all_goals rw [beq_iff_eq]; rintro rfl; exact absurd hk (by decide)
  | _ :: _ :: _ => rw [selects]; nofun

/-! ## One text at a time -/

/-- Whether a single text under a key of a leaf matches an attribute. -/
def textMatches (d : Descriptor) (key text : String) : Bool :=
  if key = "attributes" then text == d.name
  else if key = "attributePatterns" then sourceFound d.name text
  else if key = "components" then text == d.component
  else if key = "componentPatterns" then sourceFound d.component text
  else if key = "values" then text == d.value
  else if key = "valuePatterns" then sourceFound d.value text
  else false

theorem contains_eq_any (texts : List String) (text : String) :
    texts.contains text = texts.any (· == text) := by
  rw [Bool.eq_iff_iff, List.contains_iff_mem, List.any_eq_true]
  simp

/-- A leaf matches if one text under one of its keys does. -/
theorem leafSelects_eq (d : Descriptor) (fields : Fields) :
    leafSelects d fields =
      leafKeys.any fun key => (textsUnder fields key).any (textMatches d key) := by
  have hname : textMatches d "attributes" = (· == d.name) := rfl
  have hnames : textMatches d "attributePatterns" = sourceFound d.name := rfl
  have hcomponent : textMatches d "components" = (· == d.component) := rfl
  have hcomponents : textMatches d "componentPatterns" = sourceFound d.component := rfl
  have hvalue : textMatches d "values" = (· == d.value) := rfl
  have hvalues : textMatches d "valuePatterns" = sourceFound d.value := rfl
  simp only [leafSelects, axisSelects, contains_eq_any, leafKeys, List.any_cons, List.any_nil,
    Bool.or_false, Bool.or_assoc, hname, hnames, hcomponent, hcomponents, hvalue, hvalues]

/-! ## Expressions -/

theorem allHold_eq (d : Descriptor) (es : List Expression) :
    Expression.allHold d es = es.all (·.holds d) := by
  induction es with
  | nil => rw [Expression.allHold]; rfl
  | cons e rest ih => rw [Expression.allHold, ih, List.all_cons]

theorem anyHold_eq (d : Descriptor) (es : List Expression) :
    Expression.anyHold d es = es.any (·.holds d) := by
  induction es with
  | nil => rw [Expression.anyHold]; rfl
  | cons e rest ih => rw [Expression.anyHold, ih, List.any_cons]

mutual

/-- **An expression matches what the value that it mirrors selects.** -/
theorem holds_eq_selects (d : Descriptor) :
    ∀ (e : Expression) (raw : Data), e.Mirrors raw → e.holds d = selects d raw
  | .and es, raw, h => by
    rw [Expression.Mirrors] at h
    obtain ⟨items, rfl, hm⟩ := h
    rw [Expression.holds, allHold_eq, selects, if_pos (by decide), answers,
      ← map_holds_eq d es items hm, List.all_map]
    rfl
  | .or es, raw, h => by
    rw [Expression.Mirrors] at h
    obtain ⟨items, rfl, hm⟩ := h
    rw [Expression.holds, anyHold_eq, selects, if_neg (by decide), if_pos (by decide), answers,
      ← map_holds_eq d es items hm, List.any_map]
    rfl
  | .not e, raw, h => by
    rw [Expression.Mirrors] at h
    obtain ⟨child, rfl, hm⟩ := h
    rw [Expression.holds, holds_eq_selects d e child hm, selects, if_neg (by decide),
      if_neg (by decide), if_pos (by decide)]
  | .criteria c, raw, h => by
    rw [Expression.Mirrors] at h
    obtain ⟨fields, rfl, hl, hm⟩ := h
    rw [Expression.holds, criteria_holds hm, selects_of_isLeaf hl]

theorem map_holds_eq (d : Descriptor) :
    ∀ (es : List Expression) (items : List Data), MirrorAll es items →
      es.map (·.holds d) = answersOf d items
  | [], items, h => by
    rw [MirrorAll] at h
    rw [h, answersOf]; rfl
  | e :: es, items, h => by
    rw [MirrorAll] at h
    obtain ⟨raw, rest, rfl, he, hr⟩ := h
    rw [List.map_cons, holds_eq_selects d e raw he, map_holds_eq d es rest hr, answersOf]

end

/-! ## Options -/

theorem mirrorAll_written {es : List Expression} {clause : Data} (h : ClauseMirrors es clause) :
    MirrorAll es (written clause) := by
  unfold ClauseMirrors at h
  split at h
  · rw [h, MirrorAll, written]
  · exact h
  · rename_i hnull hlist
    obtain ⟨e, rfl, hm⟩ := h
    have hw : written clause = [clause] := by
      rw [written]
      · exact hnull
      · exact hlist
    rw [hw, MirrorAll]
    exact ⟨clause, [], rfl, hm, by rw [MirrorAll]⟩

/-- **Options that are read report what the written ones keep.** -/
theorem reports_eq_keeps {raw : Data} {o : Options} (h : Options.read raw = .ok o)
    (d : Descriptor) : o.reports d = keeps raw d := by
  obtain ⟨hm₁, hm₂⟩ := (options_read_sound h).2
  have h₁ := map_holds_eq d _ _ (mirrorAll_written hm₁)
  have h₂ := map_holds_eq d _ _ (mirrorAll_written hm₂)
  rw [answersOf_eq] at h₁ h₂
  have hempty : o.only.isEmpty = (written (raw.field "only")).isEmpty := by
    have hlen := congrArg List.length h₁
    rw [List.length_map, List.length_map] at hlen
    rw [Bool.eq_iff_iff, List.isEmpty_iff_length_eq_zero, List.isEmpty_iff_length_eq_zero, hlen]
  have hany : ∀ {es : List Expression} {items : List Data},
      es.map (·.holds d) = items.map (selects d) →
        es.any (·.holds d) = items.any (selects d) := by
    intro es items he
    have := congrArg (List.any · id) he
    simpa only [List.any_map, Function.id_comp] using this
  rw [Options.reports, keeps, anyHold_eq, anyHold_eq, hempty, hany h₁, hany h₂]

end AttributeLint.Filter
