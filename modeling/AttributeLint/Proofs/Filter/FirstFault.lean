import AttributeLint.Proofs.Filter.Breaks

/-!
# The fault that is told

A written expression is looked at place by place: what has to be an expression, a list of expressions,
a list of texts or a pattern.  What is told of an expression that cannot be read is the fault at the
first place, in this order, that has one.

* `Place`: the places in a written expression, each with the way to it and with what is expected there.
* `visits`: the places in the order in which they are looked at.  An object comes before what is in it,
  and a list before its items; in a leaf come first the lists of texts, in the order of the keys, and
  then the patterns, axis by axis.
* `Flawed`: how what is at a place can be at fault.
* `read_follows`: reading goes along the visits.  The induction is along the reader, and each of its
  parts is put together from visits as the reader is from smaller ones.
* `read_tells_first_fault`: **what is told is the first fault**, under any name for the expression.
-/

namespace AttributeLint.Filter

open Pattern (Failure)

/-! ## Places and visits -/

/-- What there has to be at a place. -/
inductive Expected where
  | expression
  | expressions
  | texts
  | pattern

/-- The places in a written expression: the way to it, what is expected there and what is there. -/
inductive Place : Data → List Step → Expected → Data → Prop
  | expression (raw : Data) : Place raw [] .expression raw
  | expressions {key : String} {raw : Data} (hk : key = "and" ∨ key = "or") :
      Place (.object [(key, raw)]) [.field key] .expressions raw
  | item {key : String} {items : List Data} {index : Nat} {raw value : Data} {path : List Step}
      {expected : Expected} (hk : key = "and" ∨ key = "or") (hi : items[index]? = some raw)
      (h : Place raw path expected value) :
      Place (.object [(key, .list items)]) (.field key :: .item index :: path) expected value
  | not {raw value : Data} {path : List Step} {expected : Expected}
      (h : Place raw path expected value) :
      Place (.object [("not", raw)]) (.field "not" :: path) expected value
  | texts {fields : Fields} {key : String} {raw : Data} (hk : key ∈ leafKeys)
      (h : (key, raw) ∈ fields) : Place (.object fields) [.field key] .texts raw
  | pattern {fields : Fields} {key : String} {items : List Data} {index : Nat} {raw : Data}
      (hk : key ∈ patternKeys) (h : (Data.object fields).field key = .list items)
      (hi : items[index]? = some raw) :
      Place (.object fields) [.field key, .item index] .pattern raw

/-- A look at a place. -/
structure Visit where
  path : List Step
  expected : Expected
  value : Data

/-- A look at a place with the way to it taken from further out. -/
def Visit.under (steps : List Step) (v : Visit) : Visit :=
  { v with path := steps ++ v.path }

/-- The items of a list. -/
def itemsIn : Data → List Data
  | .list items => items
  | _ => []

/-- The looks at the items of a list of patterns from an index on. -/
def patternVisits (index : Nat) : List Data → List Visit
  | [] => []
  | raw :: rest => ⟨[.item index], .pattern, raw⟩ :: patternVisits (index + 1) rest

/-- The looks into a leaf. -/
def leafVisits (fields : Fields) : List Visit :=
  (fields.filter fun entry => leafKeys.contains entry.1).map
      (fun entry => ⟨[.field entry.1], .texts, entry.2⟩) ++
    patternKeys.flatMap fun key =>
      (patternVisits 0 (itemsIn ((Data.object fields).field key))).map (.under [.field key])

mutual

/-- The looks at a written expression, in their order. -/
def visits : Data → List Visit
  | .object [(key, raw)] =>
    ⟨[], .expression, .object [(key, raw)]⟩ ::
      if key == "and" || key == "or" then (visitsList raw).map (.under [.field key])
      else if key == "not" then (visits raw).map (.under [.field key])
      else leafVisits [(key, raw)]
  | .object fields => ⟨[], .expression, .object fields⟩ :: leafVisits fields
  | raw => [⟨[], .expression, raw⟩]

/-- The looks at a written list of expressions. -/
def visitsList : Data → List Visit
  | .list items => ⟨[], .expressions, .list items⟩ :: visitsItems 0 items
  | raw => [⟨[], .expressions, raw⟩]

/-- The looks at written expressions from an index on. -/
def visitsItems (index : Nat) : List Data → List Visit
  | [] => []
  | raw :: rest => (visits raw).map (.under [.item index]) ++ visitsItems (index + 1) rest

end

/-! ## Faults at a place -/

/-- How what is at a place is at fault. -/
inductive Flawed : Visit → Fault → Prop
  | notObject {path : List Step} {raw : Data} (h : ∀ fields, raw ≠ .object fields) :
      Flawed ⟨path, .expression, raw⟩ (.config path (.notObject raw.kind))
  | mixed {path : List Step} {fields : Fields} {before after : List String} {key : String}
      (hmany : 1 < fields.length) (hk : combinators = before ++ key :: after)
      (hmem : key ∈ fields.keys) (hfirst : ∀ other ∈ before, other ∉ fields.keys) :
      Flawed ⟨path, .expression, .object fields⟩ (.config path (.mixed key))
  | unknownKeys {path : List Step} {fields : Fields} {keys : List String}
      (hleaf : ∀ key ∈ combinators, key ∉ fields.keys) (hne : keys ≠ [])
      (hsorted : keys.Pairwise (· ≤ ·)) (hkeys : keys.Perm (fields.keys.filter (· ∉ leafKeys))) :
      Flawed ⟨path, .expression, .object fields⟩ (.config path (.unknownKeys keys))
  | notExpressions {path : List Step} {raw : Data} (h : ∀ items, raw ≠ .list items) :
      Flawed ⟨path, .expressions, raw⟩ (.config path .notExpressions)
  | notTexts {path : List Step} {raw : Data} (h : ¬ IsTexts raw) :
      Flawed ⟨path, .texts, raw⟩ (.config path .notStrings)
  | malformed {path : List Step} {source : String} {cause : Pattern.Cause} {place : Option Nat}
      (h : Pattern.compile source = .error (.malformed cause place)) :
      Flawed ⟨path, .pattern, .str source⟩ (.config path (.notPattern source
        ((Failure.malformed cause place).message (Pattern.endAnchors source.toList))))
  | breaks {path : List Step} {source : String} {f : Failure} (h : SourceBreaks f source) :
      Flawed ⟨path, .pattern, .str source⟩ (.pattern f)

/-- What is at a place is not at fault. -/
def Visit.Fine (v : Visit) : Prop :=
  ∀ f, ¬ Flawed v f

theorem flawed_under_iff {steps : List Step} {v : Visit} {f : Fault} :
    Flawed (v.under steps) f ↔ ∃ g, Flawed v g ∧ g.under steps = f := by
  obtain ⟨path, expected, value⟩ := v
  constructor
  · intro h
    cases h with
    | notObject h => exact ⟨_, .notObject h, rfl⟩
    | mixed hmany hk hmem hfirst => exact ⟨_, .mixed hmany hk hmem hfirst, rfl⟩
    | unknownKeys hleaf hne hsorted hkeys => exact ⟨_, .unknownKeys hleaf hne hsorted hkeys, rfl⟩
    | notExpressions h => exact ⟨_, .notExpressions h, rfl⟩
    | notTexts h => exact ⟨_, .notTexts h, rfl⟩
    | malformed h => exact ⟨_, .malformed h, rfl⟩
    | breaks h => exact ⟨_, .breaks h, rfl⟩
  · rintro ⟨g, h, rfl⟩
    cases h with
    | notObject h => exact .notObject h
    | mixed hmany hk hmem hfirst => exact .mixed hmany hk hmem hfirst
    | unknownKeys hleaf hne hsorted hkeys => exact .unknownKeys hleaf hne hsorted hkeys
    | notExpressions h => exact .notExpressions h
    | notTexts h => exact .notTexts h
    | malformed h => exact .malformed h
    | breaks h => exact .breaks h

theorem Visit.Fine.under {v : Visit} (h : v.Fine) (steps : List Step) : (v.under steps).Fine := by
  intro f hf
  obtain ⟨g, hg, -⟩ := flawed_under_iff.mp hf
  exact h g hg

theorem has_iff {fields : Fields} {key : String} : fields.has key = true ↔ key ∈ fields.keys := by
  simp [Fields.has, Fields.keys, List.any_eq_true]

theorem combinator?_eq_some_iff {fields : Fields} {key : String} :
    combinator? fields = some key ↔ key ∈ fields.keys ∧
      ∃ before after, combinators = before ++ key :: after ∧
        ∀ other ∈ before, other ∉ fields.keys := by
  rw [combinator?, List.find?_eq_some_iff_append, has_iff]
  simp only [Bool.not_eq_true', ← Bool.not_eq_true, has_iff]

theorem combinator?_eq_none_iff {fields : Fields} :
    combinator? fields = none ↔ ∀ key ∈ combinators, key ∉ fields.keys := by
  rw [combinator?, List.find?_eq_none]
  simp only [has_iff]

/-- What is at a place has at most one fault. -/
theorem Flawed.unique {v : Visit} {f g : Fault} (hf : Flawed v f) (hg : Flawed v g) : f = g := by
  cases hf with
  | notObject h =>
    cases hg with
    | notObject _ => rfl
    | mixed | unknownKeys => exact absurd rfl (h _)
  | mixed hmany hk hmem hfirst =>
    have hone := combinator?_eq_some_iff.mpr ⟨hmem, _, _, hk, hfirst⟩
    cases hg with
    | notObject h => exact absurd rfl (h _)
    | mixed hmany' hk' hmem' hfirst' =>
      have hother := combinator?_eq_some_iff.mpr ⟨hmem', _, _, hk', hfirst'⟩
      rw [Option.some.inj (hone.symm.trans hother)]
    | unknownKeys hleaf =>
      rw [combinator?_eq_none_iff.mpr hleaf] at hone
      cases hone
  | unknownKeys hleaf hne hsorted hkeys =>
    cases hg with
    | notObject h => exact absurd rfl (h _)
    | mixed _ hk hmem _ => exact absurd hmem (hleaf _ (by simp [hk]))
    | unknownKeys _ _ hsorted' hkeys' =>
      have hperm := hkeys.trans hkeys'.symm
      rw [hperm.eq_of_pairwise (fun _ _ _ _ => le_antisymm) hsorted hsorted']
  | notExpressions _ => cases hg; rfl
  | notTexts _ => cases hg; rfl
  | malformed h =>
    cases hg with
    | malformed h' =>
      rw [h] at h'
      cases h'
      rfl
    | breaks h' =>
      rw [SourceBreaks, h] at h'
      obtain ⟨hf, hne⟩ := h'
      exact absurd (Except.error.inj hf).symm (hne _ _)
  | breaks h =>
    cases hg with
    | malformed h' =>
      rw [SourceBreaks, h'] at h
      obtain ⟨hf, hne⟩ := h
      exact absurd (Except.error.inj hf).symm (hne _ _)
    | breaks h' =>
      have he := h.1.symm.trans h'.1
      cases he
      rfl

/-! ## Readers that follow the visits -/

/-- A reader follows some visits: it succeeds only if all of them are fine, and it fails only with the
fault of the first that is not. -/
structure Follows {α : Type} (x : Except Fault α) (vs : List Visit) : Prop where
  fine : ∀ a, x = .ok a → ∀ v ∈ vs, v.Fine
  first : ∀ f, x = .error f → FirstBad Visit.Fine (Flawed · f) vs

section Follows

variable {α β : Type} {x : Except Fault α} {vs ws : List Visit} {v : Visit}

theorem follows_ok {a : α} : Follows (.ok a) [] where
  fine _ _ _ hv := absurd hv List.not_mem_nil
  first _ hf := by cases hf

theorem follows_flawed {f : Fault} (h : Flawed v f) : Follows (.error f : Except Fault α) (v :: vs) where
  fine _ ha := by cases ha
  first _ hf := by
    cases hf
    exact firstBad_cons.mpr (Or.inl h)

theorem Follows.cons (h : Follows x vs) (hv : v.Fine) : Follows x (v :: vs) where
  fine a ha := List.forall_mem_cons.mpr ⟨hv, h.fine a ha⟩
  first f hf := firstBad_cons.mpr (Or.inr ⟨hv, h.first f hf⟩)

theorem Follows.bind {f : α → Except Fault β} (h : Follows x vs)
    (hf : ∀ a, x = .ok a → Follows (f a) ws) : Follows (x >>= f) (vs ++ ws) where
  fine b hb := by
    obtain ⟨a, ha, hb⟩ := bind_eq_ok_iff.mp hb
    exact List.forall_mem_append.mpr ⟨h.fine a ha, (hf a ha).fine b hb⟩
  first g hg := by
    rcases bind_eq_error_iff.mp hg with hg | ⟨a, ha, hg⟩
    · exact firstBad_append.mpr (Or.inl (h.first g hg))
    · exact firstBad_append.mpr (Or.inr ⟨h.fine a ha, (hf a ha).first g hg⟩)

theorem Follows.map (h : Follows x vs) (f : α → β) : Follows (f <$> x) vs where
  fine b hb := by
    obtain ⟨a, ha, -⟩ := map_eq_ok_iff.mp hb
    exact h.fine a ha
  first g hg := h.first g (map_eq_error_iff.mp hg)

/-- What is read further in is followed with the way to it. -/
theorem Follows.under (h : Follows x vs) (steps : List Step) :
    Follows (x.mapError (·.under steps)) (vs.map (.under steps)) where
  fine a ha := by
    have hvs := h.fine a (mapError_eq_ok_iff.mp ha)
    exact List.forall_mem_map.mpr fun v hv => (hvs v hv).under steps
  first g hg := by
    obtain ⟨f, hf, hfg⟩ := mapError_eq_error_iff.mp hg
    obtain ⟨before, v, after, rfl, hb, hv⟩ := h.first f hf
    refine ⟨before.map (.under steps), v.under steps, after.map (.under steps), ?_, ?_, ?_⟩
    · rw [List.map_append, List.map_cons]
    · exact List.forall_mem_map.mpr fun w hw => (hb w hw).under steps
    · exact flawed_under_iff.mpr ⟨f, hv, hfg⟩

end Follows

/-! ## Leaves -/

theorem fine_texts {path : List Step} {raw : Data} (h : IsTexts raw) :
    Visit.Fine ⟨path, .texts, raw⟩ := by
  intro f hf
  cases hf with
  | notTexts hn => exact hn h

theorem textLists_follows (fields : Fields) :
    Follows (textLists fields) (fields.map fun entry => ⟨[.field entry.1], .texts, entry.2⟩) := by
  induction fields with
  | nil => exact follows_ok
  | cons entry rest ih =>
    obtain ⟨key, raw⟩ := entry
    rw [textLists, List.map_cons]
    cases hd : textList? raw with
    | none =>
      have hn : ¬ IsTexts raw := by
        rintro ⟨texts, h⟩
        rw [textList?_eq_some_iff.mpr h] at hd
        cases hd
      exact follows_flawed (.notTexts hn)
    | some texts =>
      have ht : IsTexts raw := ⟨texts, textList?_eq_some_iff.mp hd⟩
      have hrest := ih.bind fun lists _ => follows_ok (a := (key, texts) :: lists)
      rw [List.append_nil] at hrest
      exact hrest.cons (fine_texts ht)

theorem fine_pattern {path : List Step} {source : String} (h : Compiles source) :
    Visit.Fine ⟨path, .pattern, .str source⟩ := by
  obtain ⟨p, hp⟩ := h
  intro f hf
  cases hf with
  | malformed hc =>
    rw [hp] at hc
    cases hc
  | breaks hb =>
    rw [SourceBreaks, hp] at hb
    cases hb.1

theorem compileFrom_follows (sources : List String) :
    ∀ index, Follows (compileFrom index sources) (patternVisits index (sources.map .str)) := by
  induction sources with
  | nil => exact fun _ => follows_ok
  | cons source rest ih =>
    intro index
    rw [compileFrom, List.map_cons, patternVisits]
    cases hc : Pattern.compile source with
    | ok p =>
      have hrest := (ih (index + 1)).bind fun ps _ => follows_ok (a := p :: ps)
      rw [List.append_nil] at hrest
      exact hrest.cons (fine_pattern ⟨p, hc⟩)
    | error failure =>
      cases failure with
      | malformed cause place => exact follows_flawed (.malformed hc)
      | _ => exact follows_flawed (.breaks ⟨hc, by rintro _ _ ⟨⟩⟩)

/-- Where all fields are lists of texts, what is listed under a key are its texts. -/
theorem itemsIn_field {fields : Fields} (h : ∀ entry ∈ fields, IsTexts entry.2) (key : String) :
    itemsIn ((Data.object fields).field key) = (textsUnder fields key).map .str := by
  induction fields with
  | nil => rfl
  | cons entry rest ih =>
    obtain ⟨other, raw⟩ := entry
    obtain ⟨⟨texts, hraw⟩, hrest⟩ := List.forall_mem_cons.mp h
    obtain rfl : raw = .list (texts.map .str) := hraw
    rw [textsUnder, Data.field_cons]
    split
    · rw [textsIn_texts]
      rfl
    · exact ih hrest

theorem patternsOf_follows {fields : Fields} {lists : List (String × List String)}
    (hl : textLists fields = .ok lists) (key : String) :
    Follows (patternsOf lists key)
      ((patternVisits 0 (itemsIn ((Data.object fields).field key))).map (.under [.field key])) := by
  rw [patternsOf, textsOf_eq hl, itemsIn_field (textLists_ok_iff.mp ⟨lists, hl⟩)]
  exact (compileFrom_follows _ 0).under _

/-- An object with a combinator and nothing else is no fault, and neither is one with the keys of a
leaf. -/
theorem fine_object {path : List Step} {fields : Fields}
    (h : (∃ key ∈ combinators, fields.keys = [key]) ∨ ∀ key ∈ fields.keys, key ∈ leafKeys) :
    Visit.Fine ⟨path, .expression, .object fields⟩ := by
  intro f hf
  cases hf with
  | notObject hn => exact hn _ rfl
  | mixed hmany hk hmem hfirst =>
    rcases h with ⟨key, -, hone⟩ | hleaf
    · have hlength := congrArg List.length hone
      rw [Fields.keys, List.length_map, List.length_singleton] at hlength
      omega
    · have hnone := combinator?_of_keys hleaf
      rw [combinator?_eq_some_iff.mpr ⟨hmem, _, _, hk, hfirst⟩] at hnone
      cases hnone
  | unknownKeys hno hne _ hkeys =>
    rcases h with ⟨key, hkey, hone⟩ | hleaf
    · exact hno key hkey (by simp [hone])
    · have hnil : fields.keys.filter (· ∉ leafKeys) = [] := by simpa using hleaf
      rw [hnil] at hkeys
      exact hne hkeys.eq_nil

theorem flawed_unknownKeys {path : List Step} {fields : Fields} (hc : combinator? fields = none)
    (hu : (unknownKeys leafKeys fields).isEmpty = false) :
    Flawed ⟨path, .expression, .object fields⟩
      (.config path (.unknownKeys (unknownKeys leafKeys fields))) := by
  refine .unknownKeys (combinator?_eq_none_iff.mp hc) ?_ ?_ ?_
  · intro hnil
    rw [hnil] at hu
    cases hu
  · have hsorted : (unknownKeys leafKeys fields).Pairwise fun a b => decide (a ≤ b) = true :=
      List.pairwise_mergeSort (by simpa using fun a b c : String => le_trans)
        (by simpa using fun a b : String => le_total a b) _
    simpa only [decide_eq_true_eq] using hsorted
  · have hkeys : fields.keys.filter (· ∉ leafKeys) =
        fields.keys.filter fun key => !leafKeys.contains key := by simp
    rw [hkeys]
    exact List.mergeSort_perm _ _

theorem leaf_follows {fields : Fields} (hc : combinator? fields = none) :
    Follows (leaf fields) (⟨[], .expression, .object fields⟩ :: leafVisits fields) := by
  rw [leaf]
  dsimp only
  cases hu : (unknownKeys leafKeys fields).isEmpty with
  | false => exact follows_flawed (flawed_unknownKeys hc hu)
  | true =>
    have hk := unknownKeys_isEmpty.mp hu
    have hall : fields.filter (fun entry => leafKeys.contains entry.1) = fields := by
      rw [List.filter_eq_self]
      intro entry he
      exact List.contains_iff_mem.mpr (hk entry.1 (List.mem_map_of_mem he))
    rw [if_neg (by simp), leafVisits, hall]
    refine Follows.cons ?_ (fine_object (Or.inr hk))
    exact (textLists_follows fields).bind fun lists hl =>
      (patternsOf_follows hl _).bind fun _ _ =>
        (patternsOf_follows hl _).bind fun _ _ =>
          (patternsOf_follows hl _).bind fun _ _ => follows_ok

theorem one_lt_length_of_not_single {fields : Fields} {key : String} (hmem : key ∈ fields.keys)
    (hf : ∀ other raw, fields = [(other, raw)] → False) : 1 < fields.length := by
  cases fields with
  | nil => exact absurd hmem List.not_mem_nil
  | cons entry rest =>
    cases rest with
    | nil => exact absurd rfl (hf entry.1 entry.2)
    | cons _ _ => simp

theorem leafOnly_follows {fields : Fields}
    (h : ∀ key, combinator? fields = some key → 1 < fields.length) :
    Follows (leafOnly fields) (⟨[], .expression, .object fields⟩ :: leafVisits fields) := by
  rw [leafOnly]
  cases hc : combinator? fields with
  | none => exact (leaf_follows hc).map _
  | some key =>
    obtain ⟨hmem, before, after, hk, hfirst⟩ := combinator?_eq_some_iff.mp hc
    exact follows_flawed (.mixed (h key hc) hk hmem hfirst)

/-! ## Expressions -/

/-- Reading follows the visits: on a value, on a value that has to be a list, and on the items of a
list. -/
theorem read_follows_all :
    (∀ d, Follows (Expression.read d) (visits d)) ∧
    (∀ d, Follows (Expression.readList d) (visitsList d)) ∧
    (∀ index items, Follows (Expression.readItems index items) (visitsItems index items)) := by
  refine Expression.read.mutual_induct
    (fun d => Follows (Expression.read d) (visits d))
    (fun d => Follows (Expression.readList d) (visitsList d))
    (fun index items => Follows (Expression.readItems index items) (visitsItems index items))
    ?and ?or ?not ?leaf ?object ?scalar ?list ?notList ?nil ?cons
  case and =>
    intro key d hk ih
    obtain rfl := beq_iff_eq.mp hk
    rw [read_and, visits, if_pos (by decide)]
    exact ((ih.under _).map _).cons (fine_object (Or.inl ⟨"and", by decide, rfl⟩))
  case or =>
    intro key d _ hk ih
    obtain rfl := beq_iff_eq.mp hk
    rw [read_or, visits, if_pos (by decide)]
    exact ((ih.under _).map _).cons (fine_object (Or.inl ⟨"or", by decide, rfl⟩))
  case not =>
    intro key d _ _ hk ih
    obtain rfl := beq_iff_eq.mp hk
    rw [read_not, visits, if_neg (by decide), if_pos (by decide)]
    exact ((ih.under _).map _).cons (fine_object (Or.inl ⟨"not", by decide, rfl⟩))
  case leaf =>
    intro key d ha ho hn
    rw [Expression.read, if_neg ha, if_neg ho, if_neg hn, visits, if_neg (by simp_all), if_neg hn]
    refine leafOnly_follows fun other hc => ?_
    -- a single combinator would have been taken before
    obtain ⟨hmem, before, after, hk, -⟩ := combinator?_eq_some_iff.mp hc
    have hother : other ∈ combinators := by simp [hk]
    rw [List.mem_singleton.mp hmem] at hother
    simp only [combinators, List.mem_cons, List.not_mem_nil, or_false] at hother
    rcases hother with h | h | h
    · exact absurd (beq_iff_eq.mpr h) ha
    · exact absurd (beq_iff_eq.mpr h) ho
    · exact absurd (beq_iff_eq.mpr h) hn
  case object =>
    intro fields hf
    rw [Expression.read, visits]
    · refine leafOnly_follows fun key hc => ?_
      exact one_lt_length_of_not_single (combinator?_eq_some_iff.mp hc).1 hf
    · exact hf
    · exact hf
  case scalar =>
    intro d hs ho
    rw [Expression.read, visits]
    · exact follows_flawed (.notObject ho)
    all_goals assumption
  case list =>
    intro items ih
    rw [Expression.readList, visitsList]
    refine ih.cons ?_
    intro f hf
    cases hf with
    | notExpressions h => exact h items rfl
  case notList =>
    intro d hl
    rw [Expression.readList, visitsList]
    · exact follows_flawed (.notExpressions hl)
    all_goals exact hl
  case nil =>
    intro index
    rw [Expression.readItems, visitsItems]
    exact follows_ok
  case cons =>
    intro index d rest ihd ihr
    rw [Expression.readItems, visitsItems]
    refine (ihd.under _).bind fun e _ => ?_
    have hrest := ihr.bind fun es _ => follows_ok (a := e :: es)
    rwa [List.append_nil] at hrest

/-- **Reading follows the visits.** -/
theorem read_follows (raw : Data) : Follows (Expression.read raw) (visits raw) :=
  read_follows_all.1 raw

/-- A failure is the fault of the first visit that is not fine. -/
theorem read_eq_error_iff {raw : Data} {f : Fault} :
    Expression.read raw = .error f ↔ FirstBad Visit.Fine (Flawed · f) (visits raw) := by
  refine ⟨(read_follows raw).first f, fun h => ?_⟩
  cases hr : Expression.read raw with
  | ok e =>
    obtain ⟨before, v, after, hvs, -, hv⟩ := h
    exact absurd hv ((read_follows raw).fine e hr v (by simp [hvs]) f)
  | error g =>
    have h' := (read_follows raw).first g hr
    obtain ⟨v, hg, hf⟩ := h'.meet (fun v hv => hv g) (fun v hv => hv f) h
    rw [hg.unique hf]

/-! ## Visits are places -/

theorem exists_of_mem_patternVisits {items : List Data} {v : Visit} :
    ∀ {index : Nat}, v ∈ patternVisits index items →
      ∃ i raw, items[i]? = some raw ∧ v = ⟨[.item (index + i)], .pattern, raw⟩ := by
  induction items with
  | nil => intro index hv; exact absurd hv List.not_mem_nil
  | cons raw rest ih =>
    intro index hv
    rw [patternVisits] at hv
    rcases List.mem_cons.mp hv with rfl | hv
    · exact ⟨0, raw, rfl, rfl⟩
    · obtain ⟨i, other, hi, rfl⟩ := ih hv
      exact ⟨i + 1, other, hi, by rw [Nat.add_assoc, Nat.add_comm 1]⟩

theorem place_of_mem_leafVisits {fields : Fields} {v : Visit} (hv : v ∈ leafVisits fields) :
    Place (.object fields) v.path v.expected v.value := by
  rw [leafVisits, List.mem_append, List.mem_map, List.mem_flatMap] at hv
  rcases hv with ⟨entry, he, rfl⟩ | ⟨key, hkey, hv⟩
  · obtain ⟨hmem, hk⟩ := List.mem_filter.mp he
    exact .texts (List.contains_iff_mem.mp hk) hmem
  · obtain ⟨w, hw, rfl⟩ := List.mem_map.mp hv
    obtain ⟨i, raw, hi, rfl⟩ := exists_of_mem_patternVisits hw
    cases hd : (Data.object fields).field key with
    | list items =>
      rw [hd] at hi
      rw [Nat.zero_add]
      exact .pattern hkey hd hi
    | _ =>
      rw [hd] at hi
      cases hi

/-- Each visit is to a place: on a value, on a value that has to be a list, and on the items of a
list. -/
theorem place_of_mem_all :
    (∀ d, ∀ v ∈ visits d, Place d v.path v.expected v.value) ∧
    (∀ d, ∀ v ∈ visitsList d, ∀ key, key = "and" ∨ key = "or" →
      Place (.object [(key, d)]) (.field key :: v.path) v.expected v.value) ∧
    (∀ index items, ∀ v ∈ visitsItems index items, ∃ i raw path, items[i]? = some raw ∧
      v.path = .item (index + i) :: path ∧ Place raw path v.expected v.value) := by
  refine visits.mutual_induct
    (fun d => ∀ v ∈ visits d, Place d v.path v.expected v.value)
    (fun d => ∀ v ∈ visitsList d, ∀ key, key = "and" ∨ key = "or" →
      Place (.object [(key, d)]) (.field key :: v.path) v.expected v.value)
    (fun index items => ∀ v ∈ visitsItems index items, ∃ i raw path, items[i]? = some raw ∧
      v.path = .item (index + i) :: path ∧ Place raw path v.expected v.value)
    ?single ?object ?scalar ?list ?notList ?nil ?cons
  case single =>
    intro key raw ihList ih v hv
    rw [visits] at hv
    rcases List.mem_cons.mp hv with rfl | hv
    · exact .expression _
    · split at hv
      next hk =>
        obtain ⟨w, hw, rfl⟩ := List.mem_map.mp hv
        exact ihList w hw key (by simpa using hk)
      next =>
        split at hv
        next hn =>
          obtain ⟨w, hw, rfl⟩ := List.mem_map.mp hv
          obtain rfl := beq_iff_eq.mp hn
          exact .not (ih w hw)
        next => exact place_of_mem_leafVisits hv
  case object =>
    intro fields hf v hv
    rw [visits] at hv
    · rcases List.mem_cons.mp hv with rfl | hv
      · exact .expression _
      · exact place_of_mem_leafVisits hv
    · exact hf
  case scalar =>
    intro d hs ho v hv
    rw [visits] at hv
    · obtain rfl := List.mem_singleton.mp hv
      exact .expression d
    all_goals assumption
  case list =>
    intro items ih v hv key hk
    rw [visitsList] at hv
    rcases List.mem_cons.mp hv with rfl | hv
    · exact .expressions hk
    · obtain ⟨i, raw, path, hi, hpath, hplace⟩ := ih v hv
      rw [hpath, Nat.zero_add]
      exact .item hk hi hplace
  case notList =>
    intro d hl v hv key hk
    rw [visitsList] at hv
    · obtain rfl := List.mem_singleton.mp hv
      exact .expressions hk
    · exact hl
  case nil =>
    intro index v hv
    rw [visitsItems] at hv
    exact absurd hv List.not_mem_nil
  case cons =>
    intro index d rest ihd ihr v hv
    rw [visitsItems] at hv
    rcases List.mem_append.mp hv with hv | hv
    · obtain ⟨w, hw, rfl⟩ := List.mem_map.mp hv
      exact ⟨0, d, w.path, rfl, rfl, ihd w hw⟩
    · obtain ⟨i, raw, path, hi, hpath, hplace⟩ := ihr v hv
      exact ⟨i + 1, raw, path, hi, by rw [hpath, Nat.add_assoc, Nat.add_comm 1], hplace⟩

/-! ## What is told -/

/-- Of three faults the one that is told is the text in place of a list of components: the pattern that
is malformed stands before it and is looked at after it, and the text under `or` comes last. -/
example :
    Expression.read (.object [("and", .list [.object [],
      .object [("not", .object [("valuePatterns", .list [.str "a", .str "("]),
        ("components", .str "Box")])],
      .object [("or", .str "x")]])]) =
        .error (.config [.field "and", .item 1, .field "not", .field "components"]
          .notStrings) := by
  cbv

end AttributeLint.Filter
