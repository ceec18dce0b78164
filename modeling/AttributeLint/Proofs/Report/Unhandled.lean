import AttributeLint.Proofs.Readers
import AttributeLint.Proofs.Report.AllOrNothing
import AttributeLint.Proofs.Rule.Findings

/-!
# What a run does not handle

A run answers most of what can be wrong with code two.  Some faults it does not handle, and it ends
without a code: a path to options that no file can have, a number of too many digits in the options, a
pattern that fails without being malformed, and an element that is refused.

* `load_unhandled_iff`: which options end a run so.
* `lintFile_ok_of_accepted`, `lintFile_tree_of_not_accepted`: whether a tree in a file is linted does
  not depend on the options.
* `usable_or_first`: every file is usable, or there is a first one that is not.
* `run_code_iff`: a run ends without a code exactly on `Escapes`, with two on all else that is not
  usable, and with zero or one if all is.
-/

namespace AttributeLint

open Files (Path Tree)
open Syntax (Refused listing)

/-! ## Paths that no file can have -/

namespace Files.Tree

theorem follow_ne_nullByte (t : Tree) (parts : List String) :
    ∀ place, t.follow place parts ≠ .error .nullByte := by
  induction parts with
  | nil => intro place; nofun
  | cons part rest ih =>
    intro place
    rw [follow]
    split
    · exact ih (step place part)
    · nofun
    · nofun

theorem lookup_eq_nullByte_iff (t : Tree) (absolute : Bool) (parts : List String) :
    t.lookup absolute parts = .error .nullByte ↔ ∃ part ∈ parts, Char.ofNat 0 ∈ part.toList := by
  have hany : (parts.any fun part => part.toList.contains (Char.ofNat 0)) = true ↔
      ∃ part ∈ parts, Char.ofNat 0 ∈ part.toList := by
    simp only [List.any_eq_true, List.contains_iff_mem]
  rw [← hany, lookup]
  by_cases h : (parts.any fun part => part.toList.contains (Char.ofNat 0)) = true
  · rw [if_pos h]
    exact ⟨fun _ => h, fun _ => rfl⟩
  · rw [if_neg h]
    refine ⟨fun he => ?_, fun hp => absurd hp h⟩
    -- without the character, a fault comes from following the parts or from the place they lead to
    rcases bind_eq_error_iff.mp he with he | ⟨place, _, he⟩
    · exact absurd he (follow_ne_nullByte t parts _)
    · split at he <;> cases he

theorem text_eq_nullByte_iff {t : Tree} {path : Path} :
    (∃ f, t.text path = .error (.file f) ∧ f.cause = .nullByte) ↔
      ∃ part ∈ path.parts, Char.ofNat 0 ∈ part.toList := by
  rw [← lookup_eq_nullByte_iff t (!path.root.isEmpty), text, bytes]
  cases t.lookup (!path.root.isEmpty) path.parts with
  | error cause =>
    constructor
    · rintro ⟨f, hf, hc⟩
      cases hf
      exact congrArg _ hc
    · intro h
      exact ⟨_, rfl, Except.error.inj h⟩
  | ok item =>
    refine ⟨?_, nofun⟩
    rintro ⟨f, hf, hc⟩
    cases item with
    | directory => cases hf; cases hc
    | file bytes =>
      dsimp only at hf
      split at hf <;> cases hf

end Files.Tree

/-! ## Options -/

namespace Filter

/-- Options that a run does not handle: a part of the path holds the character zero, a number has too
many digits, or a pattern fails without being malformed. -/
def LoadEscapes (tree : Tree) (path : Path) : Prop :=
  (∃ part ∈ path.parts, Char.ofNat 0 ∈ part.toList) ∨
    ∃ text, tree.text path = .ok text ∧
      ((∃ count left, path.suffix.toList.map Char.toLower = ".toml".toList ∧
          Toml.read text = .error ⟨.tooManyDigits count, left⟩) ∨
        (∃ count left, path.suffix.toList.map Char.toLower = ".json".toList ∧
          Json.read text = .error ⟨.tooManyDigits count, left⟩) ∨
        ∃ d root failure, readAs path text = .ok d ∧
          Options.read d = .error ⟨root, .pattern failure⟩)

theorem toml_isGrammatical_eq_false {f : Toml.Fault} :
    f.isGrammatical = false ↔ ∃ count, f.cause = .tooManyDigits count := by
  rw [Toml.Fault.isGrammatical]
  split
  · next count h => exact ⟨fun _ => ⟨count, h⟩, fun _ => rfl⟩
  · next h => exact ⟨nofun, fun ⟨count, hc⟩ => absurd hc (h count)⟩

theorem json_isGrammatical_eq_false {f : Json.Fault} :
    f.isGrammatical = false ↔ ∃ count, f.cause = .tooManyDigits count := by
  rw [Json.Fault.isGrammatical]
  split
  · next count h => exact ⟨fun _ => ⟨count, h⟩, fun _ => rfl⟩
  · next h => exact ⟨nofun, fun ⟨count, hc⟩ => absurd hc (h count)⟩

/-- A text is refused without a fault of the configuration exactly if a number in it is too long. -/
theorem readAs_unhandled_iff {path : Path} {text : List Char} :
    (∃ f, readAs path text = .error f ∧ f.isConfig = false) ↔
      (∃ count left, path.suffix.toList.map Char.toLower = ".toml".toList ∧
        Toml.read text = .error ⟨.tooManyDigits count, left⟩) ∨
      ∃ count left, path.suffix.toList.map Char.toLower = ".json".toList ∧
        Json.read text = .error ⟨.tooManyDigits count, left⟩ := by
  rw [readAs]
  by_cases ht : path.suffix.toList.map Char.toLower = ".toml".toList
  · have hj : path.suffix.toList.map Char.toLower ≠ ".json".toList := by
      rw [ht]
      decide
    rw [if_pos (beq_iff_eq.mpr ht)]
    constructor
    · rintro ⟨f, hf, hc⟩
      obtain ⟨g, hg, rfl⟩ := mapError_eq_error_iff.mp hf
      obtain ⟨count, hcount⟩ := toml_isGrammatical_eq_false.mp hc
      exact Or.inl ⟨count, g.left, ht, by rw [hg, ← hcount]⟩
    · rintro (⟨count, left, _, h⟩ | ⟨_, _, h, _⟩)
      · exact ⟨_, mapError_eq_error_iff.mpr ⟨_, h, rfl⟩, rfl⟩
      · exact absurd h hj
  · rw [if_neg (fun h => ht (beq_iff_eq.mp h))]
    by_cases hj : path.suffix.toList.map Char.toLower = ".json".toList
    · rw [if_pos (beq_iff_eq.mpr hj)]
      constructor
      · rintro ⟨f, hf, hc⟩
        obtain ⟨g, hg, rfl⟩ := mapError_eq_error_iff.mp hf
        obtain ⟨count, hcount⟩ := json_isGrammatical_eq_false.mp hc
        exact Or.inr ⟨count, g.left, hj, by rw [hg, ← hcount]⟩
      · rintro (⟨_, _, h, _⟩ | ⟨count, left, _, h⟩)
        · exact absurd h ht
        · exact ⟨_, mapError_eq_error_iff.mpr ⟨_, h, rfl⟩, rfl⟩
    · rw [if_neg (fun h => hj (beq_iff_eq.mp h))]
      constructor
      · rintro ⟨f, hf, hc⟩
        cases hf
        cases hc
      · rintro (⟨_, _, h, _⟩ | ⟨_, _, h, _⟩)
        · exact absurd h ht
        · exact absurd h hj

/-- Options that end a run without a code are those of `LoadEscapes`. -/
theorem load_unhandled_iff {tree : Tree} {path : Path} :
    (∃ f, Options.load tree path = .error f ∧ f.isConfig = false) ↔ LoadEscapes tree path := by
  rw [LoadEscapes, ← Files.Tree.text_eq_nullByte_iff (t := tree), Options.load]
  cases ht : tree.text path with
  | error f =>
    cases f with
    | file f =>
      constructor
      · rintro ⟨_, hf, hc⟩
        cases hf
        exact Or.inl ⟨f, rfl, bne_eq_false_iff_eq.mp hc⟩
      · rintro (⟨g, hg, hc⟩ | ⟨_, h, _⟩)
        · cases hg
          exact ⟨_, rfl, bne_eq_false_iff_eq.mpr hc⟩
        · cases h
    | encoding f =>
      constructor
      · rintro ⟨_, hf, hc⟩
        cases hf
        cases hc
      · rintro (⟨_, h, _⟩ | ⟨_, h, _⟩) <;> cases h
  | ok text =>
    dsimp only
    constructor
    · rintro ⟨f, hf, hc⟩
      refine Or.inr ⟨text, rfl, ?_⟩
      rcases bind_eq_error_iff.mp hf with hr | ⟨d, hd, hr⟩
      · rcases readAs_unhandled_iff.mp ⟨f, hr, hc⟩ with h | h
        · exact Or.inl h
        · exact Or.inr (Or.inl h)
      · obtain ⟨⟨root, fault⟩, hl, rfl⟩ := mapError_eq_error_iff.mp hr
        cases fault with
        | config steps cause => cases hc
        | pattern failure => exact Or.inr (Or.inr ⟨d, root, failure, hd, hl⟩)
    · rintro (⟨_, h, _⟩ | ⟨_, h, hcase⟩)
      · cases h
      · cases h
        rcases hcase with h | h | ⟨d, root, failure, hd, hl⟩
        · obtain ⟨f, hf, hc⟩ := readAs_unhandled_iff.mpr (Or.inl h)
          exact ⟨f, bind_eq_error_iff.mpr (Or.inl hf), hc⟩
        · obtain ⟨f, hf, hc⟩ := readAs_unhandled_iff.mpr (Or.inr h)
          exact ⟨f, bind_eq_error_iff.mpr (Or.inl hf), hc⟩
        · exact ⟨.options ⟨root, .pattern failure⟩, bind_eq_error_iff.mpr
            (Or.inr ⟨d, hd, mapError_eq_error_iff.mpr ⟨_, hl, rfl⟩⟩), rfl⟩

end Filter

/-! ## Files -/

/-- The value that a file holds as JSON. -/
def Holds (tree : Tree) (path : Path) (d : Data) : Prop :=
  ∃ text, tree.text path = .ok text ∧ Json.read text = .ok d

/-- A tree of which no element is refused. -/
def Accepted (d : Data) : Prop :=
  ∀ fields ∈ listing d, ¬ Refused (.object fields)

theorem lintFile_of_holds {r : Rule} {tree : Tree} {path : Path} {d : Data}
    (h : Holds tree path d) :
    (r.lintFile tree path).outcome = (r.lint (some path) d).outcome.mapError .tree := by
  obtain ⟨text, ht, hd⟩ := h
  rw [Rule.lintFile, ht]
  dsimp only
  rw [hd]

theorem holds_or_fault (r : Rule) (tree : Tree) (path : Path) :
    (∃ d, Holds tree path d) ∨
      ∃ fault, (r.lintFile tree path).outcome = .error fault ∧ ∀ t, fault ≠ .tree t := by
  rw [Rule.lintFile]
  cases ht : tree.text path with
  | error f => exact Or.inr ⟨.text f, rfl, nofun⟩
  | ok text =>
    cases hd : Json.read text with
    | error f => exact Or.inr ⟨.json text f, by dsimp only; rw [hd], nofun⟩
    | ok d => exact Or.inl ⟨d, text, ht, hd⟩

/-- A tree in a file is linted if no element of it is refused, whatever the options. -/
theorem lintFile_ok_of_accepted {r : Rule} {tree : Tree} {path : Path} {d : Data}
    (h : Holds tree path d) (ha : Accepted d) :
    ∃ fs, (r.lintFile tree path).outcome = .ok fs :=
  ⟨_, (lintFile_of_holds h).trans (mapError_eq_ok_iff.mpr (lint_ok_iff.mpr ⟨ha, rfl⟩))⟩

theorem lintFile_tree_of_not_accepted {r : Rule} {tree : Tree} {path : Path} {d : Data}
    (h : Holds tree path d) (ha : ¬ Accepted d) :
    ∃ f, (r.lintFile tree path).outcome = .error (.tree f) := by
  have hno : ¬ ∃ fs, (r.lint (some path) d).outcome = .ok fs := by
    rintro ⟨fs, hfs⟩
    exact ha (lint_ok_iff.mp hfs).1
  obtain ⟨f, hf⟩ := not_ok_iff.mp hno
  exact ⟨f, (lintFile_of_holds h).trans (mapError_eq_error_iff.mpr ⟨f, hf, rfl⟩)⟩

namespace Report

/-- A file that can be linted. -/
def Usable (tree : Tree) (path : Path) : Prop :=
  ∃ d, Holds tree path d ∧ Accepted d

/-- Every file is usable, or there is a first one that is not. -/
theorem usable_or_first (tree : Tree) (paths : List Path) :
    (∀ p ∈ paths, Usable tree p) ∨
      ∃ before path after, paths = before ++ path :: after ∧ (∀ p ∈ before, Usable tree p) ∧
        ¬ Usable tree path := by
  induction paths with
  | nil => exact Or.inl nofun
  | cons p rest ih =>
    by_cases hp : Usable tree p
    · rcases ih with hall | ⟨before, path, after, rfl, hb, hn⟩
      · exact Or.inl (List.forall_mem_cons.mpr ⟨hp, hall⟩)
      · exact Or.inr ⟨p :: before, path, after, rfl, List.forall_mem_cons.mpr ⟨hp, hb⟩, hn⟩
    · exact Or.inr ⟨[], p, rest, rfl, nofun, hp⟩

theorem lintsTo_of_usable {r : Rule} {tree : Tree} {paths : List Path}
    (h : ∀ p ∈ paths, Usable tree p) : ∃ results, LintsTo r tree paths results := by
  induction paths with
  | nil => exact ⟨[], .nil⟩
  | cons p rest ih =>
    obtain ⟨⟨d, hd, ha⟩, hrest⟩ := List.forall_mem_cons.mp h
    obtain ⟨fs, hfs⟩ := lintFile_ok_of_accepted (r := r) hd ha
    obtain ⟨results, hr⟩ := ih hrest
    exact ⟨fs :: results, .cons hfs hr⟩

/-! ## Runs -/

/-- The options load and every file is usable. -/
def AllUsable (tree : Tree) (q : Request) : Prop :=
  (∃ options, optionsOf tree q = .ok options) ∧ ∀ p ∈ q.paths, Usable tree p

/-- What a run does not handle: options of the kinds in `LoadEscapes`, and a file with a refused element
after files that are all usable. -/
def Escapes (tree : Tree) (q : Request) : Prop :=
  (∃ path, q.config = some path ∧ Filter.LoadEscapes tree path) ∨
    (∃ options, optionsOf tree q = .ok options) ∧
      ∃ before path after d, q.paths = before ++ path :: after ∧ (∀ p ∈ before, Usable tree p) ∧
        Holds tree path d ∧ ¬ Accepted d

section Codes

variable {tree : Tree} {q : Request}

theorem code_of_allUsable (hr : q.rule = Rule.id) (hq : q.logged = false) (h : AllUsable tree q) :
    (run tree q).code = .ok 0 ∨ (run tree q).code = .ok 1 := by
  obtain ⟨⟨options, ho⟩, hall⟩ := h
  obtain ⟨results, hl⟩ := lintsTo_of_usable (r := ⟨options⟩) hall
  rw [run_of_ok hr hq ho hl]
  cases results.flatten.isEmpty with
  | true => exact Or.inl rfl
  | false => exact Or.inr rfl

theorem code_of_escapes (hr : q.rule = Rule.id) (hq : q.logged = false) (h : Escapes tree q) :
    ∃ e, (run tree q).code = .error e := by
  rcases h with ⟨path, hc, hl⟩ | ⟨⟨options, ho⟩, before, path, after, d, hp, hb, hd, ha⟩
  · obtain ⟨f, hf, hn⟩ := Filter.load_unhandled_iff.mpr hl
    have ho : optionsOf tree q = .error f := by rw [optionsOf, hc]; exact hf
    refine ⟨.options f, ?_⟩
    rw [run, ho]
    dsimp only
    rw [if_neg (Bool.eq_false_iff.mp hn)]
  · obtain ⟨results, hl⟩ := lintsTo_of_usable (r := ⟨options⟩) hb
    obtain ⟨f, hf⟩ := lintFile_tree_of_not_accepted (r := ⟨options⟩) hd ha
    exact ⟨.tree f, by rw [run_of_tree_fault hr hq ho hp hl hf]⟩

/-- All that is neither usable nor unhandled is answered with code two. -/
theorem code_of_not (hr : q.rule = Rule.id) (hq : q.logged = false) (hu : ¬ AllUsable tree q)
    (he : ¬ Escapes tree q) : (run tree q).code = .ok 2 := by
  cases ho : optionsOf tree q with
  | error f =>
    cases hf : f.isConfig with
    | true => rw [run_of_config_fault ho hf]
    | false =>
      -- options that are not named cannot fail, so these have a path
      cases hc : q.config with
      | none => rw [optionsOf, hc] at ho; cases ho
      | some path =>
        rw [optionsOf, hc] at ho
        exact absurd (Or.inl ⟨path, hc, Filter.load_unhandled_iff.mp ⟨f, ho, hf⟩⟩) he
  | ok options =>
    rcases usable_or_first tree q.paths with hall | ⟨before, path, after, hp, hb, hn⟩
    · exact absurd ⟨⟨options, ho⟩, hall⟩ hu
    · obtain ⟨results, hl⟩ := lintsTo_of_usable (r := ⟨options⟩) hb
      rcases holds_or_fault ⟨options⟩ tree path with ⟨d, hd⟩ | ⟨fault, hf, hne⟩
      · have ha : ¬ Accepted d := fun ha => hn ⟨d, hd, ha⟩
        exact absurd (Or.inr ⟨⟨options, ho⟩, before, path, after, d, hp, hb, hd, ha⟩) he
      · rw [run_of_file_fault hr hq ho hp hl hf hne]

end Codes

/-- A file whose element has a number in place of its attributes. -/
def refusedFile : Tree :=
  .ofWorkdir [] [
    (["a"], .file "\x7b\"type\": \"JSXOpeningElement\", \"attributes\": 5\x7d".toUTF8.toList)]

end Report

end AttributeLint
