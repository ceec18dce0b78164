import AttributeLint.Files.Tree
import AttributeLint.Json.Reader
import AttributeLint.Rule.Lint

/-!
# Linting a file

A file holds a tree as JSON.  A file that cannot be read as JSON is one thing, a tree that the rule
cannot read another.
-/

namespace AttributeLint

open Files (Path Tree)

/-- Why a file is not linted. -/
inductive FileFault where
  | text (f : Files.TextFault)
  | json (text : List Char) (f : Json.Fault)
  | tree (f : Syntax.Fault)
  deriving DecidableEq, Repr

/-- The wording of a fault. -/
def FileFault.message : FileFault → String
  | .text f => f.message
  | .json source f => f.message source
  | .tree f => f.message

/-- What linting a file gives: lines for the log, and the findings or the fault. -/
structure LintedFile where
  log : List String
  outcome : Except FileFault (List Finding)

/-- Lints a file. -/
def Rule.lintFile (r : Rule) (tree : Tree) (path : Path) : LintedFile :=
  match tree.text path with
  | .error f => ⟨[], .error (.text f)⟩
  | .ok text =>
    match Json.read text with
    | .error f => ⟨[], .error (.json text f)⟩
    | .ok d =>
      let linted := r.lint (some path) d
      ⟨linted.log, linted.outcome.mapError .tree⟩

end AttributeLint
