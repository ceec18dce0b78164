import AttributeLint.Rule.Basic
import AttributeLint.Syntax.Walk
import AttributeLint.Text.Quoted

/-!
# Linting a tree

The rule visits every opening element of a tree in the order of the text.  The log tells of tags of an
unknown type and how many elements there were; it is kept also where a fault ends the visit.
-/

namespace AttributeLint

open Files (Path)
open Syntax (Opening)

/-- What linting gives: lines for the log, and the findings or the fault that ended it. -/
structure Linted where
  log : List String
  outcome : Except Syntax.Fault (List Finding)

namespace Rule

/-- A line of the log for a tag of an unknown type. -/
def tagNote (source : String) (o : Opening) : List String :=
  match o.tag with
  | .other type => ["Unrecognized tag name node " ++ Text.quoted type ++ " in " ++ source]
  | _ => []

/-- Visits elements, after `log` was written and `visited` elements were visited. -/
def visitAll (r : Rule) (source : String) (log : List String) (visited : Nat) (c : Collector) :
    List Fields → Linted
  | [] =>
    ⟨log ++ ["Visited " ++ toString visited ++ " opening elements in " ++ source], .ok c.findings⟩
  | fields :: rest =>
    match Opening.ofFields fields with
    | .error fault => ⟨log, .error fault⟩
    | .ok o => visitAll r source (log ++ tagNote source o) (visited + 1) (r.visit o c) rest

/-- Lints a tree. -/
def lint (r : Rule) (file : Option Path) (tree : Data) : Linted :=
  let source := match file with
    | some path => path.text
    | none => "<input>"
  visitAll r source [] 0 (Collector.empty file) (Syntax.openings tree)

end Rule

/-- A line of the log as it is written out. -/
def logLine (message : String) : String :=
  "DEBUG attrlit.linter: " ++ message

end AttributeLint
