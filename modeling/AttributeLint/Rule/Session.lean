import AttributeLint.Filter.Read
import AttributeLint.Rule.Lint

/-!
# Sessions

A session has a rule and a collector in force.  A step replaces one of them, visits an element or
lints a tree; a step that fails leaves both as they were.
-/

namespace AttributeLint

open Files (Path)
open Syntax (Opening)

/-- The rule and the collector in force. -/
structure Session where
  rule : Rule := {}
  collector : Collector := Collector.empty none
  deriving Inhabited

namespace Session

/-- What can be asked of a session. -/
inductive Step where
  | options (raw : Data)
  | collector (rule : Option String) (file : Option Path)
  | visit (element : Data)
  | lint (tree : Data)
  deriving Inhabited

/-- What a session answers. -/
inductive Answer where
  | options (o : Filter.Options)
  | collected (findings : List Finding)
  | linted (findings : List Finding)
  deriving Inhabited

/-- Why a step fails. -/
inductive Failure where
  | options (fault : Filter.Located)
  | tree (fault : Syntax.Fault)
  deriving DecidableEq, Repr

/-- One step: its answer, and what is then in force. -/
def step (s : Session) : Step → Except Failure Answer × Session
  | .options raw =>
    match Filter.Options.read raw with
    | .ok o => (.ok (.options o), { s with rule := ⟨o⟩ })
    | .error fault => (.error (.options fault), s)
  | .collector rule file =>
    (.ok (.collected []), { s with collector := { rule := rule.getD Rule.id, file } })
  | .visit element =>
    match Opening.ofNode element with
    | .ok o =>
      let collector := s.rule.visit o s.collector
      (.ok (.collected collector.findings), { s with collector })
    | .error fault => (.error (.tree fault), s)
  | .lint tree =>
    match (s.rule.lint none tree).outcome with
    | .ok findings => (.ok (.linted findings), s)
    | .error fault => (.error (.tree fault), s)

/-- The answers to some steps, one after another. -/
def run (s : Session) : List Step → List (Except Failure Answer)
  | [] => []
  | step :: rest =>
    let (answer, s) := s.step step
    answer :: run s rest

end Session

end AttributeLint
