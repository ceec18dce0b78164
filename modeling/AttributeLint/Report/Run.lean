import AttributeLint.Filter.Load
import AttributeLint.Report.Basic
import AttributeLint.Rule.LintFile

/-!
# Runs

A run lints some files with the options of a file.  It gives what is printed and either a code or a
fault that it does not handle.  The code is zero without findings, one with findings, and two if the
options or a file cannot be read; then nothing is reported.
-/

namespace AttributeLint.Report

open Files (Path Tree)

/-- What a run is asked to do. -/
structure Request where
  paths : List Path
  config : Option Path := none
  asJson : Bool := false
  rule : String := Rule.id
  /-- Whether the log is printed. -/
  logged : Bool := false
  deriving Repr, Inhabited

/-- A fault that a run does not handle. -/
inductive Escape where
  | unknownRule (id : String)
  | file (f : Files.Fault)
  | options (f : Filter.LoadFault)
  | tree (f : Syntax.Fault)
  deriving DecidableEq, Repr

/-- What a run prints, and its code or the fault that ends it. -/
structure Outcome where
  stdout : String := ""
  stderr : String := ""
  code : Except Escape Nat

/-- The wording of a fault. -/
def Escape.message : Escape → String
  | .unknownRule id => Text.quoted id
  | .file f => f.message
  | .options f => f.message
  | .tree f => f.message

/-- Lines as they are printed. -/
def printed (lines : List String) : String :=
  String.join (lines.map (· ++ "\n"))

/-- What linting files gives: the lines printed, and the findings, a code or a fault. -/
inductive Progress where
  | findings (fs : List Finding)
  | stopped (code : Nat)
  | escaped (f : Syntax.Fault)

/-- Lints files one after another, after `found` was found. -/
def lintAll (r : Rule) (tree : Tree) (logged : Bool) (found : List Finding) :
    List Path → List String × Progress
  | [] => ([], .findings found)
  | path :: rest =>
    let linted := r.lintFile tree path
    let start := ("Linting " ++ path.text ++ "...") ::
      if logged then linted.log.map logLine else []
    match linted.outcome with
    | .ok fs =>
      let (lines, progress) := lintAll r tree logged (found ++ fs) rest
      (start ++ lines, progress)
    | .error (.tree f) => (start, .escaped f)
    | .error fault =>
      (start ++ ["Cannot read syntax tree " ++ path.text ++ ": " ++ fault.message], .stopped 2)

/-- Lints the files of a request with a rule. -/
def runWith (r : Rule) (tree : Tree) (q : Request) : Outcome :=
  let (lines, progress) := lintAll r tree q.logged [] q.paths
  match progress with
  | .escaped f => { stderr := printed lines, code := .error (.tree f) }
  | .stopped code => { stderr := printed lines, code := .ok code }
  | .findings fs =>
    let files := q.paths.length
    let code := .ok (if fs.isEmpty then 0 else 1)
    if q.asJson then { stdout := json files fs ++ "\n", stderr := printed lines, code }
    else { stderr := printed (lines ++ Report.lines files fs), code }

/-- The options that a request names. -/
def optionsOf (tree : Tree) (q : Request) : Except Filter.LoadFault Filter.Options :=
  match q.config with
  | some path => Filter.Options.load tree path
  | none => .ok {}

/-- Does what a request asks. -/
def run (tree : Tree) (q : Request) : Outcome :=
  match optionsOf tree q with
  | .error f =>
    if f.isConfig then
      { stderr := printed ["Invalid rule configuration: " ++ f.message], code := .ok 2 }
    else { code := .error (.options f) }
  | .ok options =>
    if q.rule == Rule.id then runWith ⟨options⟩ tree q
    else { code := .error (.unknownRule q.rule) }

end AttributeLint.Report
