import AttributeLint.Command.Arguments
import AttributeLint.Command.Texts
import AttributeLint.Report.Run
import AttributeLint.Report.Table

/-!
# The command line

The program takes options of its own, then a command with its arguments.  What it prints and how it
ends is a function of the arguments and the files.  A wrong use of options is told before anything
else, then help is given where it is asked for, and then the files are looked at.
-/

namespace AttributeLint.Command

open Files (Path Tree)
open Report (Outcome Request printed)

/-! ### Ends -/

/-- Printing to standard output and ending well. -/
def told (lines : List String) : Outcome :=
  { stdout := printed lines, code := .ok 0 }

/-- Printing to standard error and ending with a wrong use. -/
def refused (lines : List String) : Outcome :=
  { stderr := printed lines, code := .ok 2 }

/-- The suggestion of similar names behind a complaint. -/
def suggestion : List String → String
  | [] => ""
  | [one] => " Did you mean " ++ Text.quoted one ++ "?"
  | many => " (Did you mean one of: " ++ ", ".intercalate (many.map Text.quoted) ++ "?)"

/-- The end for a wrong use of options. -/
def misused (c : Callee) : Misuse → Outcome
  | .unknown name similar =>
    refused (c.wrong ("No such option " ++ Text.quoted name ++ "." ++ suggestion similar))
  | .needsValue name => refused ["Error: Option " ++ Text.quoted name ++ " requires an argument."]
  | .takesNoValue name =>
    refused ["Error: Option " ++ Text.quoted name ++ " does not take a value."]

/-! ### Options -/

/-- Asks for help. -/
def helpSwitch : Switch := { long := ["--help"] }

/-- Asks for the version. -/
def versionSwitch : Switch := { long := ["--version"] }

/-- Asks for the log. -/
def debugSwitch : Switch := { long := ["--debug"] }

/-- Names the file with the options of the rule. -/
def configSwitch : Switch := { long := ["--config"], short := ["-c"], takesValue := true }

/-- Asks for a JSON document. -/
def jsonSwitch : Switch := { long := ["--json"] }

/-- Whether an option was given. -/
def Arguments.has (a : Arguments) (s : Switch) : Bool :=
  a.found.any (·.option == s)

/-- The value of an option; of several the last one counts. -/
def Arguments.value? (a : Arguments) (s : Switch) : Option String :=
  ((a.found.filter (·.option == s)).getLast?).bind (·.value)

/-! ### Commands -/

/-- The end for the text of an argument that has to be the path of a file and is not. -/
def unfit? (tree : Tree) (argument text : String) : Option Outcome :=
  let invalid (fault : String) : Outcome :=
    refused (Callee.lint.wrong
      ("Invalid value for " ++ argument ++ ": File " ++ Text.quoted text ++ fault))
  match tree.stat text with
  | .ok (.file _) => none
  | .ok .directory => some (invalid " is a directory.")
  | .error .nullByte => some { code := .error (.file ⟨text, .nullByte⟩) }
  | .error _ => some (invalid " does not exist.")

/-- Lints files. -/
def lint (tree : Tree) (logged : Bool) (arguments : List String) : Outcome :=
  match read [configSwitch, jsonSwitch, helpSwitch] true {} arguments with
  | .error misuse => misused .lint misuse
  | .ok a =>
    if a.has helpSwitch then told Callee.lint.help
    else
      let config := a.value? configSwitch
      match config.bind (unfit? tree "'--config' / '-c'"), a.operands,
        a.operands.findSome? (unfit? tree "'FILES...'") with
      | some outcome, _, _ => outcome
      | none, [], _ => refused (Callee.lint.wrong "Missing argument 'FILES...'.")
      | none, _, some outcome => outcome
      | none, operands, none =>
        Report.run tree {
          paths := operands.map Path.ofText
          config := config.map Path.ofText
          asJson := a.has jsonSwitch
          logged }

/-- The paths that the arguments for linting name. -/
def lintPaths (arguments : List String) : List String :=
  match read [configSwitch, jsonSwitch, helpSwitch] true {} arguments with
  | .error _ => []
  | .ok a => a.operands ++ (a.value? configSwitch).toList

/-- Lists the rules. -/
def rules (arguments : List String) : Outcome :=
  match read [helpSwitch] true {} arguments with
  | .error misuse => misused .rules misuse
  | .ok a =>
    if a.has helpSwitch then told Callee.rules.help
    else match a.operands with
      | [] => told Report.ruleTable.lines
      | [one] => refused (Callee.rules.wrong ("Got unexpected extra argument (" ++ one ++ ")"))
      | many =>
        refused (Callee.rules.wrong
          ("Got unexpected extra arguments (" ++ " ".intercalate many ++ ")"))

/-- The options of the program itself. -/
def programSwitches : List Switch :=
  [versionSwitch, debugSwitch, helpSwitch]

/-- The first of the options that end the program at once. -/
def Arguments.early? (a : Arguments) : Option Switch :=
  (a.found.map (·.option)).find? fun s => s == helpSwitch || s == versionSwitch

/-- The names of the commands. -/
def commandNames : List String :=
  ["lint", "rules"]

/-- The end for a command that there is not; one that looks like an option is read as one first. -/
def noCommand (name : String) (rest : List String) : Outcome :=
  let unknown := refused (Callee.program.wrong
    ("No such command " ++ Text.quoted name ++ "." ++ suggestion (similarTo name commandNames)))
  match read programSwitches false {} (name :: rest) with
  | .error misuse => misused .program misuse
  | .ok a =>
    match a.early? with
    | some s => told (if s == helpSwitch then Callee.program.help else [version])
    | none => unknown

/-- The paths that arguments name; what a run does depends on no other files. -/
def paths (arguments : List String) : List String :=
  match read programSwitches false {} arguments with
  | .ok ⟨_, "lint" :: rest⟩ => lintPaths rest
  | _ => []

/-- Runs the program. -/
def run (tree : Tree) (arguments : List String) : Outcome :=
  if arguments.isEmpty then refused Callee.program.help
  else match read programSwitches false {} arguments with
    | .error misuse => misused .program misuse
    | .ok a =>
      match a.early? with
      | some s => told (if s == helpSwitch then Callee.program.help else [version])
      | none =>
        match a.operands with
        | [] => refused (Callee.program.wrong "Missing command.")
        | "lint" :: rest => lint tree (a.has debugSwitch) rest
        | "rules" :: rest => rules rest
        | name :: rest => noCommand name rest

end AttributeLint.Command
