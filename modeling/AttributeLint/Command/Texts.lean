/-!
# Texts of the command line

How each command is used, in one line and at length.
-/

namespace AttributeLint.Command

/-- What can be called: the program itself, or one of its commands. -/
inductive Callee where
  | program
  | lint
  | rules
  deriving DecidableEq, Repr

namespace Callee

/-- How it is called. -/
def name : Callee → String
  | program => "cli"
  | lint => "cli lint"
  | rules => "cli rules"

/-- How it is used, in one line. -/
def usage : Callee → String
  | program => "cli [OPTIONS] COMMAND [ARGS]..."
  | lint => "cli lint [OPTIONS] FILES..."
  | rules => "cli rules [OPTIONS]"

/-- What it does and which options it has, line by line. -/
def details : Callee → List String
  | program => [
      "  attrlit - Flag raw string literals in JSX attributes.",
      "",
      "  Reads ESTree JSON produced by an external JavaScript parser and reports",
      "  attributes that should use design-system tokens instead.",
      "",
      "Options:",
      "  --version  Show the version and exit.",
      "  --debug    Enable debug logging",
      "  --help     Show this message and exit.",
      "",
      "Commands:",
      "  lint   Lint ESTree JSON documents.",
      "  rules  List the available rules."]
  | lint => [
      "  Lint ESTree JSON documents.",
      "",
      "  Examples:",
      "",
      "      attrlit lint build/ast/Button.json",
      "",
      "      attrlit lint build/ast/*.json --config attrlit.toml --json",
      "",
      "Options:",
      "  -c, --config FILE  TOML or JSON file with the rule's `only` / `ignore` options",
      "  --json             Output results as JSON",
      "  --help             Show this message and exit."]
  | rules => [
      "  List the available rules.",
      "",
      "Options:",
      "  --help  Show this message and exit."]

/-- How it is used, at length. -/
def help (c : Callee) : List String :=
  ["Usage: " ++ c.usage, ""] ++ c.details

/-- A wrong use of it. -/
def wrong (c : Callee) (text : String) : List String :=
  ["Usage: " ++ c.usage, "Try '" ++ c.name ++ " --help' for help.", "", "Error: " ++ text]

end Callee

/-- The version of the program. -/
def version : String :=
  "attrlit, version 0.1.0"

end AttributeLint.Command
