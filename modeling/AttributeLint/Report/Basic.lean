import AttributeLint.Json.Writer
import AttributeLint.Rule.Finding

/-!
# Reports

The findings of a run as lines for a reader, or as one JSON document for a program.
-/

namespace AttributeLint.Report

/-- An integer, or null. -/
def optional : Option Int → Data
  | some n => .int n
  | none => .null

/-- A finding as data. -/
def violation (f : Finding) : Data :=
  .object [
    ("rule", .str f.rule),
    ("file", match f.file with
      | some path => .str path.text
      | none => .null),
    ("line", optional f.line),
    ("column", optional f.column),
    ("message", .str f.message)]

/-- The findings of some files as data. -/
def document (files : Nat) (findings : List Finding) : Data :=
  .object [
    ("violations", .list (findings.map violation)),
    ("summary", .object [("files", .int files), ("violations", .int findings.length)])]

/-- The findings of some files as a JSON text. -/
def json (files : Nat) (findings : List Finding) : String :=
  Json.write (.indented 2) (document files findings)

/-- The last line of a report. -/
def summary (files : Nat) (findings : List Finding) : String :=
  if findings.isEmpty then "✓ No violations in " ++ toString files ++ " file(s)"
  else "✗ " ++ toString findings.length ++ " violation(s) in " ++ toString files ++ " file(s)"

/-- The findings of some files as lines. -/
def lines (files : Nat) (findings : List Finding) : List String :=
  findings.map (·.text) ++ ["", summary files findings]

end AttributeLint.Report
