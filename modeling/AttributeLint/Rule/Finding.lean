import AttributeLint.Files.Path

/-!
# Findings

A finding is one reported attribute.  Its text names the file without the way to it, and the position
as far as it is known; a line zero counts as unknown.
-/

namespace AttributeLint

open Files (Path)

/-- A reported attribute. -/
structure Finding where
  rule : String
  message : String
  file : Option Path := none
  line : Option Int := none
  column : Option Int := none
  deriving DecidableEq, Repr, Inhabited

namespace Finding

/-- The place of a finding as its text names it. -/
def place (f : Finding) : String :=
  let file := match f.file with
    | some path => path.name
    | none => "<input>"
  match f.line with
  | none => file
  | some line =>
    if line == 0 then file
    else match f.column with
      | some column => file ++ ":" ++ toString line ++ ":" ++ toString column
      | none => file ++ ":" ++ toString line

/-- The text of a finding. -/
def text (f : Finding) : String :=
  "ERROR: [" ++ f.rule ++ "] " ++ f.place ++ " - " ++ f.message

end Finding

end AttributeLint
