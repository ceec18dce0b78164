/-!
# Paths

A path is a root, which most paths do not have, and parts.  Dots that mean the same place and
repeated slashes are dropped when a path is read; two dots are kept, since what they mean depends on
the files.
-/

namespace AttributeLint.Files

/-- A path to a file. -/
structure Path where
  /-- Empty for a path from the working directory, else one slash or two. -/
  root : String
  parts : List String
  deriving DecidableEq, Repr, Inhabited

/-- The pieces of a text between slashes. -/
def segments (text : List Char) : List (List Char) :=
  match text with
  | [] => [[]]
  | '/' :: rest => [] :: segments rest
  | c :: rest =>
    match segments rest with
    | [] => [[c]]
    | first :: more => (c :: first) :: more

namespace Path

/-- The root of a path: two slashes stay two, any other number of them is one. -/
def rootOf (text : List Char) : String :=
  match (text.takeWhile (· == '/')).length with
  | 0 => ""
  | 2 => "//"
  | _ => "/"

/-- Reads a path. -/
def ofText (text : String) : Path where
  root := rootOf text.toList
  parts := ((segments text.toList).map String.ofList).filter fun part => part != "" && part != "."

/-- The text of a path; the working directory is a dot. -/
def text (p : Path) : String :=
  let body := p.root ++ "/".intercalate p.parts
  if body.isEmpty then "." else body

/-- The last part of a path, empty where there is none. -/
def name (p : Path) : String :=
  p.parts.getLast?.getD ""

/-- The end of a name from its last dot on; empty if that dot is the first or the last character. -/
def suffixOf (name : List Char) : List Char :=
  let extension := (name.reverse.takeWhile (· != '.')).reverse
  if extension.isEmpty || name.length ≤ extension.length + 1 then [] else '.' :: extension

/-- The end of the name of a path from its last dot on. -/
def suffix (p : Path) : String :=
  String.ofList (suffixOf p.name.toList)

end Path

end AttributeLint.Files
