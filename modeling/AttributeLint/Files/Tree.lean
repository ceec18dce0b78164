import AttributeLint.Files.Path
import AttributeLint.Text.Lines
import AttributeLint.Text.Quoted
import AttributeLint.Text.Utf8

/-!
# Files

The files that a run can see are a value: what is at each place, and which place is the working
directory.  A path is followed part by part, and every part but the last has to lead to a directory.
-/

namespace AttributeLint.Files

/-- What a path can lead to. -/
inductive Item where
  | file (bytes : List UInt8)
  | directory
  deriving Repr, Inhabited

/-- A place: the names that lead there from the root. -/
abbrev Place := List String

/-- What is at each place, and the working directory.  The directories above a place need not be
listed. -/
structure Tree where
  workdir : Place
  items : List (Place × Item)
  deriving Repr, Inhabited

/-- Why a path does not lead to a file. -/
inductive Cause where
  | missing
  | notDirectory
  | isDirectory
  /-- The path holds the character zero, which no name can hold. -/
  | nullByte
  deriving DecidableEq, Repr

/-- A path that does not lead to a file, and why. -/
structure Fault where
  path : String
  cause : Cause
  deriving DecidableEq, Repr

/-- The wording of a fault. -/
def Fault.message (f : Fault) : String :=
  match f.cause with
  | .missing => "[Errno 2] No such file or directory: " ++ Text.quoted f.path
  | .notDirectory => "[Errno 20] Not a directory: " ++ Text.quoted f.path
  | .isDirectory => "[Errno 21] Is a directory: " ++ Text.quoted f.path
  | .nullByte => "embedded null byte"

namespace Tree

/-- The files of a working directory, by the names that lead from there to each. -/
def ofWorkdir (workdir : Place) (items : List (Place × Item)) : Tree where
  workdir
  items := items.map fun entry => (workdir ++ entry.1, entry.2)

/-- What is at a place. -/
def item? (t : Tree) (place : Place) : Option Item :=
  match t.items.lookup place with
  | some item => some item
  | none =>
    if place.isPrefixOf t.workdir || t.items.any (fun entry => place.isPrefixOf entry.1) then
      some .directory
    else none

/-- The place that a part leads to from another place. -/
def step (place : Place) (part : String) : Place :=
  if part == "" || part == "." then place
  else if part == ".." then place.dropLast
  else place ++ [part]

/-- Follows parts from a place. -/
def follow (t : Tree) (place : Place) : List String → Except Cause Place
  | [] => .ok place
  | part :: rest =>
    match t.item? place with
    | some .directory => follow t (step place part) rest
    | some (.file _) => .error .notDirectory
    | none => .error .missing

/-- What parts lead to, from the working directory or from the root. -/
def lookup (t : Tree) (absolute : Bool) (parts : List String) : Except Cause Item := do
  if parts.any fun part => part.toList.contains (Char.ofNat 0) then throw .nullByte
  let place ← t.follow (if absolute then [] else t.workdir) parts
  match t.item? place with
  | some item => return item
  | none => throw .missing

/-- What a text leads to when it is followed as it stands, empty parts and dots included. -/
def stat (t : Tree) (text : String) : Except Cause Item :=
  if text.isEmpty then .error .missing
  else t.lookup (text.toList.head? == some '/') ((segments text.toList).map String.ofList)

/-- The bytes of the file at a path. -/
def bytes (t : Tree) (p : Path) : Except Fault (List UInt8) :=
  match t.lookup (!p.root.isEmpty) p.parts with
  | .ok (.file bytes) => .ok bytes
  | .ok .directory => .error ⟨p.text, .isDirectory⟩
  | .error cause => .error ⟨p.text, cause⟩

end Tree

/-- Why the text of a file cannot be read. -/
inductive TextFault where
  | file (f : Fault)
  | encoding (f : Text.Utf8.Fault)
  deriving DecidableEq, Repr

/-- The wording of a fault. -/
def TextFault.message : TextFault → String
  | .file f => f.message
  | .encoding f => f.message

/-- The text of the file at a path, with every line break as a line feed. -/
def Tree.text (t : Tree) (p : Path) : Except TextFault (List Char) :=
  match t.bytes p with
  | .error f => .error (.file f)
  | .ok bytes =>
    match Text.Utf8.decode bytes with
    | .error f => .error (.encoding f)
    | .ok text => .ok (Text.unifyBreaks text)

end AttributeLint.Files
