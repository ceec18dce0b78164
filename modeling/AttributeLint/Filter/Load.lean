import AttributeLint.Files.Tree
import AttributeLint.Filter.Read
import AttributeLint.Json.Reader
import AttributeLint.Toml.Reader

/-!
# Options in files

Options are loaded from a TOML or a JSON file; the end of its name says which, in capitals or not.
The text is read before the name is looked at.
-/

namespace AttributeLint.Filter

open Files (Path Tree)

/-- Why options cannot be loaded. -/
inductive LoadFault where
  | file (f : Files.Fault)
  | encoding (path : Path) (f : Text.Utf8.Fault)
  | format (path : Path)
  | toml (path : Path) (text : List Char) (f : Toml.Fault)
  | json (path : Path) (text : List Char) (f : Json.Fault)
  | options (l : Located)
  deriving DecidableEq, Repr

namespace LoadFault

/-- A fault told with the path of the file. -/
def inFile (path : Path) (grammatical : Bool) (message : String) : String :=
  if grammatical then path.text ++ ": " ++ message else message

/-- The wording of a fault. -/
def message : LoadFault → String
  | .file f => f.message
  | .encoding path f => path.text ++ ": not valid UTF-8 (" ++ f.message ++ ")"
  | .format path => path.text ++ ": unsupported config format (expected .toml or .json)"
  | .toml path text f => inFile path f.isGrammatical (f.message text)
  | .json path text f => inFile path f.isGrammatical (f.message text)
  | .options l => l.message

/-- Whether a fault is one of the configuration.  A path that no file can have is none, nor is a
pattern that fails without being malformed, nor a number that is too long. -/
def isConfig : LoadFault → Bool
  | .file f => f.cause != .nullByte
  | .encoding _ _ => true
  | .format _ => true
  | .toml _ _ f => f.isGrammatical
  | .json _ _ f => f.isGrammatical
  | .options l =>
    match l.fault with
    | .config _ _ => true
    | .pattern _ => false

end LoadFault

/-- The value that the text of a file writes, by the end of the file's name. -/
def readAs (path : Path) (text : List Char) : Except LoadFault Data :=
  let ending := path.suffix.toList.map Char.toLower
  if ending == ".toml".toList then (Toml.read text).mapError (.toml path text)
  else if ending == ".json".toList then (Json.read text).mapError (.json path text)
  else .error (.format path)

/-- The options in a file. -/
def Options.load (tree : Tree) (path : Path) : Except LoadFault Options :=
  match tree.text path with
  | .error (.file f) => .error (.file f)
  | .error (.encoding f) => .error (.encoding path f)
  | .ok text => do
    let d ← readAs path text
    (Options.read d).mapError .options

end AttributeLint.Filter
