import AttributeLint.Data.Text
import AttributeLint.Pattern.Fault

/-!
# Faults of filter options

A fault in options is told with the way to the value at fault, from the value that was read.  The
name of that value comes first, and whoever asked for the reading knows it.
-/

namespace AttributeLint.Filter

/-- One step into a value. -/
inductive Step where
  | field (name : String)
  | item (index : Nat)
  deriving DecidableEq, Repr

/-- What is wrong with a value. -/
inductive Cause where
  | notObject (kind : String)
  | mixed (combinator : String)
  | unknownKeys (keys : List String)
  | notExpressions
  | notStrings
  /-- A source that is no pattern, and why. -/
  | notPattern (source reason : String)
  deriving DecidableEq, Repr

/-- Why options cannot be read. -/
inductive Fault where
  | config (path : List Step) (cause : Cause)
  /-- A pattern that fails without being malformed. -/
  | pattern (failure : Pattern.Failure)
  deriving DecidableEq, Repr

/-- A step as messages write it. -/
def Step.text : Step → String
  | .field name => "." ++ name
  | .item index => "[" ++ toString index ++ "]"

/-- The wording of a cause. -/
def Cause.text : Cause → String
  | .notObject kind => "expected an object, got " ++ kind
  | .mixed combinator => "'" ++ combinator ++ "' cannot be combined with other keys"
  | .unknownKeys keys => "unknown key(s): " ++ ", ".intercalate keys
  | .notExpressions => "expected a list of expressions"
  | .notStrings => "expected a list of strings"
  | .notPattern source reason =>
    "invalid regular expression " ++ Text.quoted source ++ ": " ++ reason

namespace Fault

/-- A fault with the way to it taken from further out. -/
def under (steps : List Step) : Fault → Fault
  | .config path cause => .config (steps ++ path) cause
  | .pattern failure => .pattern failure

/-- The wording of a fault in a value of a given name. -/
def message (root : String) : Fault → String
  | .config path cause => root ++ String.join (path.map Step.text) ++ ": " ++ cause.text
  | .pattern failure => failure.message []

end Fault

/-- A fault in a value of a given name. -/
structure Located where
  root : String
  fault : Fault
  deriving DecidableEq, Repr

/-- The wording of a fault in a value of a given name. -/
def Located.message (l : Located) : String :=
  l.fault.message l.root

end AttributeLint.Filter
