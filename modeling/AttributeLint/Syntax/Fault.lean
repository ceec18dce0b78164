/-!
# Faults of syntax trees

Most shapes that no parser writes are read as something that the rules pass over.  A few are refused.
-/

namespace AttributeLint.Syntax

/-- Why a node cannot be read. -/
inductive Fault where
  /-- A value of this kind stands where the attributes should be. -/
  | notIterable (kind : String)
  /-- A value of this kind stands where an element should be. -/
  | noFields (kind : String)
  /-- A coordinate is infinite. -/
  | infinitePosition
  deriving DecidableEq, Repr

/-- The wording of a fault. -/
def Fault.message : Fault → String
  | .notIterable kind => "'" ++ kind ++ "' object is not iterable"
  | .noFields kind => "'" ++ kind ++ "' object has no attribute 'get'"
  | .infinitePosition => "cannot convert float infinity to integer"

end AttributeLint.Syntax
