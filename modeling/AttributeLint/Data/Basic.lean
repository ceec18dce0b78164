import AttributeLint.Number.Binary64

/-!
# Data

The values that a JSON or TOML text writes.  The fields of an object stand in a list, in the order of
the text; a reader never writes the same field twice, and `put` keeps it so.
-/

namespace AttributeLint

/-- What a written date or time gives. -/
inductive Moment where
  | date
  | time
  | dateTime
  deriving DecidableEq, Repr, Inhabited

/-- A value with ordered fields.  Whole numbers and floating-point numbers are different values. -/
inductive Data where
  | null
  | bool (b : Bool)
  | int (n : Int)
  | float (x : Binary64)
  | str (s : String)
  | moment (m : Moment)
  | list (items : List Data)
  | object (fields : List (String × Data))
  deriving Repr, Inhabited

/-- The fields of an object. -/
abbrev Fields := List (String × Data)

namespace Fields

/-- The value of a field. -/
def get? (fields : Fields) (key : String) : Option Data :=
  List.lookup key fields

/-- Whether there is a field of that name. -/
def has (fields : Fields) (key : String) : Bool :=
  fields.any (·.1 == key)

/-- Gives a field a value: in its place if it is there, else at the end. -/
def put (fields : Fields) (key : String) (value : Data) : Fields :=
  match fields with
  | [] => [(key, value)]
  | (k, v) :: rest => if k == key then (k, value) :: rest else (k, v) :: put rest key value

/-- The names of the fields. -/
def keys (fields : Fields) : List String :=
  fields.map (·.1)

end Fields

namespace Data

/-- The kind of a value, as messages call it. -/
def kind : Data → String
  | null => "NoneType"
  | bool _ => "bool"
  | int _ => "int"
  | float _ => "float"
  | str _ => "str"
  | moment .date => "date"
  | moment .time => "time"
  | moment .dateTime => "datetime"
  | list _ => "list"
  | object _ => "dict"

/-- The value of a field, or null where there is none; only objects have fields. -/
def field (d : Data) (key : String) : Data :=
  match d with
  | object fields => (Fields.get? fields key).getD null
  | _ => null

end Data

end AttributeLint
