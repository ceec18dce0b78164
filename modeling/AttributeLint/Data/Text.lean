import AttributeLint.Data.Basic
import AttributeLint.Number.Text
import AttributeLint.Text.Quoted

/-!
# The text of data

`inspect` writes a value so that its kind can be seen: texts are quoted, and the fields of an object
stand between braces.  `text` is the same but for a text that stands alone, which is not quoted.
-/

namespace AttributeLint.Data

mutual

/-- A value with its texts in quotes. -/
def inspect : Data → String
  | null => "None"
  | bool b => if b then "True" else "False"
  | int n => toString n
  | float x => x.text
  | str s => Text.quoted s
  | moment .date => "date"
  | moment .time => "time"
  | moment .dateTime => "datetime"
  | list items => "[" ++ ", ".intercalate (inspectItems items) ++ "]"
  | object fields => "\x7b" ++ ", ".intercalate (inspectFields fields) ++ "\x7d"

/-- The items of a list, each with its texts in quotes. -/
def inspectItems : List Data → List String
  | [] => []
  | d :: rest => inspect d :: inspectItems rest

/-- The fields of an object, each behind its quoted name. -/
def inspectFields : List (String × Data) → List String
  | [] => []
  | (key, d) :: rest => (Text.quoted key ++ ": " ++ inspect d) :: inspectFields rest

end

/-- A value as text: a text as it is, anything else with its texts in quotes. -/
def text : Data → String
  | str s => s
  | d => inspect d

end AttributeLint.Data
