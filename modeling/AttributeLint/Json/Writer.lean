import AttributeLint.Data.Basic
import AttributeLint.Number.Text
import AttributeLint.Text.Hex

/-!
# Writing JSON

The text holds ASCII characters only: any other character is written by its units of sixteen bits.
A layout either keeps all on one line or gives every item and field a line of its own.
-/

namespace AttributeLint.Json

/-- How a text is laid out: on one line, or with this many more blanks for each level. -/
inductive Layout where
  | compact
  | indented (step : Nat)
  deriving DecidableEq, Repr

/-- A character by its units of sixteen bits. -/
def unitEscape (c : Char) : List Char :=
  if c.toNat < 0x10000 then '\\' :: 'u' :: Text.hex 4 c.toNat
  else
    let n := c.toNat - 0x10000
    '\\' :: 'u' :: Text.hex 4 (0xD800 + n / 0x400) ++
      '\\' :: 'u' :: Text.hex 4 (0xDC00 + n % 0x400)

/-- One character as it stands in a string. -/
def escapeChar (c : Char) : List Char :=
  if c == '"' then ['\\', '"']
  else if c == '\\' then ['\\', '\\']
  else if c == '\n' then ['\\', 'n']
  else if c == '\r' then ['\\', 'r']
  else if c == '\t' then ['\\', 't']
  else if c == '\x08' then ['\\', 'b']
  else if c == '\x0C' then ['\\', 'f']
  else if 0x20 ≤ c.toNat && c.toNat ≤ 0x7E then [c]
  else unitEscape c

/-- A string in its quotes. -/
def writeString (s : String) : List Char :=
  '"' :: s.toList.flatMap escapeChar ++ ['"']

/-- A floating-point number. -/
def writeFloat : Binary64 → String
  | .nan => "NaN"
  | .infinite negative => if negative then "-Infinity" else "Infinity"
  | x => x.text

/-- What stands before an item or a closing bracket at a level. -/
def Layout.lineBreak (layout : Layout) (level : Nat) : List Char :=
  match layout with
  | .compact => []
  | .indented step => '\n' :: List.replicate (step * level) ' '

mutual

/-- The text of a value at a level. -/
def writeAt (layout : Layout) (level : Nat) : Data → List Char
  | .null => "null".toList
  | .bool b => if b then "true".toList else "false".toList
  | .int n => (toString n).toList
  | .float x => (writeFloat x).toList
  | .str s => writeString s
  | .moment .date => writeString "date"
  | .moment .time => writeString "time"
  | .moment .dateTime => writeString "datetime"
  | .list [] => ['[', ']']
  | .list (d :: rest) =>
    '[' :: layout.lineBreak (level + 1) ++ writeAt layout (level + 1) d ++
      writeItems layout (level + 1) rest ++ layout.lineBreak level ++ [']']
  | .object [] => ['\x7b', '\x7d']
  | .object ((key, d) :: rest) =>
    '\x7b' :: layout.lineBreak (level + 1) ++ writeString key ++ ':' :: ' ' ::
      writeAt layout (level + 1) d ++ writeFields layout (level + 1) rest ++
      layout.lineBreak level ++ ['\x7d']

/-- The items after the first. -/
def writeItems (layout : Layout) (level : Nat) : List Data → List Char
  | [] => []
  | d :: rest =>
    ',' :: layout.lineBreak level ++ writeAt layout level d ++ writeItems layout level rest

/-- The fields after the first. -/
def writeFields (layout : Layout) (level : Nat) : List (String × Data) → List Char
  | [] => []
  | (key, d) :: rest =>
    ',' :: layout.lineBreak level ++ writeString key ++ ':' :: ' ' :: writeAt layout level d ++
      writeFields layout level rest

end

/-- The text of a value. -/
def write (layout : Layout) (d : Data) : String :=
  String.ofList (writeAt layout 0 d)

end AttributeLint.Json
