import AttributeLint.Text.Hex
import AttributeLint.Text.Printable

/-!
# Quoted text

Messages quote a text so that it fits on one line and its ends can be seen.  Single quotes are
used unless the text holds one and no double quote.  The quote in use and the backslash get a
backslash, line breaks and tabs are named, and any other character that is not printable is written
by its number in the shortest of the forms `\x`, `\u` and `\U`.
-/

namespace AttributeLint.Text

/-- The quote that goes around a text. -/
def quoteFor (text : List Char) : Char :=
  if text.contains '\'' && !text.contains '"' then '"' else '\''

/-- One character as it stands between quotes. -/
def quoteChar (quote c : Char) : List Char :=
  if c == quote || c == '\\' then ['\\', c]
  else if c == '\n' then ['\\', 'n']
  else if c == '\r' then ['\\', 'r']
  else if c == '\t' then ['\\', 't']
  else if isPrintable c then [c]
  else if c.toNat < 0x100 then '\\' :: 'x' :: hex 2 c.toNat
  else if c.toNat < 0x10000 then '\\' :: 'u' :: hex 4 c.toNat
  else '\\' :: 'U' :: hex 8 c.toNat

/-- A text in quotes. -/
def quote (text : List Char) : List Char :=
  let q := quoteFor text
  q :: text.flatMap (quoteChar q) ++ [q]

/-- A text in quotes. -/
def quoted (text : String) : String :=
  String.ofList (quote text.toList)

/-- Several texts in quotes between parentheses; a single one keeps a comma behind it. -/
def quotedTuple (texts : List String) : String :=
  match texts with
  | [one] => "(" ++ quoted one ++ ",)"
  | _ => "(" ++ ", ".intercalate (texts.map quoted) ++ ")"

end AttributeLint.Text
