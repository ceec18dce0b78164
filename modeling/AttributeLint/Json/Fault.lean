import AttributeLint.Number.Integer
import AttributeLint.Text.Lines

/-!
# Faults of JSON texts

A fault is found with part of the text still unread, and its place is told by how many characters are
left from there on.
-/

namespace AttributeLint.Json

/-- What is wrong with a text. -/
inductive Cause where
  | value
  | fieldName
  | colon
  | comma
  | unterminated
  | controlCharacter
  | escape
  | unicodeEscape
  | extraData
  | byteOrderMark
  | tooManyDigits (count : Nat)
  deriving DecidableEq, Repr

/-- A cause, and the number of characters from its place to the end of the text. -/
structure Fault where
  cause : Cause
  left : Nat
  deriving DecidableEq, Repr

/-- The wording of a cause. -/
def Cause.text : Cause → String
  | .value => "Expecting value"
  | .fieldName => "Expecting property name enclosed in double quotes"
  | .colon => "Expecting ':' delimiter"
  | .comma => "Expecting ',' delimiter"
  | .unterminated => "Unterminated string starting at"
  | .controlCharacter => "Invalid control character at"
  | .escape => "Invalid \\escape"
  | .unicodeEscape => "Invalid \\uXXXX escape"
  | .extraData => "Extra data"
  | .byteOrderMark => "Unexpected UTF-8 BOM (decode using utf-8-sig)"
  | .tooManyDigits count => Integer.tooLong count

/-- Whether a fault is one of the grammar; the limit on digits is none. -/
def Fault.isGrammatical (f : Fault) : Bool :=
  match f.cause with
  | .tooManyDigits _ => false
  | _ => true

/-- The wording of a fault in a text. -/
def Fault.message (f : Fault) (text : List Char) : String :=
  if f.isGrammatical then
    let index := text.length - f.left
    let place := Text.lineColumn text index
    f.cause.text ++ ": line " ++ toString place.1 ++ " column " ++ toString place.2 ++
      " (char " ++ toString index ++ ")"
  else f.cause.text

end AttributeLint.Json
