import AttributeLint.Number.Integer
import AttributeLint.Text.Lines
import AttributeLint.Text.Quoted

/-!
# Faults of TOML texts

A fault is found with part of the text still unread, and its place is told by how many characters are
left from there on.  With none left it is the end of the document.
-/

namespace AttributeLint.Toml

/-- A dotted key. -/
abbrev Key := List String

/-- What is wrong with a text. -/
inductive Cause where
  | statement
  | afterStatement
  | keyStart
  | equals
  | value
  | tableEnd
  | arrayEnd
  | declaredTwice (key : Key)
  | immutable (key : Key)
  | redefined (key : Key)
  | overwritten
  | duplicate (key : String)
  | unclosedArray
  | unclosedTable
  | missingQuote (quote : String)
  | unterminated
  | invalidCharacter (c : Char)
  | illegalCharacter (c : Char)
  | unescaped
  | hexValue
  | notScalar
  | noSuchDate
  | tooManyDigits (count : Nat)
  deriving DecidableEq, Repr

/-- A cause, and the number of characters from its place to the end of the text. -/
structure Fault where
  cause : Cause
  left : Nat
  deriving DecidableEq, Repr

/-- The wording of a cause. -/
def Cause.text : Cause → String
  | .statement => "Invalid statement"
  | .afterStatement => "Expected newline or end of document after a statement"
  | .keyStart => "Invalid initial character for a key part"
  | .equals => "Expected '=' after a key in a key/value pair"
  | .value => "Invalid value"
  | .tableEnd => "Expected ']' at the end of a table declaration"
  | .arrayEnd => "Expected ']]' at the end of an array declaration"
  | .declaredTwice key => "Cannot declare " ++ Text.quotedTuple key ++ " twice"
  | .immutable key => "Cannot mutate immutable namespace " ++ Text.quotedTuple key
  | .redefined key => "Cannot redefine namespace " ++ Text.quotedTuple key
  | .overwritten => "Cannot overwrite a value"
  | .duplicate key => "Duplicate inline table key " ++ Text.quoted key
  | .unclosedArray => "Unclosed array"
  | .unclosedTable => "Unclosed inline table"
  | .missingQuote quote => "Expected " ++ Text.quoted quote
  | .unterminated => "Unterminated string"
  | .invalidCharacter c => "Found invalid character " ++ Text.quoted (String.singleton c)
  | .illegalCharacter c => "Illegal character " ++ Text.quoted (String.singleton c)
  | .unescaped => "Unescaped '\\' in a string"
  | .hexValue => "Invalid hex value"
  | .notScalar => "Escaped character is not a Unicode scalar value"
  | .noSuchDate => "Invalid date or datetime"
  | .tooManyDigits count => Integer.tooLong count

/-- Whether a fault is one of the grammar; the limit on digits is none. -/
def Fault.isGrammatical (f : Fault) : Bool :=
  match f.cause with
  | .tooManyDigits _ => false
  | _ => true

/-- The wording of a fault in a text. -/
def Fault.message (f : Fault) (text : List Char) : String :=
  if f.isGrammatical then
    let place :=
      if f.left == 0 then "end of document"
      else
        let spot := Text.lineColumn text (text.length - f.left)
        "line " ++ toString spot.1 ++ ", column " ++ toString spot.2
    f.cause.text ++ " (at " ++ place ++ ")"
  else f.cause.text

end AttributeLint.Toml
