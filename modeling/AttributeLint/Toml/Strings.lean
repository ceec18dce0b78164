import AttributeLint.Text.Hex
import AttributeLint.Toml.Fault

/-!
# Strings, blanks and comments of TOML

Basic strings have escapes and stand between double quotes, literal strings have none and stand
between single ones.  Three quotes make a string that may run over several lines; it may end in up to
two quotes of its own.
-/

namespace AttributeLint.Toml

/-- Space and tab. -/
def isBlank (c : Char) : Bool :=
  c == ' ' || c == '\t'

/-- Space, tab and line feed. -/
def isGap (c : Char) : Bool :=
  isBlank c || c == '\n'

/-- The control characters of ASCII. -/
def isControl (c : Char) : Bool :=
  c.toNat < 0x20 || c.toNat == 0x7F

/-- The control characters that no string and no comment may hold: all but the tab, and in strings of
several lines the line feed. -/
def isForbidden (multiline : Bool) (c : Char) : Bool :=
  isControl c && c != '\t' && !(multiline && c == '\n')

/-- A part of a text that has to be free of forbidden characters, followed by the rest of the text. -/
def checkClean (multiline : Bool) (part rest : List Char) : Except Fault Unit :=
  match part.dropWhile fun c => !isForbidden multiline c with
  | [] => .ok ()
  | c :: more => .error ⟨.invalidCharacter c, more.length + 1 + rest.length⟩

/-- The text without a comment at its start. -/
def skipComment (text : List Char) : Except Fault (List Char) :=
  match text with
  | '#' :: rest => do
    let (body, rest) := rest.span (· != '\n')
    checkClean false body rest
    return rest
  | _ => .ok text

/-- The text without blanks, line feeds and comments at its start. -/
def skipGaps : Nat → List Char → Except Fault (List Char)
  | 0, text => .ok text
  | n + 1, text =>
    match text.dropWhile isGap with
    | '#' :: rest => do
      let text ← skipComment ('#' :: rest)
      skipGaps n text
    | text => .ok text

/-! ### Escapes -/

/-- The character that a backslash and a letter stand for. -/
def shortEscape? : Char → Option Char
  | 'b' => some '\x08'
  | 't' => some '\t'
  | 'n' => some '\n'
  | 'f' => some '\x0C'
  | 'r' => some '\r'
  | '"' => some '"'
  | '\\' => some '\\'
  | _ => none

/-- A character by its number of a fixed count of digits. -/
def hexChar (count : Nat) (text : List Char) : Except Fault (List Char × List Char) :=
  let digits := text.take count
  let rest := text.drop count
  if digits.length ≠ count || !digits.all Text.isHexDigit then .error ⟨.hexValue, text.length⟩
  else
    let n := Text.ofHex digits
    if n < 0xD800 || (0xDFFF < n && n ≤ 0x10FFFF) then .ok ([Char.ofNat n], rest)
    else .error ⟨.notScalar, rest.length⟩

/-- What follows a backslash at the end of a line, or before blanks at its end. -/
def lineEnd (c : Char) (rest : List Char) : Except Fault (List Char × List Char) :=
  if c == '\n' then .ok ([], rest.dropWhile isGap)
  else
    match rest.dropWhile isBlank with
    | [] => .ok ([], [])
    | '\n' :: rest => .ok ([], rest.dropWhile isGap)
    | rest => .error ⟨.unescaped, rest.length⟩

/-- What follows a backslash: the characters that the escape stands for, one or none. -/
def escape (multiline : Bool) (text : List Char) : Except Fault (List Char × List Char) :=
  match text with
  | [] => .error ⟨.unescaped, 0⟩
  | c :: rest =>
    if multiline && isGap c then lineEnd c rest
    else if c == 'u' then hexChar 4 rest
    else if c == 'U' then hexChar 8 rest
    else match shortEscape? c with
      | some e => .ok ([e], rest)
      | none => .error ⟨.unescaped, rest.length⟩

/-! ### Strings -/

/-- The rest of a basic string after its opening quotes, after the characters `done`, the last of them
first. -/
def basicTail (multiline : Bool) : Nat → List Char → List Char → Except Fault (List Char × List Char)
  | 0, _, text => .error ⟨.unterminated, text.length⟩
  | n + 1, done, text =>
    match text with
    | [] => .error ⟨.unterminated, 0⟩
    | '"' :: rest =>
      if !multiline then .ok (done.reverse, rest)
      else match rest with
        | '"' :: '"' :: rest => .ok (done.reverse, rest)
        | _ => basicTail multiline n ('"' :: done) rest
    | '\\' :: rest => do
      let (cs, rest) ← escape multiline rest
      basicTail multiline n (cs.reverse ++ done) rest
    | c :: rest =>
      if isForbidden multiline c then .error ⟨.illegalCharacter c, rest.length + 1⟩
      else basicTail multiline n (c :: done) rest

/-- The characters up to three single quotes, and what follows these. -/
def untilThree : List Char → List Char → Option (List Char × List Char)
  | _, [] => none
  | done, '\'' :: '\'' :: '\'' :: rest => some (done.reverse, rest)
  | done, c :: rest => untilThree (c :: done) rest

/-- A literal string of one line, after its opening quote. -/
def literalTail (text : List Char) : Except Fault (List Char × List Char) := do
  let (body, rest) := text.span (· != '\'')
  match rest with
  | [] => throw ⟨.missingQuote "'", 0⟩
  | _ :: after =>
    checkClean false body rest
    return (body, after)

/-- A literal string of several lines, after its opening quotes. -/
def longLiteralTail (text : List Char) : Except Fault (List Char × List Char) := do
  match untilThree [] text with
  | none => throw ⟨.missingQuote "'''", 0⟩
  | some (body, after) =>
    checkClean true body ('\'' :: '\'' :: '\'' :: after)
    return (body, after)

/-- Up to two more quotes belong to a string of several lines. -/
def extraQuotes (quote : Char) (found : List Char × List Char) : List Char × List Char :=
  match found.2 with
  | a :: rest =>
    if a != quote then found
    else match rest with
      | b :: more => if b != quote then (found.1 ++ [quote], rest) else (found.1 ++ [quote, quote], more)
      | [] => (found.1 ++ [quote], rest)
  | [] => found

/-- A line feed right behind the opening quotes does not count. -/
def dropFirstBreak : List Char → List Char
  | '\n' :: rest => rest
  | text => text

/-- A string that starts with a double quote. -/
def basicString (text : List Char) : Except Fault (List Char × List Char) :=
  match text with
  | '"' :: '"' :: '"' :: rest =>
    extraQuotes '"' <$> basicTail true (rest.length + 1) [] (dropFirstBreak rest)
  | _ => basicTail false (text.length + 1) [] (text.drop 1)

/-- A string that starts with a single quote. -/
def literalString (text : List Char) : Except Fault (List Char × List Char) :=
  match text with
  | '\'' :: '\'' :: '\'' :: rest => extraQuotes '\'' <$> longLiteralTail (dropFirstBreak rest)
  | _ => literalTail (text.drop 1)

end AttributeLint.Toml
