import AttributeLint.Data.Basic
import AttributeLint.Json.Fault
import AttributeLint.Text.Hex

/-!
# Reading JSON

The reader takes the standard grammar and, beside it, the numbers `NaN`, `Infinity` and `-Infinity`.
A field that occurs twice keeps its first place and its last value.  Every function here gets the
characters that are still to be read and gives back those it did not use.
-/

namespace AttributeLint.Json

/-- Space, tab, line feed and carriage return. -/
def isBlank (c : Char) : Bool :=
  c == ' ' || c == '\t' || c == '\n' || c == '\r'

/-- The characters from the first on that is not blank. -/
def skip (text : List Char) : List Char :=
  text.dropWhile isBlank

/-! ### Strings -/

/-- The number that four hexadecimal digits write. -/
def hexFour? (a b c d : Char) : Option Nat :=
  if [a, b, c, d].all Text.isHexDigit then some (Text.ofHex [a, b, c, d]) else none

/-- The first half of a pair of units. -/
def isHighUnit (n : Nat) : Bool :=
  0xD800 ≤ n && n ≤ 0xDBFF

/-- The second half of a pair of units. -/
def isLowUnit (n : Nat) : Bool :=
  0xDC00 ≤ n && n ≤ 0xDFFF

/-- The character of a unit; half a pair alone gives the replacement character. -/
def unitChar (n : Nat) : Char :=
  if isHighUnit n || isLowUnit n then '�' else Char.ofNat n

/-- The character of a pair of units. -/
def pairChar (high low : Nat) : Char :=
  Char.ofNat (0x10000 + (high - 0xD800) * 0x400 + (low - 0xDC00))

/-- The character that a backslash and a letter stand for. -/
def shortEscape? : Char → Option Char
  | '"' => some '"'
  | '\\' => some '\\'
  | '/' => some '/'
  | 'b' => some '\x08'
  | 'f' => some '\x0C'
  | 'n' => some '\n'
  | 'r' => some '\r'
  | 't' => some '\t'
  | _ => none

/-- One written character of a string whose opening quote starts `opening`, and what follows it. -/
def character (opening : List Char) : List Char → Except Fault (Char × List Char)
  | [] => .error ⟨.unterminated, opening.length⟩
  | '\\' :: [] => .error ⟨.unterminated, opening.length⟩
  | '\\' :: 'u' :: a :: b :: c :: d :: rest =>
    match rest, hexFour? a b c d with
    | [], _ => .error ⟨.unicodeEscape, rest.length + 5⟩
    | _, none => .error ⟨.unicodeEscape, rest.length + 5⟩
    | '\\' :: 'u' :: e :: f :: g :: h :: more, some n =>
      if isHighUnit n && !more.isEmpty then
        match hexFour? e f g h with
        | none => .error ⟨.unicodeEscape, more.length + 5⟩
        | some m => if isLowUnit m then .ok (pairChar n m, more) else .ok (unitChar n, rest)
      else .ok (unitChar n, rest)
    | _, some n => .ok (unitChar n, rest)
  | '\\' :: c :: rest =>
    if c == 'u' then .error ⟨.unicodeEscape, rest.length + 1⟩
    else match shortEscape? c with
      | some e => .ok (e, rest)
      | none => .error ⟨.escape, rest.length + 2⟩
  | c :: rest =>
    if c.toNat < 0x20 then .error ⟨.controlCharacter, rest.length + 1⟩ else .ok (c, rest)

/-- The rest of a string whose opening quote starts `opening`, after the characters `done`, the last
of them first. -/
def stringTail (opening : List Char) :
    Nat → List Char → List Char → Except Fault (String × List Char)
  | 0, _, _ => .error ⟨.unterminated, opening.length⟩
  | n + 1, done, text =>
    match text with
    | '"' :: rest => .ok (String.ofList done.reverse, rest)
    | _ => do
      let (c, rest) ← character opening text
      stringTail opening n (c :: done) rest

/-! ### Numbers -/

/-- The digits at the start of a text, and what follows them. -/
def digits (text : List Char) : List Char × List Char :=
  text.span Char.isDigit

/-- The number that decimal digits write. -/
def ofDecimalDigits (ds : List Char) : Nat :=
  ds.foldl (fun n c => 10 * n + (c.toNat - 0x30)) 0

/-- The digits before the point: a zero alone, or digits that do not start with one. -/
def wholePart? : List Char → Option (List Char × List Char)
  | '0' :: rest => some (['0'], rest)
  | text =>
    match digits text with
    | ([], _) => none
    | found => some found

/-- The digits behind a point, none if there is no point with a digit behind it. -/
def fraction : List Char → List Char × List Char
  | '.' :: rest =>
    match digits rest with
    | ([], _) => ([], '.' :: rest)
    | found => found
  | text => ([], text)

/-- A power of ten behind the mark `e`, if one is written. -/
def exponent? : List Char → Option (Int × List Char)
  | mark :: rest =>
    if mark == 'e' || mark == 'E' then
      let (negative, body) := match rest with
        | '-' :: body => (true, body)
        | '+' :: body => (false, body)
        | body => (false, body)
      match digits body with
      | ([], _) => none
      | (ds, rest) =>
        let size : Int := ofDecimalDigits ds
        some (if negative then -size else size, rest)
    else none
  | [] => none

/-- A number at the start of a text. -/
def number (text : List Char) : Except Fault (Data × List Char) :=
  let (negative, body) := match text with
    | '-' :: body => (true, body)
    | body => (false, body)
  match wholePart? body with
  | none => .error ⟨.value, text.length⟩
  | some (whole, rest) =>
    let (behind, rest) := fraction rest
    match behind, exponent? rest with
    | [], none =>
      if whole.length ≤ Integer.digitLimit then
        let size : Int := ofDecimalDigits whole
        .ok (.int (if negative then -size else size), rest)
      else .error ⟨.tooManyDigits whole.length, text.length⟩
    | _, power =>
      let (scale, rest) := power.getD (0, rest)
      .ok (.float (Binary64.ofDecimal negative (ofDecimalDigits (whole ++ behind))
        (scale - behind.length)), rest)

/-! ### Values -/

mutual

/-- A value at the start of a text. -/
def value : Nat → List Char → Except Fault (Data × List Char)
  | 0, text => .error ⟨.value, text.length⟩
  | n + 1, text =>
    match text with
    | '"' :: rest => do
      let (s, rest) ← stringTail text (n + 1) [] rest
      .ok (.str s, rest)
    | '[' :: rest =>
      match skip rest with
      | ']' :: rest => .ok (.list [], rest)
      | rest => items n [] rest
    | '\x7b' :: rest =>
      match skip rest with
      | '\x7d' :: rest => .ok (.object [], rest)
      | rest => fields n [] rest
    | 'n' :: 'u' :: 'l' :: 'l' :: rest => .ok (.null, rest)
    | 't' :: 'r' :: 'u' :: 'e' :: rest => .ok (.bool true, rest)
    | 'f' :: 'a' :: 'l' :: 's' :: 'e' :: rest => .ok (.bool false, rest)
    | 'N' :: 'a' :: 'N' :: rest => .ok (.float .nan, rest)
    | 'I' :: 'n' :: 'f' :: 'i' :: 'n' :: 'i' :: 't' :: 'y' :: rest =>
      .ok (.float (.infinite false), rest)
    | '-' :: 'I' :: 'n' :: 'f' :: 'i' :: 'n' :: 'i' :: 't' :: 'y' :: rest =>
      .ok (.float (.infinite true), rest)
    | text => number text

/-- The items of a list up to its bracket, after the items `done`, the last of them first. -/
def items : Nat → List Data → List Char → Except Fault (Data × List Char)
  | 0, _, text => .error ⟨.value, text.length⟩
  | n + 1, done, text => do
    let (d, rest) ← value n text
    match skip rest with
    | ']' :: rest => .ok (.list (d :: done).reverse, rest)
    | ',' :: rest => items n (d :: done) (skip rest)
    | rest => .error ⟨.comma, rest.length⟩

/-- The fields of an object up to its brace, after the fields `done`. -/
def fields : Nat → Fields → List Char → Except Fault (Data × List Char)
  | 0, _, text => .error ⟨.value, text.length⟩
  | n + 1, done, text =>
    match text with
    | '"' :: rest => do
      let (key, rest) ← stringTail text (n + 1) [] rest
      match skip rest with
      | ':' :: rest => do
        let (d, rest) ← value n (skip rest)
        match skip rest with
        | '\x7d' :: rest => .ok (.object (done.put key d), rest)
        | ',' :: rest => fields n (done.put key d) (skip rest)
        | rest => .error ⟨.comma, rest.length⟩
      | rest => .error ⟨.colon, rest.length⟩
    | text => .error ⟨.fieldName, text.length⟩

end

/-- The value that a text writes, with nothing but blanks around it. -/
def read (text : List Char) : Except Fault Data :=
  match text with
  | '﻿' :: _ => .error ⟨.byteOrderMark, text.length⟩
  | _ => do
    let (d, rest) ← value (2 * text.length + 2) (skip text)
    match skip rest with
    | [] => .ok d
    | rest => .error ⟨.extraData, rest.length⟩

end AttributeLint.Json
