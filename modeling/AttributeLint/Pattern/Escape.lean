import AttributeLint.Pattern.Input
import AttributeLint.Pattern.Regex
import AttributeLint.Text.Hex

/-!
# Escapes

What a backslash and the character behind it stand for, where the two are no reference to a group:
a named class, a control character, a number in one of several spellings, or the character itself.
-/

namespace AttributeLint.Pattern

/-- A single character or a named class. -/
inductive Atom where
  | code (n : Nat)
  | category (c : Category) (negated : Bool)
  deriving DecidableEq, Repr

namespace Escape

/-- The control characters that have a letter. -/
def control? : Char → Option Nat
  | 'a' => some 0x07
  | 'f' => some 0x0C
  | 'n' => some 0x0A
  | 'r' => some 0x0D
  | 't' => some 0x09
  | 'v' => some 0x0B
  | '\\' => some 0x5C
  | _ => none

/-- The named classes. -/
def category? : Char → Option Atom
  | 'd' => some (.category .digit false)
  | 'D' => some (.category .digit true)
  | 's' => some (.category .space false)
  | 'S' => some (.category .space true)
  | 'w' => some (.category .word false)
  | 'W' => some (.category .word true)
  | _ => none

/-- The anchors that are written as an escape. -/
def anchor? : Char → Option Anchor
  | 'A' => some .textStart
  | 'Z' => some .textEnd
  | 'b' => some .boundary
  | 'B' => some .notBoundary
  | _ => none

/-- The text of an escape with the characters read behind it. -/
def spelled (c : Char) (more : List Char) : String :=
  String.ofList ('\\' :: c :: more)

/-- Whether a character is an octal digit. -/
def isOctal (c : Char) : Bool :=
  '0' ≤ c && c ≤ '7'

/-- The number that octal digits write. -/
def ofOctal (digits : List Char) : Nat :=
  digits.foldl (fun n c => 8 * n + (c.toNat - 0x30)) 0

/-- The number that a fixed count of hexadecimal digits writes. -/
def hexNumber (c : Char) (count : Nat) (i : Input) : Except Failure (Nat × Input) := do
  let start := i.place - 2
  let (digits, i) ← i.takeWhile Text.isHexDigit count
  if digits.length ≠ count then
    throw (.at start (.incompleteEscape (spelled c digits)))
  let n := Text.ofHex digits
  if 0x10FFFF < n then throw (.at start (.badEscape (spelled c digits)))
  return (n, i)

/-- A character by its name.  No names are known. -/
def named (i : Input) : Except Failure (Nat × Input) := do
  let start := i.place - 2
  match ← i.accept '\x7b' with
  | none => throw (.at i.place .missingBrace)
  | some i =>
    let (name, _) ← i.name "character name" '\x7d'
    throw (.at start (.undefinedCharacter (String.ofList name)))

/-- The number that a letter announces, if it is one of the letters that do. -/
def number? (c : Char) (i : Input) : Option (Except Failure (Nat × Input)) :=
  match c with
  | 'x' => some (hexNumber c 2 i)
  | 'u' => some (hexNumber c 4 i)
  | 'U' => some (hexNumber c 8 i)
  | 'N' => some (named i)
  | _ => none

/-- An octal number of up to three digits, the first of them already read. -/
def octal (c : Char) (i : Input) : Except Failure (Nat × Input) := do
  let start := i.place - 2
  let (digits, i) ← i.takeWhile isOctal 2
  let n := ofOctal (c :: digits)
  if 0o377 < n then throw (.at start (.octalTooLarge (spelled c digits)))
  return (n, i)

/-- A character that stands for itself; letters and digits do not. -/
def itself (c : Char) (i : Input) : Except Failure (Nat × Input) :=
  if c.isAlphanum then .error (.at (i.place - 2) (.badEscape (spelled c [])))
  else .ok (c.toNat, i)

/-- An escape between brackets. -/
def inClass (c : Char) (i : Input) : Except Failure (Atom × Input) := do
  if c == 'b' then return (.code 0x08, i)
  match control? c, category? c, number? c i with
  | some n, _, _ => return (.code n, i)
  | _, some atom, _ => return (atom, i)
  | _, _, some read =>
    let (n, i) ← read
    return (.code n, i)
  | none, none, none =>
    let (n, i) ← if isOctal c then octal c i else itself c i
    return (.code n, i)

end Escape

end AttributeLint.Pattern
