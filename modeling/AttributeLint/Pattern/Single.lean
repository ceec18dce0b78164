import AttributeLint.Pattern.Regex
import AttributeLint.Text.Blank
import AttributeLint.Text.Case
import AttributeLint.Text.Digit
import AttributeLint.Text.Letter

/-!
# Single characters

Which characters a code point, a class and a named class match, under given flags.  Where case is
ignored, the lower-case form of a character is looked up among the lower-case forms of the members.
Members beyond the first 65536 code points are not brought to lower case; of a range that reaches
there, either case of the character may lie in it.
-/

namespace AttributeLint.Pattern

/-- Whether a named class holds a character, in ASCII or in all of Unicode. -/
def Category.holds (unicode : Bool) (c : Char) : Category → Bool
  | .digit => if unicode then (Text.digitValue? c).isSome else c.isDigit
  | .space => if unicode then Text.isSpace c else Text.isAsciiBlank c
  | .word =>
    if unicode then c == '_' || Text.isLetter c || Text.isNumeric c
    else c == '_' || c.isAlphanum

namespace Flags

/-- Whether a character belongs to words. -/
def isWord (f : Flags) (c : Char) : Bool :=
  Category.word.holds f.unicode c

/-- The lower-case form of a code point. -/
def lower (f : Flags) (n : Nat) : Nat :=
  if f.unicode then Text.lower n else Text.asciiLower n

/-- The code points that stand for a lower-case one. -/
def variants (f : Flags) (n : Nat) : List Nat :=
  if f.unicode then Text.variants n else Text.asciiVariants n

/-- Whether the case of a code point is ignored. -/
def ignores (f : Flags) (n : Nat) : Bool :=
  f.ignoreCase && if f.unicode then Text.isCased n else Text.isAsciiLetter n

/-- Whether the case of a code point between two others is ignored. -/
def ignoresWithin (f : Flags) (low high : Nat) : Bool :=
  f.ignoreCase && if f.unicode then Text.casedWithin low high else Text.asciiLetterWithin low high

/-- Whether two characters are the same, up to case if it is ignored. -/
def same (f : Flags) (a b : Char) : Bool :=
  if f.ignoreCase then f.lower a.toNat == f.lower b.toNat else a == b

/-- Whether a code point matches a character. -/
def codeHolds (f : Flags) (n : Nat) (c : Char) : Bool :=
  if f.ignores n then (f.variants (f.lower n)).contains c.toNat else c.toNat == n

end Flags

/-- The last code point that classes bring to lower case. -/
def lastFolded : Nat := 0xFFFF

namespace ClassItem

/-- Whether a member holds a character as it is. -/
def holds (unicode : Bool) (c : Char) : ClassItem → Bool
  | .code n => c.toNat == n
  | .range first last => first ≤ c.toNat && c.toNat ≤ last
  | .category k negated => k.holds unicode c != negated

/-- Whether a member makes its class ignore case. -/
def ignored (f : Flags) : ClassItem → Bool
  | .code n => f.ignoreCase && (lastFolded < n || f.ignores n)
  | .range first last => f.ignoreCase && (lastFolded < last || f.ignoresWithin first last)
  | .category _ _ => false

/-- Whether a member of a class that ignores case holds a character, of which the lower-case form is
given. -/
def holdsLower (f : Flags) (c : Char) : ClassItem → Bool
  | .code n => if lastFolded < n then c.toNat == n else (f.variants c.toNat).contains n
  | .range first last =>
    ((f.variants c.toNat).any fun n => first ≤ n && n ≤ min last lastFolded) ||
      (lastFolded < last &&
        ((first ≤ c.toNat && c.toNat ≤ last) ||
          (first ≤ Text.upper c.toNat && Text.upper c.toNat ≤ last)))
  | .category k negated => k.holds f.unicode c != negated

end ClassItem

/-- Whether a class ignores case. -/
def classIgnores (f : Flags) (items : List ClassItem) : Bool :=
  items.any (·.ignored f)

/-- Whether a class matches a character. -/
def classHolds (f : Flags) (negated : Bool) (items : List ClassItem) (c : Char) : Bool :=
  if classIgnores f items then
    items.any (·.holdsLower f (Char.ofNat (f.lower c.toNat))) != negated
  else items.any (·.holds f.unicode c) != negated

/-- An expression for one character: what it matches, and whether counting how often it matches in a
row moves the place register of the matcher. -/
structure Single where
  holds : Char → Bool
  moves : Bool

/-- The single character that an expression stands for, if it does. -/
def Regex.single? : Regex → Flags → Option Single
  | code negated n, f =>
    some ⟨fun c => f.codeHolds n c != negated,
      f.unicode && f.ignores n && Text.sharesCapital (Text.lower n)⟩
  | any, f => some ⟨fun c => f.dotAll || c != '\n', false⟩
  | oneOf negated items, f => some ⟨classHolds f negated items, classIgnores f items⟩
  | flagged on off r, f => r.single? (f.switch on off)
  | _, _ => none

/-- What an expression begins with, as far as it is looked at before the expression is tried. -/
inductive Lead where
  | code (n : Nat)
  | oneOf (unicode negated : Bool) (items : List ClassItem)
  | other
  deriving DecidableEq, Repr

namespace Lead

/-- Whether what begins so is tried before some characters. -/
def admits (l : Lead) (after : List Char) : Bool :=
  match l, after with
  | other, _ => true
  | _, [] => false
  | code n, c :: _ => c.toNat == n
  | oneOf unicode negated items, c :: _ => items.any (·.holds unicode c) != negated

end Lead

/-- What an expression begins with when `after` follows it. -/
def Regex.lead (f : Flags) (after : Lead) : Regex → Lead
  | empty => after
  | code false n => if f.ignores n then .other else .code n
  | oneOf negated items =>
    if classIgnores f items then .other else .oneOf f.unicode negated items
  | cat r s => r.lead f (s.lead f after)
  | flagged on off r => r.lead (f.switch on off) after
  | _ => .other

end AttributeLint.Pattern
