import AttributeLint.Pattern.Flags

/-!
# Regular expressions

The tree that a pattern is read into.  Characters of a pattern are code points rather than
characters, since a pattern may name numbers that are no characters and hence match nothing.
-/

namespace AttributeLint.Pattern

/-- A place in a text, by what stands around it. -/
inductive Anchor where
  /-- The start of the text. -/
  | textStart
  /-- The start of the text, and with `multiline` of each line. -/
  | lineStart
  /-- The end of the text. -/
  | textEnd
  /-- The end of the text, before a line break at its end, and with `multiline` before each. -/
  | lineEnd
  /-- Between a character of a word and one that is none. -/
  | boundary
  /-- Not there, and not in the empty text. -/
  | notBoundary
  deriving DecidableEq, Repr

/-- A named class of characters. -/
inductive Category where
  | digit
  | space
  | word
  deriving DecidableEq, Repr

/-- A member of a class in brackets. -/
inductive ClassItem where
  | code (n : Nat)
  | range (first last : Nat)
  | category (c : Category) (negated : Bool)
  deriving DecidableEq, Repr

/-- The least and the greatest number of characters that an expression matches. -/
structure Width where
  least : Nat
  most : Nat
  deriving DecidableEq, Repr

/-- Which count of repetitions is tried first, and whether others are tried at all. -/
inductive Greed where
  | greedy
  | lazy
  | possessive
  deriving DecidableEq, Repr

/-- Where a look-around looks: on from its place, or at as many characters before it as its
expression matches. -/
inductive Direction where
  | ahead
  | behind (width : Width)
  deriving DecidableEq, Repr

/-- A regular expression.  Alternatives stand one after another under `alt`, closed by `never`. -/
inductive Regex where
  | empty
  /-- Matches nothing. -/
  | never
  | code (negated : Bool) (n : Nat)
  | any
  | oneOf (negated : Bool) (items : List ClassItem)
  | anchor (a : Anchor)
  | cat (r s : Regex)
  | alt (r s : Regex)
  | capture (group : Nat) (r : Regex)
  | flagged (on off : Flags) (r : Regex)
  | iterate (greed : Greed) (least : Nat) (most : Option Nat) (r : Regex)
  | atomic (r : Regex)
  | look (direction : Direction) (negated : Bool) (r : Regex)
  | backref (group : Nat) (width : Width)
  | whether (group : Nat) (yes no : Regex)
  deriving DecidableEq, Repr, Inhabited

namespace Width

/-- Greatest widths are not told apart from here on, and least widths stay below. -/
def cap : Nat := 4294967295

/-- A width with both ends cut, so that one that is too large is never fixed. -/
def capped (least most : Nat) : Width :=
  ⟨min least (cap - 1), min most cap⟩

/-- The width of one expression after another. -/
def add (v w : Width) : Width :=
  capped (v.least + w.least) (v.most + w.most)

/-- The width of one of two expressions. -/
def either (v w : Width) : Width :=
  ⟨min v.least w.least, max v.most w.most⟩

/-- The width of a repeated expression. -/
def times (w : Width) (least : Nat) (most : Option Nat) : Width :=
  match most with
  | some most => capped (w.least * least) (w.most * most)
  | none => capped (w.least * least) (if w.most == 0 then 0 else cap)

end Width

namespace Regex

/-- The width of an expression. -/
def width : Regex → Width
  | empty => ⟨0, 0⟩
  | never => ⟨0, 0⟩
  | code _ _ => ⟨1, 1⟩
  | any => ⟨1, 1⟩
  | oneOf _ _ => ⟨1, 1⟩
  | anchor _ => ⟨0, 0⟩
  | cat r s => r.width.add s.width
  | alt r never => r.width
  | alt r s => r.width.either s.width
  | capture _ r => r.width
  | flagged _ _ r => r.width
  | iterate _ least most r => r.width.times least most
  | atomic r => r.width
  | look _ _ _ => ⟨0, 0⟩
  | backref _ w => w
  | whether _ yes no => yes.width.either no.width

/-- The expressions that an expression is the sequence of. -/
def items : Regex → List Regex
  | empty => []
  | cat r s => r.items ++ s.items
  | r => [r]

/-- An expression without the parentheses of a group that does nothing else. -/
def bare : Regex → Regex
  | flagged on off r => if on = {} && off = {} then r else flagged on off r
  | r => r

/-- Expressions one after another. -/
def cats : List Regex → Regex
  | [] => empty
  | [r] => r
  | r :: rest => cat r (cats rest)

/-- Expressions one after another, with bare groups taken apart. -/
def sequence (rs : List Regex) : Regex :=
  cats (rs.flatMap fun r => r.bare.items)

end Regex

end AttributeLint.Pattern
