import AttributeLint.Pattern.Match

/-!
# Searching

A search tries an expression from one place of a text after another.  Which places it tries depends on
the expression: a text that is shorter than the least width has none, known first characters are
looked for, and otherwise as many characters as the least width have to be left.  Named classes among
the first characters are taken under the flags of the whole pattern.
-/

namespace AttributeLint.Pattern

namespace Regex

/-- The characters that every match begins with, and whether they are all of the expression. -/
def literalStart (f : Flags) : Regex → List Nat × Bool
  | empty => ([], true)
  | code false n => if f.ignores n then ([], false) else ([n], true)
  | cat r s =>
    match r.literalStart f with
    | (first, true) =>
      let (second, all) := s.literalStart f
      (first ++ second, all)
    | (first, false) => (first, false)
  | capture _ r => r.literalStart f
  | flagged on off r => r.literalStart (f.switch on off)
  | _ => ([], false)

/-- The first of the expressions that an expression is the sequence of. -/
def firstItem? : Regex → Option Regex
  | empty => none
  | cat r _ => r.firstItem?
  | r => some r

/-- The first characters of alternatives that each begin with a character whose case counts. -/
def firstCodes? (f : Flags) : Regex → Option (List ClassItem)
  | never => some []
  | alt r s =>
    match r.firstItem? with
    | some (code false n) =>
      if f.ignores n then none else (s.firstCodes? f).map (ClassItem.code n :: ·)
    | _ => none
  | _ => none

/-- Whether the case of a member of a class counts. -/
def isExact (f : Flags) : ClassItem → Bool
  | .code n => !f.ignores n
  | .range first last => !(f.ignoreCase && lastFolded < last) && !f.ignoresWithin first last
  | .category _ _ => true

/-- The class that the first character of every match belongs to, and whether it is negated. -/
def classStart? (f : Flags) : Regex → Option (Bool × List ClassItem)
  | cat r _ => r.classStart? f
  | capture _ r => r.classStart? f
  | flagged on off r => r.classStart? (f.switch on off)
  | alt r s => ((alt r s).firstCodes? f).map (false, ·)
  | oneOf negated items => if items.all (isExact f) then some (negated, items) else none
  | _ => none

/-- The cursors of a text from which an expression is tried. -/
def starts (r : Regex) (f : Flags) (text : List Char) : List Cursor :=
  let least := r.width.least
  let all := Cursor.all text
  if text.length < least then []
  else if least = 0 then all
  else
    match (r.literalStart f).1, r.classStart? f with
    | n :: rest, _ =>
      all.filter fun c => (n :: rest).isPrefixOf (c.after.map Char.toNat)
    | [], some (negated, items) =>
      all.filter fun c => (Lead.oneOf f.unicode negated items).admits c.after
    | [], none => all.take (text.length + 2 - least)

/-- Whether an expression matches somewhere in a text. -/
def found (r : Regex) (f : Flags) (text : List Char) : Bool :=
  (r.starts f text).any (r.holdsAt f)

end Regex

end AttributeLint.Pattern
