import AttributeLint.Pattern.Regex

/-!
# Choices

Alternatives that begin alike are the common beginning, followed by a choice between what is left of
them.  A choice between single characters is a class.
-/

namespace AttributeLint.Pattern.Regex

/-- Whether an expression has no expressions inside it; only such ones are compared. -/
def isPlain : Regex → Bool
  | code _ _ => true
  | any => true
  | oneOf _ _ => true
  | anchor _ => true
  | backref _ _ => true
  | _ => false

/-- The common beginning of a sequence and others, and what is left of all of them. -/
def commonStart : List Regex → List (List Regex) → List Regex × List (List Regex)
  | [], others => ([], [] :: others)
  | r :: rest, others =>
    if r.isPlain && others.all (·.head? == some r) then
      let (shared, left) := commonStart rest (others.map List.tail)
      (r :: shared, left)
    else ([], (r :: rest) :: others)

/-- The members of a class that an alternative is equal to. -/
def members? : List Regex → Option (List ClassItem)
  | [code false n] => some [.code n]
  | [oneOf false items] => some items
  | _ => none

/-- Alternatives one after another. -/
def alts : List (List Regex) → Regex
  | [] => never
  | first :: rest => alt (cats first) (alts rest)

/-- A choice between alternatives that do not begin alike. -/
def branch (alternatives : List (List Regex)) : Regex :=
  match alternatives.mapM members? with
  | some members => oneOf false members.flatten.eraseDups
  | none => alts alternatives

/-- The first of several expressions that leads to a match. -/
def choices : List Regex → Regex
  | [] => empty
  | [r] => r
  | r :: others =>
    let (shared, left) := commonStart r.items (others.map items)
    cats (shared ++ [branch left])

end AttributeLint.Pattern.Regex
