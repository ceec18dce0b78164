/-!
# Anchors at the end

Patterns are written for a matcher in which a dollar sign means the end of the text and nothing else.
`endAnchors` spells it out: each dollar sign outside brackets and not behind a backslash becomes the
escape for the end of the text.
-/

namespace AttributeLint.Pattern

/-- Where a scan of a pattern stands. -/
structure Scan where
  /-- Between brackets. -/
  inClass : Bool := false
  /-- Behind a backslash. -/
  escaped : Bool := false
  deriving DecidableEq, Repr, Inhabited

namespace Scan

/-- Where the scan stands behind a character. -/
def next (s : Scan) (c : Char) : Scan :=
  if s.escaped then { s with escaped := false }
  else if c == '\\' then { s with escaped := true }
  else if s.inClass then { s with inClass := c != ']' }
  else if c == '[' then { s with inClass := true }
  else s

/-- Whether a character is a dollar sign that is an anchor. -/
def isAnchor (s : Scan) (c : Char) : Bool :=
  !s.escaped && !s.inClass && c == '$'

/-- The characters that a character becomes. -/
def write (s : Scan) (c : Char) : List Char :=
  if s.isAnchor c then ['\\', 'Z'] else [c]

end Scan

/-- Spells out the anchors of the rest of a pattern. -/
def endAnchorsFrom (s : Scan) : List Char → List Char
  | [] => []
  | c :: rest => s.write c ++ endAnchorsFrom (s.next c) rest

/-- Spells out the anchors of a pattern. -/
def endAnchors (source : List Char) : List Char :=
  endAnchorsFrom {} source

end AttributeLint.Pattern
