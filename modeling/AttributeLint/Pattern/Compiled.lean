import AttributeLint.Pattern.Admissible
import AttributeLint.Pattern.Anchors
import AttributeLint.Pattern.Reader
import AttributeLint.Pattern.Search

/-!
# Patterns

A pattern is a source with its anchors spelled out, and the expression that this source is read into.
-/

namespace AttributeLint

/-- A pattern that can be searched for. -/
structure Pattern where
  /-- The source, its anchors spelled out. -/
  source : String
  regex : Pattern.Regex
  flags : Pattern.Flags
  deriving DecidableEq, Repr, Inhabited

namespace Pattern

/-- Reads a source as it is. -/
def ofSource (source : List Char) : Except Failure Pattern := do
  let parsed ← parse source
  match parsed.regex.fault? parsed.flags.template with
  | some cause => throw (.malformed cause none)
  | none =>
    if parsed.regex.isTooFar then throw .tooFarBehind
    return ⟨String.ofList source, parsed.regex, parsed.flags⟩

/-- Reads a source once its anchors are spelled out. -/
def compile (source : String) : Except Failure Pattern :=
  ofSource (endAnchors source.toList)

/-- Whether a pattern matches somewhere in a text. -/
def search (p : Pattern) (text : String) : Bool :=
  p.regex.found p.flags text.toList

end Pattern

end AttributeLint
