import AttributeLint.Pattern.Fault
import AttributeLint.Pattern.Regex

/-!
# Admissible expressions

Some expressions that can be read cannot be matched: a look behind needs a fixed width that is not too
large, and the template flag leaves no room for repetition.  A width that is too large is noticed
last.
-/

namespace AttributeLint.Pattern.Regex

/-- How messages call a repetition. -/
def operatorName : Greed → String
  | .greedy => "MAX_REPEAT"
  | .lazy => "MIN_REPEAT"
  | .possessive => "POSSESSIVE_REPEAT"

/-- The fault of looking behind by a width. -/
def widthFault? (w : Width) : Option Cause :=
  if w.least ≠ w.most then some .variableLookbehind else none

/-- The first fault from the left of an expression, if it has any. -/
def fault? (template : Bool) : Regex → Option Cause
  | cat r s => (r.fault? template).or (s.fault? template)
  | alt r s => (r.fault? template).or (s.fault? template)
  | capture _ r => r.fault? template
  | flagged _ _ r => r.fault? template
  | iterate greed _ _ r =>
    if template then some (.templateOperator (operatorName greed)) else r.fault? template
  | atomic r => r.fault? template
  | look (.behind w) _ r => (widthFault? w).or (r.fault? template)
  | look .ahead _ r => r.fault? template
  | whether _ yes no => (yes.fault? template).or (no.fault? template)
  | _ => none

/-- A look behind goes back by less than this many characters. -/
def reach : Nat := 2147483648

/-- Whether an expression looks behind too far. -/
def isTooFar : Regex → Bool
  | cat r s => r.isTooFar || s.isTooFar
  | alt r s => r.isTooFar || s.isTooFar
  | capture _ r => r.isTooFar
  | flagged _ _ r => r.isTooFar
  | iterate _ _ _ r => r.isTooFar
  | atomic r => r.isTooFar
  | look (.behind w) _ r => reach ≤ w.least || r.isTooFar
  | look .ahead _ r => r.isTooFar
  | whether _ yes no => yes.isTooFar || no.isTooFar
  | _ => false

end AttributeLint.Pattern.Regex
