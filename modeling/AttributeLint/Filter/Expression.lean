import AttributeLint.Pattern.Compiled

/-!
# Filter expressions

An expression selects attributes by what is known of them: the component they stand on, their name and
their value.  A leaf names texts and patterns for each of the three and matches if one of them does.
-/

namespace AttributeLint.Filter

/-- What is known of an attribute with a literal value. -/
structure Descriptor where
  component : String
  name : String
  value : String
  deriving DecidableEq, Repr, Inhabited

/-- Texts without repetition, in increasing order. -/
def sortedSet (texts : List String) : List String :=
  (texts.mergeSort fun a b => decide (a ≤ b)).eraseDups

/-- What a leaf asks of one text: to be one of some texts, or to match one of some patterns. -/
structure Axis where
  names : List String := []
  patterns : List Pattern := []
  deriving Repr, Inhabited

/-- A leaf: what it asks of the name, the component and the value. -/
structure Criteria where
  name : Axis := {}
  component : Axis := {}
  value : Axis := {}
  deriving Repr, Inhabited

/-- A filter expression. -/
inductive Expression where
  | and (children : List Expression)
  | or (children : List Expression)
  | not (child : Expression)
  | criteria (c : Criteria)
  deriving Repr, Inhabited

/-- Whether a text is what an axis asks for. -/
def Axis.holds (a : Axis) (text : String) : Bool :=
  a.names.contains text || a.patterns.any (·.search text)

/-- Whether one of the three axes matches; a leaf without any matches nothing. -/
def Criteria.holds (c : Criteria) (d : Descriptor) : Bool :=
  c.name.holds d.name || c.component.holds d.component || c.value.holds d.value

namespace Expression

mutual

/-- Whether an expression matches an attribute. -/
def holds (d : Descriptor) : Expression → Bool
  | .and children => allHold d children
  | .or children => anyHold d children
  | .not child => !holds d child
  | .criteria c => c.holds d

/-- Whether all expressions match. -/
def allHold (d : Descriptor) : List Expression → Bool
  | [] => true
  | e :: rest => holds d e && allHold d rest

/-- Whether one of the expressions matches. -/
def anyHold (d : Descriptor) : List Expression → Bool
  | [] => false
  | e :: rest => holds d e || anyHold d rest

end

end Expression

/-- Which attributes are reported: those that one of `only` matches, all if it is empty, less those
that one of `ignore` matches. -/
structure Options where
  only : List Expression := []
  ignore : List Expression := []
  deriving Repr, Inhabited

namespace Options

/-- Whether an attribute is reported. -/
def reports (o : Options) (d : Descriptor) : Bool :=
  (o.only.isEmpty || Expression.anyHold d o.only) && !Expression.anyHold d o.ignore

/-- The attributes that are reported, in their order. -/
def reported (o : Options) (ds : List Descriptor) : List Descriptor :=
  ds.filter o.reports

end Options

end AttributeLint.Filter
