import AttributeLint.Filter.Expression
import AttributeLint.Rule.Finding
import AttributeLint.Syntax.Opening

/-!
# The rule

The rule reports attributes whose value is a literal text, as far as its options let it.  A collector
keeps what is reported, in the order of the reports.
-/

namespace AttributeLint

open Files (Path)
open AttributeLint.Filter (Descriptor Options)
open Syntax (Attribute Opening)

/-- The rule with its options. -/
structure Rule where
  options : Options := {}
  deriving Repr, Inhabited

/-- What has been reported, under a name for the rule and for a file. -/
structure Collector where
  rule : String
  file : Option Path := none
  findings : List Finding := []
  deriving Repr, Inhabited

namespace Rule

/-- The name of the rule. -/
def id : String := "no-attribute-string-literals"

/-- What the rule does, in words. -/
def explanation : String :=
  "Reports JSX attributes whose value is a raw string literal (`tone=\"primary\"` or " ++
    "`tone=\x7b\"primary\"\x7d`). `ignore` excuses matching attributes; `only` restricts the " ++
    "check to matching attributes and is applied before `ignore`."

/-- The rules that there are, by name. -/
def registry : List (String × String) :=
  [(id, explanation)]

/-- The message for an attribute. -/
def message (d : Descriptor) : String :=
  "Attribute `" ++ d.name ++ "` on component `" ++ d.component ++
    "` has invalid string literal `" ++ d.value ++ "`."

/-- The attributes of an element that have a literal text as their value, in their order. -/
def descriptors (o : Opening) : List (Descriptor × Attribute) :=
  o.attributes.filterMap fun a =>
    a.literal?.map fun value => (⟨o.tag.name, a.name.text, value⟩, a)

end Rule

namespace Collector

/-- A collector under the name of the rule. -/
def empty (file : Option Path) : Collector :=
  { rule := Rule.id, file }

/-- The finding for an attribute. -/
def finding (c : Collector) (d : Descriptor) (a : Attribute) : Finding where
  rule := c.rule
  message := Rule.message d
  file := c.file
  line := a.position.map (·.line)
  column := a.position.map (·.column)

end Collector

/-- Reports the attributes of an element. -/
def Rule.visit (r : Rule) (o : Opening) (c : Collector) : Collector :=
  let reported := (descriptors o).filter fun entry => r.options.reports entry.1
  { c with findings := c.findings ++ reported.map fun entry => c.finding entry.1 entry.2 }

end AttributeLint
