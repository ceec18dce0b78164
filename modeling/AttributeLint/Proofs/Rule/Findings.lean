import AttributeLint.Proofs.Filter.Selection
import AttributeLint.Proofs.Syntax.Element
import AttributeLint.Proofs.Syntax.Listing
import AttributeLint.Proofs.Syntax.Names
import AttributeLint.Rule.Lint

/-!
# The findings of a tree

What linting finds, said on the tree and on the options as they are written: go through the opening
elements in the order of the text, on each through the attributes that carry a literal text, and report
those that the options keep (`findingsIn`).

* `visit_findings`: visiting one element adds the findings on its node (`findingsOn`).
* `lint_ok_iff`: linting succeeds exactly if no element is refused, and then gives the findings on all
  elements, one after another.
* `lint_occurrences`: a tree that is linted under one rule is linted under any other, which reports some
  of the same occurrences of literal texts, in the same order.
-/

namespace AttributeLint

open Files (Path)
open AttributeLint.Filter (Descriptor Options keeps reports_eq_keeps)
open Syntax

/-! ## On one element -/

/-- The attributes of an element that carry a literal text, each with what is known of it. -/
def literalsOn (element : Data) : List (Data × Descriptor) :=
  ((itemsOf element).filter (isNode "JSXAttribute")).filterMap fun node =>
    (literalOf node).map fun value =>
      (node, ⟨componentOf (element.field "name"), attributeNameOf node, value⟩)

/-- The finding for the node of an attribute. -/
def findingAt (rule : String) (file : Option Path) (node : Data) (d : Descriptor) : Finding where
  rule := rule
  message := Rule.message d
  file := file
  line := (startOf node).map (·.line)
  column := (startOf node).map (·.column)

/-- The findings on an element, one for each attribute that is kept. -/
def findingsOn (keep : Descriptor → Bool) (rule : String) (file : Option Path) (element : Data) :
    List Finding :=
  ((literalsOn element).filter fun entry => keep entry.2).map fun entry =>
    findingAt rule file entry.1 entry.2

/-- The findings that written options call for in a tree. -/
def findingsIn (raw : Data) (file : Option Path) (tree : Data) : List Finding :=
  (listing tree).flatMap fun fields => findingsOn (keeps raw) Rule.id file (.object fields)

theorem literal?_attributeOf (node : Data) : (attributeOf node).literal? = literalOf node :=
  literal?_ofNode node

/-- The descriptors of an element that has been read are those of its node. -/
theorem descriptors_eq {fields : Fields} {o : Opening} (h : Opening.ofFields fields = .ok o) :
    Rule.descriptors o =
      (literalsOn (.object fields)).map fun entry => (entry.2, attributeOf entry.1) := by
  have hr : ¬ Refused (.object fields) := by
    intro hr
    obtain ⟨f, hf⟩ := ofFields_refused hr
    rw [h] at hf
    cases hf
  obtain ⟨o', ho, ht, ha⟩ := ofFields_read hr
  rw [h] at ho
  cases ho
  rw [Rule.descriptors, ha, ht, literalsOn, List.filterMap_map, List.map_filterMap]
  congr 1
  funext node
  rw [Function.comp_apply, literal?_attributeOf, name_ofNode, Option.map_map]
  congr 1
  funext value
  exact congrArg (fun name => ((⟨_, name, value⟩ : Descriptor), attributeOf node)) (text_ofNode node)

/-- **Visiting an element adds the findings on its node.** -/
theorem visit_findings {fields : Fields} {o : Opening} (h : Opening.ofFields fields = .ok o)
    (r : Rule) (c : Collector) :
    (r.visit o c).findings =
      c.findings ++ findingsOn r.options.reports c.rule c.file (.object fields) := by
  rw [Rule.visit, descriptors_eq h]
  dsimp only
  rw [List.filter_map, List.map_map]
  rfl

/-! ## On a whole tree -/

/-- Visiting goes on to the end exactly if no element is refused; the findings of all of them are added
in their order. -/
theorem visitAll_ok_iff (r : Rule) (source : String) (elements : List Fields) :
    ∀ (log : List String) (visited : Nat) (c : Collector) (fs : List Finding),
      (r.visitAll source log visited c elements).outcome = .ok fs ↔
        (∀ fields ∈ elements, ¬ Refused (.object fields)) ∧
          fs = c.findings ++ elements.flatMap fun fields =>
            findingsOn r.options.reports c.rule c.file (.object fields) := by
  induction elements with
  | nil =>
    intro log visited c fs
    rw [Rule.visitAll, List.flatMap_nil, List.append_nil, Except.ok.injEq]
    exact ⟨fun h => ⟨fun _ hf => absurd hf List.not_mem_nil, h.symm⟩, fun h => h.2.symm⟩
  | cons fields rest ih =>
    intro log visited c fs
    rw [Rule.visitAll, List.forall_mem_cons, List.flatMap_cons]
    by_cases hr : Refused (.object fields)
    · obtain ⟨f, hf⟩ := ofFields_refused hr
      rw [hf]
      exact ⟨nofun, fun h => absurd hr h.1.1⟩
    · obtain ⟨o, ho, _⟩ := ofFields_read hr
      rw [ho]
      dsimp only
      -- the collector keeps its name and its file, so the rest reports under the same ones
      rw [ih, visit_findings ho, List.append_assoc]
      exact ⟨fun h => ⟨⟨hr, h.1⟩, h.2⟩, fun h => ⟨h.1.2, h.2⟩⟩

/-- **Linting a tree** succeeds exactly if no element of it is refused, and then gives the findings on
its elements. -/
theorem lint_ok_iff {r : Rule} {file : Option Path} {tree : Data} {fs : List Finding} :
    (r.lint file tree).outcome = .ok fs ↔
      (∀ fields ∈ listing tree, ¬ Refused (.object fields)) ∧
        fs = (listing tree).flatMap fun fields =>
          findingsOn r.options.reports Rule.id file (.object fields) := by
  unfold Rule.lint
  rw [visitAll_ok_iff, openings_eq_listing]
  rfl

/-- Linting looks at options only for what they report. -/
theorem lint_congr {o o' : Options} (h : ∀ d, o.reports d = o'.reports d) (file : Option Path)
    (tree : Data) : Rule.lint ⟨o⟩ file tree = Rule.lint ⟨o'⟩ file tree := by
  have hvisit : Rule.visit ⟨o⟩ = Rule.visit ⟨o'⟩ := by
    funext opening c
    have hreports : o.reports = o'.reports := funext h
    rw [Rule.visit, Rule.visit, hreports]
  have hall : ∀ (source : String) (elements : List Fields) (log : List String) (visited : Nat)
      (c : Collector), Rule.visitAll ⟨o⟩ source log visited c elements =
        Rule.visitAll ⟨o'⟩ source log visited c elements := by
    intro source elements
    induction elements with
    | nil => intro log visited c; rfl
    | cons fields rest ih =>
      intro log visited c
      rw [Rule.visitAll, Rule.visitAll, hvisit]
      split
      · rfl
      · exact ih _ _ _
  unfold Rule.lint
  rw [hall]

/-- **What is found is what the written options call for.** -/
theorem lint_eq_findingsIn {raw tree : Data} {o : Options} {file : Option Path}
    {fs : List Finding} (ho : Options.read raw = .ok o)
    (hl : (Rule.lint ⟨o⟩ file tree).outcome = .ok fs) : fs = findingsIn raw file tree := by
  have hk : o.reports = keeps raw := funext (reports_eq_keeps ho)
  rw [(lint_ok_iff.mp hl).2, findingsIn, hk]

/-! ## Occurrences -/

/-- An attribute with a literal text as it occurs in a tree: the element that it stands on, its node and
what is known of it. -/
structure Occurrence where
  element : Fields
  node : Data
  descriptor : Descriptor

/-- The finding for an occurrence. -/
def Occurrence.finding (file : Option Path) (occurrence : Occurrence) : Finding :=
  findingAt Rule.id file occurrence.node occurrence.descriptor

/-- The attributes with a literal text in a tree: element after element in the order of the text, and on
each of them in their order.  No rule has a part in this. -/
def occurrences (tree : Data) : List Occurrence :=
  (listing tree).flatMap fun fields =>
    (literalsOn (.object fields)).map fun entry => ⟨fields, entry.1, entry.2⟩

theorem findingsOn_listing (keep : Descriptor → Bool) (file : Option Path) (tree : Data) :
    ((listing tree).flatMap fun fields => findingsOn keep Rule.id file (.object fields)) =
      ((occurrences tree).filter fun occurrence => keep occurrence.descriptor).map
        (·.finding file) := by
  rw [occurrences, List.filter_flatMap, List.map_flatMap]
  congr 1
  funext fields
  rw [List.filter_map, List.map_map]
  rfl

/-- **Rules differ in the occurrences that they report, and in nothing else.**  A tree that is linted
under one rule is linted under any other. -/
theorem lint_occurrences {r : Rule} {file : Option Path} {tree : Data} {fs : List Finding}
    (h : (r.lint file tree).outcome = .ok fs) (r' : Rule) :
    (r'.lint file tree).outcome =
      .ok (((occurrences tree).filter fun occurrence =>
        r'.options.reports occurrence.descriptor).map (·.finding file)) := by
  rw [lint_ok_iff, findingsOn_listing]
  exact ⟨(lint_ok_iff.mp h).1, rfl⟩

/-! ## A tree with an element inside an attribute -/

/-- The node of an attribute with a value. -/
def attributeNode (name : String) (value : Data) : Data :=
  .object [("type", .str "JSXAttribute"),
    ("name", .object [("type", .str "JSXIdentifier"), ("name", .str name)]), ("value", value)]

/-- The node of a literal. -/
def literalNode (value : Data) : Data :=
  .object [("type", .str "Literal"), ("value", value)]

/-- The node of an expression in braces. -/
def bracesNode (expression : Data) : Data :=
  .object [("type", .str "JSXExpressionContainer"), ("expression", expression)]

/-- The node of an opening element. -/
def elementNode (name : String) (attributes : List Data) : Data :=
  .object [("type", .str "JSXOpeningElement"),
    ("name", .object [("type", .str "JSXIdentifier"), ("name", .str name)]),
    ("attributes", .list attributes)]

/-- Four elements: one in a comment, one that the options leave out, one with an empty literal, an empty
text in braces and an element in braces, and that element. -/
def sampleTree : Data :=
  .object [
    ("comments", elementNode "Note" [attributeNode "a" (literalNode (.str "x"))]),
    ("body", .list [
      elementNode "Box" [attributeNode "a" (literalNode (.str "x"))],
      elementNode "Button" [
        attributeNode "a" (literalNode (.str "")),
        attributeNode "b" (bracesNode (literalNode (.str ""))),
        attributeNode "c" (bracesNode
          (elementNode "Icon" [attributeNode "d" (literalNode (.int 2))]))]])]

theorem lint_eq_findingsIn_sample :
    let raw : Data :=
      .object [("only", .object [("not", .object [("components", .list [.str "Box"])])])]
    let o : Options := ⟨[.not (.criteria { component := ⟨["Box"], []⟩ })], []⟩
    let fs : List Finding := [
      { rule := Rule.id, message := Rule.message ⟨"Button", "b", ""⟩ },
      { rule := Rule.id, message := Rule.message ⟨"Icon", "d", "2"⟩ }]
    Options.read raw = .ok o ∧ (Rule.lint ⟨o⟩ none sampleTree).outcome = .ok fs ∧
      fs = findingsIn raw none sampleTree := by
  intro raw o fs
  have ho : Options.read raw = .ok o := by cbv
  have hl : (Rule.lint ⟨o⟩ none sampleTree).outcome = .ok fs := by decide +kernel
  exact ⟨ho, hl, lint_eq_findingsIn ho hl⟩

end AttributeLint
