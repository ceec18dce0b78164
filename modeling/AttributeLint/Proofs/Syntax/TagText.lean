import AttributeLint.Proofs.Rule.KeyOrder

/-!
# Tags and their texts

A tag is written as a text, and `Tag.name` gives that text for the node of a tag.  `tagNode` goes the other
way: it builds the node that a text stands for.  A colon divides a namespace from a name, else the last dot
divides an object from its property.

* `beforeFirst`, `afterFirst`: a text on the two sides of the first place of a character; `beforeLast`,
  `afterLast`: on those of the last.
* `name_tagNode`: every text is the name of the tag that is built from it, also if dots or colons stand at
  its ends or in a row.
* `IsTag`: the nodes of tags that a parser writes.  `tagNode_name`: each is built again from its name.
* `tag_text_round_trip`: **both ways, for nodes with their fields in any order.**
-/

namespace AttributeLint.Syntax

/-! ## Texts on the two sides of a character -/

/-- What stands before the first place of a character. -/
def beforeFirst (c : Char) (text : List Char) : List Char :=
  text.takeWhile (· != c)

/-- What stands behind the first place of a character. -/
def afterFirst (c : Char) (text : List Char) : List Char :=
  (text.dropWhile (· != c)).tail

/-- What stands before the last place of a character. -/
def beforeLast (c : Char) (text : List Char) : List Char :=
  (afterFirst c text.reverse).reverse

/-- What stands behind the last place of a character. -/
def afterLast (c : Char) (text : List Char) : List Char :=
  (beforeFirst c text.reverse).reverse

variable {c : Char} {text left right : List Char}

theorem beforeFirst_append_afterFirst (h : c ∈ text) : beforeFirst c text ++ c :: afterFirst c text = text := by
  induction text with
  | nil => cases h
  | cons d text ih =>
    by_cases hd : d = c
    · simp [beforeFirst, afterFirst, hd]
    · have hmem : c ∈ text := (List.mem_cons.mp h).resolve_left (Ne.symm hd)
      have hrest := ih hmem
      simp only [beforeFirst, afterFirst] at hrest ⊢
      rw [List.takeWhile_cons_of_pos (by simpa using hd), List.dropWhile_cons_of_pos (by simpa using hd),
        List.cons_append, hrest]

theorem bne_of_not_mem (h : c ∉ left) : ∀ d ∈ left, (d != c) = true := by
  intro d hd
  rw [bne_iff_ne]
  rintro rfl
  exact h hd

theorem beforeFirst_append_cons (h : c ∉ left) : beforeFirst c (left ++ c :: right) = left := by
  rw [beforeFirst, List.takeWhile_append_of_pos (bne_of_not_mem h)]
  simp

theorem afterFirst_append_cons (h : c ∉ left) : afterFirst c (left ++ c :: right) = right := by
  rw [afterFirst, List.dropWhile_append_of_pos (bne_of_not_mem h)]
  simp

theorem beforeLast_append_afterLast (h : c ∈ text) :
    beforeLast c text ++ c :: afterLast c text = text := by
  have hrev := beforeFirst_append_afterFirst (List.mem_reverse.mpr h)
  have hback := congrArg List.reverse hrev
  simpa [beforeLast, afterLast] using hback

theorem beforeLast_append_cons (h : c ∉ right) : beforeLast c (left ++ c :: right) = left := by
  simp [beforeLast, afterFirst_append_cons (List.mem_reverse.not.mpr h)]

theorem afterLast_append_cons (h : c ∉ right) : afterLast c (left ++ c :: right) = right := by
  simp [afterLast, beforeFirst_append_cons (List.mem_reverse.not.mpr h)]

/-! ## The node of a text -/

/-- The node of an identifier. -/
def identifierNode (name : String) : Data :=
  .object [("type", .str "JSXIdentifier"), ("name", .str name)]

/-- The node of a name in a namespace. -/
def namespacedNode (space name : String) : Data :=
  .object [("type", .str "JSXNamespacedName"), ("namespace", identifierNode space),
    ("name", identifierNode name)]

/-- The node of a property of an object. -/
def memberNode (object : Data) (property : String) : Data :=
  .object [("type", .str "JSXMemberExpression"), ("object", object),
    ("property", identifierNode property)]

theorem length_beforeLast_lt (h : c ∈ text) : (beforeLast c text).length < text.length := by
  have hlength := congrArg List.length (beforeLast_append_afterLast h)
  rw [List.length_append, List.length_cons] at hlength
  omega

/-- The node of the tag that a text stands for. -/
def tagNode (text : List Char) : Data :=
  if ':' ∈ text then
    namespacedNode (.ofList (beforeFirst ':' text)) (.ofList (afterFirst ':' text))
  else if '.' ∈ text then
    memberNode (tagNode (beforeLast '.' text)) (.ofList (afterLast '.' text))
  else identifierNode (.ofList text)
termination_by text.length
decreasing_by exact length_beforeLast_lt ‹_›

theorem ofNode_identifierNode (name : String) :
    Tag.ofNode (identifierNode name) = .identifier name := by
  rfl

theorem ofNode_namespacedNode (space name : String) :
    Tag.ofNode (namespacedNode space name) = .namespaced space name := by
  rfl

theorem ofNode_memberNode (object : Data) (property : String) :
    Tag.ofNode (memberNode object property) = .member (Tag.ofNode object) (.identifier property) := by
  rfl

/-- The name of the tag that is built from a text is the text.  The induction is along the last dots. -/
theorem name_tagNode (text : List Char) : (Tag.ofNode (tagNode text)).name.toList = text := by
  induction text using tagNode.induct with
  | case1 text hcolon =>
    rw [tagNode, if_pos hcolon, ofNode_namespacedNode, Tag.name]
    simpa using beforeFirst_append_afterFirst hcolon
  | case2 text hcolon hdot ih =>
    rw [tagNode, if_neg hcolon, if_pos hdot, ofNode_memberNode, Tag.name, Tag.name,
      String.toList_append, String.toList_append, ih]
    simpa using beforeLast_append_afterLast hdot
  | case3 text hcolon hdot =>
    rw [tagNode, if_neg hcolon, if_neg hdot, ofNode_identifierNode, Tag.name, String.toList_ofList]

/-! ## The nodes that are built -/

/-- A name without the characters that divide names. -/
def Undivided (name : String) : Prop :=
  '.' ∉ name.toList ∧ ':' ∉ name.toList
  deriving Decidable

/-- The node of an identifier, or of a property of such an identifier, of a property of that, and so on. -/
inductive IsPath : Data → Prop
  | identifier {name : String} (h : Undivided name) : IsPath (identifierNode name)
  | member {object : Data} {property : String} (ho : IsPath object) (h : Undivided property) :
      IsPath (memberNode object property)

/-- The node of a tag as a parser writes it. -/
inductive IsTag : Data → Prop
  | path {node : Data} (h : IsPath node) : IsTag node
  | namespaced {space name : String} (hs : Undivided space) (hn : Undivided name) :
      IsTag (namespacedNode space name)

theorem IsPath.colon_not_mem {node : Data} (h : IsPath node) :
    ':' ∉ (Tag.ofNode node).name.toList := by
  induction h with
  | identifier h => exact h.2
  | member _ h ih =>
    rw [ofNode_memberNode, Tag.name, Tag.name, String.toList_append, String.toList_append]
    simpa [ih] using h.2

theorem IsPath.tagNode_name {node : Data} (h : IsPath node) :
    tagNode (Tag.ofNode node).name.toList = node := by
  induction h with
  | @identifier name h =>
    rw [ofNode_identifierNode, Tag.name, tagNode, if_neg h.2, if_neg h.1, String.ofList_toList]
  | @member object property ho h ih =>
    have hname : (Tag.ofNode (memberNode object property)).name.toList =
        (Tag.ofNode object).name.toList ++ '.' :: property.toList := by
      rw [ofNode_memberNode, Tag.name, Tag.name, String.toList_append, String.toList_append,
        List.append_assoc]
      rfl
    have hcolon := (IsPath.member ho h).colon_not_mem
    have hdot : '.' ∈ (Tag.ofNode (memberNode object property)).name.toList := by simp [hname]
    rw [tagNode, if_neg hcolon, if_pos hdot, hname, beforeLast_append_cons h.1,
      afterLast_append_cons h.1, ih, String.ofList_toList]

theorem IsTag.tagNode_name {node : Data} (h : IsTag node) :
    tagNode (Tag.ofNode node).name.toList = node := by
  cases h with
  | path h => exact h.tagNode_name
  | @namespaced space name hs hn =>
    have hname : (Tag.ofNode (namespacedNode space name)).name.toList =
        space.toList ++ ':' :: name.toList := by
      rw [ofNode_namespacedNode, Tag.name, String.toList_append, String.toList_append,
        List.append_assoc]
      rfl
    have hcolon : ':' ∈ (Tag.ofNode (namespacedNode space name)).name.toList := by simp [hname]
    rw [tagNode, if_pos hcolon, hname, beforeFirst_append_cons hs.2, afterFirst_append_cons hs.2,
      String.ofList_toList, String.ofList_toList]

/-- The order of fields does not matter for the name. -/
theorem name_of_reordered {node node' : Data} (h : Reordered node node') :
    (Tag.ofNode node).name = (Tag.ofNode node').name := by
  rw [name_ofNode, name_ofNode, h.akin.componentOf_eq (by simp)]

/-- **Tags and texts stand for each other.**  Every text is the name of the tag that is built from it.  The
node of a tag is built again from its name, whatever the order of its fields is, so tags that are different
have different names. -/
theorem tag_text_round_trip :
    (∀ text : String, (Tag.ofNode (tagNode text.toList)).name = text) ∧
    (∀ node raw, IsTag node → Reordered node raw → tagNode (Tag.ofNode raw).name.toList = node) ∧
    ∀ node raw node' raw', IsTag node → Reordered node raw → IsTag node' → Reordered node' raw' →
      (Tag.ofNode raw).name = (Tag.ofNode raw').name → node = node' := by
  have hback : ∀ node raw, IsTag node → Reordered node raw →
      tagNode (Tag.ofNode raw).name.toList = node := by
    intro node raw hnode hraw
    rw [← name_of_reordered hraw]
    exact hnode.tagNode_name
  refine ⟨fun text => String.toList_inj.mp (name_tagNode text.toList), hback, ?_⟩
  intro node raw node' raw' hnode hraw hnode' hraw' hname
  rw [← hback node raw hnode hraw, hname, hback node' raw' hnode' hraw']

theorem tag_text_round_trip_sample :
    let node := memberNode (memberNode (identifierNode "A") "B") "C"
    let raw : Data := .object [("property", identifierNode "C"), ("type", .str "JSXMemberExpression"),
      ("object", .object [("object", identifierNode "A"), ("type", .str "JSXMemberExpression"),
        ("property", identifierNode "B")])]
    IsTag node ∧ Reordered node raw ∧ (Tag.ofNode raw).name = "A.B.C" ∧
      tagNode (Tag.ofNode raw).name.toList = node ∧
      ((Tag.ofNode raw).name = (Tag.ofNode node).name ∧ node = node) ∧
      (Tag.ofNode (tagNode ".:a..b:".toList)).name = ".:a..b:" := by
  intro node raw
  have hplain : ∀ name ∈ ["A", "B", "C"], Undivided name := by decide
  have hnode : IsTag node :=
    .path (.member (.member (.identifier (hplain "A" (by decide))) (hplain "B" (by decide)))
      (hplain "C" (by decide)))
  have hinner : Reordered (memberNode (identifierNode "A") "B")
      (.object [("object", identifierNode "A"), ("type", .str "JSXMemberExpression"),
        ("property", identifierNode "B")]) :=
    .keys (by decide) (.swap _ _ _)
  have hraw : Reordered node raw :=
    .trans (.inField [_] [_] hinner)
      (.keys (by decide) (List.Perm.trans (.cons _ (.swap _ _ _)) (.swap _ _ _)))
  have hname : (Tag.ofNode raw).name = "A.B.C" := by rfl
  obtain ⟨htext, hback, hdistinct⟩ := tag_text_round_trip
  have hsame : (Tag.ofNode raw).name = (Tag.ofNode node).name := by rfl
  exact ⟨hnode, hraw, hname, hback node raw hnode hraw,
    ⟨hsame, hdistinct node raw node node hnode hraw hnode (.refl _) hsame⟩, htext ".:a..b:"⟩

end AttributeLint.Syntax
