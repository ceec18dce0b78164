import AttributeLint.Proofs.Rule.SameReading

/-!
# Metadata of trees

Parsers write more into a tree than a rule looks at: ranges, ways back to a parent, tokens and comments.
`Data.strip` takes the fields of given names out of all the objects in a value.

* `akin_strip`: a value and what is left of it are akin, with those fields hidden.
* `listing_strip`: if the walk skips those fields, what is left has the same elements in the same order,
  each stripped as well.
* `lint_strip`: **metadata does not change what is reported.**  Without the places of nodes the findings
  are the same but for their lines and columns.
-/

namespace AttributeLint

open Files (Path)
open Syntax

/-! ## Values without some fields -/

namespace Data

mutual

/-- A value without the fields of some names, in all the objects in it. -/
def strip (keys : List String) : Data → Data
  | object fields => object (stripFields keys fields)
  | list items => list (stripItems keys items)
  | d => d

/-- The items of a list, each without the fields of some names. -/
def stripItems (keys : List String) : List Data → List Data
  | [] => []
  | d :: rest => strip keys d :: stripItems keys rest

/-- The fields of an object but those of some names, each without such fields. -/
def stripFields (keys : List String) : List (String × Data) → List (String × Data)
  | [] => []
  | (key, d) :: rest =>
    if keys.contains key then stripFields keys rest
    else (key, strip keys d) :: stripFields keys rest

end

variable (keys : List String)

theorem stripItems_eq (items : List Data) : stripItems keys items = items.map (strip keys) := by
  induction items with
  | nil => rw [stripItems, List.map_nil]
  | cons d rest ih => rw [stripItems, ih, List.map_cons]

theorem strip_of_scalar {d : Data} (h : isBranch d = false) : d.strip keys = d := by
  cases d with
  | list items => cases h
  | object fields => cases h
  | _ => simp [strip]

theorem get?_stripFields (fields : Fields) (key : String) :
    Fields.get? (stripFields keys fields) key =
      if keys.contains key then none else (fields.get? key).map (strip keys) := by
  induction fields with
  | nil =>
    rw [stripFields]
    split <;> rfl
  | cons entry rest ih =>
    obtain ⟨k, d⟩ := entry
    rw [stripFields, Fields.get?_cons]
    by_cases hk : k = key
    · subst hk
      rw [if_pos rfl, Option.map_some]
      split
      · next hc => rw [ih, if_pos hc]
      · rw [Fields.get?_cons, if_pos rfl]
    · rw [if_neg hk, ← ih]
      split
      · rfl
      · rw [Fields.get?_cons, if_neg hk]

end Data

theorem akin_strip (keys : List String) (d : Data) : Akin keys d (d.strip keys) := by
  induction d using Data.ind with
  | scalar d hd =>
    rw [Data.strip_of_scalar keys hd]
    exact .scalar hd
  | list items ih =>
    rw [Data.strip, Data.stripItems_eq]
    exact .of_forall₂ (List.forall₂_map_right_iff.mpr (List.forall₂_same.mpr ih))
  | object fields ih =>
    rw [Data.strip]
    have hget : ∀ key ∉ keys, Fields.get? (Data.stripFields keys fields) key =
        (Fields.get? fields key).map (Data.strip keys) := by
      intro key hk
      rw [Data.get?_stripFields, if_neg (by simpa using hk)]
    refine .object (fun key hk => ?_) fun key hk d d' hd hd' => ?_
    · rw [hget key hk, Option.map_eq_none_iff]
    · rw [hget key hk, hd, Option.map_some, Option.some.injEq] at hd'
      rw [← hd']
      exact ih _ (Fields.mem_of_get? hd)

/-! ## The elements of a tree without some fields -/

section Skipped

variable {keys : List String} (hskip : ∀ key ∈ keys, isSkipped key = true)
include hskip

theorem isOpening_stripFields (fields : Fields) :
    isOpening (Data.stripFields keys fields) = isOpening fields := by
  have htype : "type" ∉ keys := fun h => absurd (hskip "type" h) (by decide)
  have hakin := akin_strip keys (.object fields)
  rw [Data.strip] at hakin
  exact (hakin.isOpening_eq htype).symm

/-- Without fields that are skipped, a value lists the same elements. -/
theorem listing_strip_all :
    (∀ d, listing (d.strip keys) = (listing d).map (Data.stripFields keys)) ∧
    (∀ items, listingItems (Data.stripItems keys items) =
      (listingItems items).map (Data.stripFields keys)) ∧
    (∀ fields, listingFields (Data.stripFields keys fields) =
      (listingFields fields).map (Data.stripFields keys)) := by
  refine listing.mutual_induct
    (fun d => listing (d.strip keys) = (listing d).map (Data.stripFields keys))
    (fun items => listingItems (Data.stripItems keys items) =
      (listingItems items).map (Data.stripFields keys))
    (fun fields => listingFields (Data.stripFields keys fields) =
      (listingFields fields).map (Data.stripFields keys))
    ?element ?object ?list ?scalar ?noItem ?item ?noField ?skipped ?entered
  case element =>
    intro fields ho ih
    have ho' : isOpening (Data.stripFields keys fields) = true := by
      rwa [isOpening_stripFields hskip]
    rw [Data.strip, listing, listing, if_pos ho, if_pos ho', List.map_cons, ih]
  case object =>
    intro fields ho ih
    have ho' : ¬ isOpening (Data.stripFields keys fields) = true := by
      rwa [isOpening_stripFields hskip]
    rw [Data.strip, listing, listing, if_neg ho, if_neg ho', ih]
  case list =>
    intro items ih
    rw [Data.strip, listing, listing, ih]
  case scalar =>
    intro d ho hl
    have hb : isBranch d = false := by
      cases d with
      | list items => exact absurd rfl (hl items)
      | object fields => exact absurd rfl (ho fields)
      | _ => rfl
    rw [Data.strip_of_scalar keys hb, listing_of_not_isBranch hb, List.map_nil]
  case noItem =>
    rw [Data.stripItems, listingItems, List.map_nil]
  case item =>
    intro d rest ihd ihr
    rw [Data.stripItems, listingItems, listingItems, List.map_append, ihd, ihr]
  case noField =>
    rw [Data.stripFields, listingFields, List.map_nil]
  case skipped =>
    intro key d rest hs ih
    rw [Data.stripFields, listingFields, if_pos hs]
    split
    · exact ih
    · rw [listingFields, if_pos hs, ih]
  case entered =>
    intro key d rest hs ihd ihr
    have hk : ¬ keys.contains key = true := by
      rw [List.contains_iff_mem]
      exact fun hk => hs (hskip key hk)
    rw [Data.stripFields, if_neg hk, listingFields, listingFields, if_neg hs, if_neg hs,
      List.map_append, ihd, ihr]

theorem listing_strip (d : Data) :
    listing (d.strip keys) = (listing d).map (Data.stripFields keys) :=
  (listing_strip_all hskip).1 d

end Skipped

/-! ## Metadata -/

/-- The fields with metadata, beside those with the places of nodes. -/
def metadataKeys : List String :=
  ["range", "parent", "tokens", "comments"]

/-- **Metadata does not count**: without it, elements are read the same. -/
theorem sameReading_strip {fields : Fields}
    (hplain : ∀ node ∈ itemsOf (.object fields), isNode "JSXAttribute" node = true →
      PlainLiteral node) : SameReading fields (Data.stripFields metadataKeys fields) := by
  have hakin := akin_strip metadataKeys (.object fields)
  rw [Data.strip] at hakin
  exact sameReading_of_akin (by decide) (by decide) hakin hplain

/-! ## Places -/

/-- A finding without its place. -/
def Finding.unplaced (f : Finding) : Finding :=
  { f with line := none, column := none }

section Places

variable {keys : List String}

theorem field_strip_of_mem {key : String} (hk : key ∈ keys) (d : Data) :
    (d.strip keys).field key = .null := by
  cases d with
  | object fields =>
    rw [Data.strip, Data.field, Data.get?_stripFields, if_pos (List.contains_iff_mem.mpr hk)]
    rfl
  | _ => simp [Data.strip, Data.field]

theorem field_strip {key : String} (hk : key ∉ keys) (d : Data) :
    (d.strip keys).field key = (d.field key).strip keys := by
  cases d with
  | object fields =>
    rw [Data.strip, Data.field, Data.field, Data.get?_stripFields, if_neg (by simpa using hk)]
    cases Fields.get? fields key with
    | none => simp [Data.strip]
    | some d => rfl
  | _ => simp [Data.strip, Data.field]

theorem itemsOf_strip (hk : "attributes" ∉ keys) (element : Data) :
    itemsOf (element.strip keys) = (itemsOf element).map (Data.strip keys) := by
  rw [itemsOf, itemsOf, field_strip hk]
  cases element.field "attributes" with
  | list items => rw [Data.strip, Data.stripItems_eq]
  | _ => simp [Data.strip]

variable (hloc : "loc" ∈ keys)
include hloc

theorem coordinatesOf_strip (d : Data) : coordinatesOf (d.strip keys) = none := by
  rw [coordinatesOf, field_strip_of_mem hloc]
  rfl

theorem not_startsAtInfinity_strip (d : Data) : ¬ StartsAtInfinity (d.strip keys) := by
  rw [startsAtInfinity_iff_coordinates, coordinatesOf_strip hloc]
  rintro ⟨_, _, ⟨⟩, _⟩

theorem findingAt_strip (rule : String) (file : Option Path) (node : Data) (d : Filter.Descriptor) :
    findingAt rule file (node.strip keys) d = (findingAt rule file node d).unplaced := by
  rw [findingAt, startOf_eq_bind, coordinatesOf_strip hloc]
  rfl

variable (hnode : ∀ key ∈ nodeKeys, key ∉ keys)
include hnode

/-- Without places, an element is refused only for what stands in place of its attributes. -/
theorem not_refused_strip {element : Data} (h : ¬ Refused element) :
    ¬ Refused (element.strip keys) := by
  have hattributes := (akin_strip keys element).field (hnode "attributes" (by decide))
  rintro (hs | ⟨node, hn, -, hi⟩ | hi)
  · exact h (Or.inl (hattributes.isScalar_iff.mpr hs))
  · rw [itemsOf_strip (hnode "attributes" (by decide)), List.mem_map] at hn
    obtain ⟨node, -, rfl⟩ := hn
    exact not_startsAtInfinity_strip hloc node hi
  · exact not_startsAtInfinity_strip hloc element hi

/-- Without places, the findings on an element are the same but for their places. -/
theorem findingsOn_strip {element : Data}
    (hplain : ∀ node ∈ itemsOf element, isNode "JSXAttribute" node = true → PlainLiteral node)
    (keep : Filter.Descriptor → Bool) (rule : String) (file : Option Path) :
    findingsOn keep rule file (element.strip keys) =
      (findingsOn keep rule file element).map Finding.unplaced := by
  have hname := ((akin_strip keys element).field (hnode "name" (by decide))).componentOf_eq hnode
  refine findingsOn_of_items (R := fun node node' =>
    (isNode "JSXAttribute" node = true → PlainLiteral node) ∧ node' = node.strip keys)
    keep hname ?_ ?_ ?_
  · rw [itemsOf_strip (hnode "attributes" (by decide)), List.forall₂_map_right_iff,
      List.forall₂_same]
    exact fun node hn => ⟨hplain node hn, rfl⟩
  · rintro node _ ⟨hp, rfl⟩
    exact sameAttribute_of_akin hnode (akin_strip keys node) hp
  · rintro node _ d ⟨-, rfl⟩
    exact findingAt_strip hloc rule file node d

end Places

/-- **Metadata does not change what is reported.**  Where the direct literals of attributes are scalars,
a tree without ranges, ways back to parents, tokens and comments is linted with the same outcome; without
the places as well, the findings are the same, in the same order, but for their lines and columns. -/
theorem lint_strip {tree : Data} (h : PlainLiterals tree) (r : Rule) (file : Option Path) :
    (r.lint file (tree.strip metadataKeys)).outcome = (r.lint file tree).outcome ∧
      ∀ fs, (r.lint file tree).outcome = .ok fs →
        (r.lint file (tree.strip ("loc" :: metadataKeys))).outcome =
          .ok (fs.map Finding.unplaced) := by
  constructor
  · refine (lint_congr_of_sameReading r file ?_).symm
    rw [listing_strip (by decide), List.forall₂_map_right_iff, List.forall₂_same]
    exact fun fields hf => sameReading_strip (h.of_mem hf)
  · intro fs hfs
    have hloc : "loc" ∈ "loc" :: metadataKeys := by decide
    have hnode : ∀ key ∈ nodeKeys, key ∉ "loc" :: metadataKeys := by decide
    obtain ⟨haccepted, rfl⟩ := lint_ok_iff.mp hfs
    rw [lint_ok_iff, listing_strip (by decide), List.forall_mem_map, List.flatMap_map,
      List.map_flatMap]
    constructor
    · intro fields hf
      have hr := not_refused_strip hloc hnode (haccepted fields hf)
      rwa [Data.strip] at hr
    · refine List.flatMap_congr fun fields hf => ?_
      have hfindings := findingsOn_strip hloc hnode (h.of_mem hf)
      rw [← hfindings, Data.strip]

/-- An element with a place, a range and a comment, and with an attribute that has a place and a way back
to its element. -/
def annotatedTree : Data :=
  .object [
    ("comments", .list [elementNode "Note" [attributeNode "b" (literalNode (.str "y"))]]),
    ("type", .str "JSXOpeningElement"),
    ("range", .list [.int 0, .int 9]),
    ("loc", .object [("start", .object [("line", .int 1)])]),
    ("name", .object [("type", .str "JSXIdentifier"), ("name", .str "Box")]),
    ("attributes", .list [.object [
      ("type", .str "JSXAttribute"),
      ("parent", elementNode "Box" []),
      ("loc", .object [("start", .object [("line", .int 1), ("range", .null), ("column", .int 5)])]),
      ("name", .object [("type", .str "JSXIdentifier"), ("name", .str "a")]),
      ("value", literalNode (.str "x"))]])]

theorem lint_strip_sample :
    let r : Rule := {}
    let f : Finding :=
      { rule := Rule.id, message := Rule.message ⟨"Box", "a", "x"⟩, line := some 1, column := some 5 }
    PlainLiterals annotatedTree ∧ (r.lint none annotatedTree).outcome = .ok [f] ∧
      (r.lint none (annotatedTree.strip metadataKeys)).outcome = .ok [f] ∧
      (r.lint none (annotatedTree.strip ("loc" :: metadataKeys))).outcome =
        .ok [{ f with line := none, column := none }] := by
  intro r f
  have h : PlainLiterals annotatedTree := by decide +kernel
  have hf : (r.lint none annotatedTree).outcome = .ok [f] := by decide +kernel
  obtain ⟨hmetadata, hplaces⟩ := lint_strip h r none
  exact ⟨h, hf, hmetadata.trans hf, hplaces _ hf⟩

end AttributeLint
