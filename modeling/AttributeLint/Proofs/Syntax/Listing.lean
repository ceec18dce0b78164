import AttributeLint.Syntax.Walk

/-!
# The walk as a recursion

`walk` keeps the values that are still to be visited on a stack.  `listing` lists the opening elements
of a value by recursion: an element first, then what is in its fields in their order, then the next
value.  The two agree for every stack (`walk_eq_flatMap`), because the stack holds the children of a
value above everything else, in their order; values that hold no others are not pushed from a field,
and they list nothing.
-/

namespace AttributeLint.Syntax

mutual

/-- The opening elements in a value, in the order of the text. -/
def listing : Data → List Fields
  | .object fields =>
    if isOpening fields then fields :: listingFields fields else listingFields fields
  | .list items => listingItems items
  | _ => []

/-- The opening elements in a list of values. -/
def listingItems : List Data → List Fields
  | [] => []
  | d :: rest => listing d ++ listingItems rest

/-- The opening elements in the fields that are entered. -/
def listingFields : List (String × Data) → List Fields
  | [] => []
  | (key, d) :: rest =>
    if isSkipped key then listingFields rest else listing d ++ listingFields rest

end

theorem listing_of_not_isBranch {d : Data} (h : isBranch d = false) : listing d = [] := by
  cases d with
  | list items => exact absurd h (by simp [isBranch])
  | object fields => exact absurd h (by simp [isBranch])
  | _ => simp [listing]

theorem flatMap_listing (items : List Data) : items.flatMap listing = listingItems items := by
  induction items with
  | nil => rw [listingItems]; rfl
  | cons d rest ih => rw [List.flatMap_cons, ih, listingItems]

/-- The children that are put on the stack list what the fields list. -/
theorem flatMap_children (fields : Fields) :
    (children fields).flatMap listing = listingFields fields := by
  induction fields with
  | nil => rw [children, listingFields]; rfl
  | cons field rest ih =>
    obtain ⟨key, d⟩ := field
    rw [children, listingFields]
    cases hs : isSkipped key with
    | true => simpa using ih
    | false =>
      cases hb : isBranch d with
      | true => simp [ih]
      | false => simp [ih, listing_of_not_isBranch hb]

/-- **The stack is a recursion.**  What `walk` yields is what the values on the stack list, from its
top on. -/
theorem walk_eq_flatMap (stack : List Data) : walk stack = stack.flatMap listing := by
  induction stack using walk.induct with
  | case1 => rw [walk]; rfl
  | case2 fields rest ho ih =>
    rw [walk, if_pos ho, ih, List.flatMap_append, flatMap_children, List.flatMap_cons, listing,
      if_pos ho, List.cons_append]
  | case3 fields rest ho ih =>
    rw [walk, if_neg ho, ih, List.flatMap_append, flatMap_children, List.flatMap_cons, listing,
      if_neg ho]
  | case4 items rest ih =>
    rw [walk, ih, List.flatMap_append, flatMap_listing, List.flatMap_cons, listing]
  | case5 d rest ho hl ih =>
    have hb : isBranch d = false := by
      cases d with
      | list items => exact absurd rfl (hl items)
      | object fields => exact absurd rfl (ho fields)
      | _ => rfl
    rw [walk, ih, List.flatMap_cons, listing_of_not_isBranch hb, List.nil_append]
    · exact ho
    · exact hl

/-- The opening elements of a tree are those that it lists. -/
theorem openings_eq_listing (tree : Data) : openings tree = listing tree := by
  rw [openings, walk_eq_flatMap, List.flatMap_singleton]

end AttributeLint.Syntax
