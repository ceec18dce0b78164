import AttributeLint.Syntax.Attribute

/-!
# The type of a node

`typeOf` takes the text of whatever stands in the field `type`.  The text of a value that is no text
starts with a digit, a sign, a bracket, a quote or one of a few letters, and the types that the
readers ask for start with none of them.  So a node has such a type exactly if the field holds that
text itself.

* `hasLead_inspect`: a value with its texts in quotes starts with neither `J` nor `L`.
* `text_eq_iff`: a text that starts with `J` or `L` is the text of no value but itself.
* `typeOf_eq_iff`: `typeOf` gives such a type exactly to the objects of that type (`isNode`).
-/

namespace AttributeLint

open Binary64 (Decimal)

/-! ## First characters -/

/-- Whether a text starts with `J` or `L`, as the types of nodes do that the readers ask for. -/
def hasLead (cs : List Char) : Bool :=
  match cs.head? with
  | some c => c == 'J' || c == 'L'
  | none => false

@[simp] theorem hasLead_cons (c : Char) (cs : List Char) :
    hasLead (c :: cs) = (c == 'J' || c == 'L') := rfl

theorem hasLead_append {ds : List Char} (hne : ds ≠ []) (cs : List Char) :
    hasLead (ds ++ cs) = hasLead ds := by
  cases ds with
  | nil => exact absurd rfl hne
  | cons d ds => rfl

theorem hasLead_of_digits {ds : List Char} (hd : ∀ c ∈ ds, c.isDigit = true) :
    hasLead ds = false := by
  cases ds with
  | nil => rfl
  | cons d ds =>
    have h := hd d List.mem_cons_self
    rw [hasLead_cons, Bool.or_eq_false_iff, beq_eq_false_iff_ne, beq_eq_false_iff_ne]
    constructor
    · rintro rfl; exact absurd h (by decide)
    · rintro rfl; exact absurd h (by decide)

theorem hasLead_toDigits (n : Nat) : hasLead (Nat.toDigits 10 n) = false :=
  hasLead_of_digits fun _ hc => Nat.isDigit_of_mem_toDigits (by decide) (by decide) hc

theorem hasLead_toDigits_append (n : Nat) (cs : List Char) :
    hasLead (Nat.toDigits 10 n ++ cs) = false := by
  rw [hasLead_append Nat.toDigits_ne_nil, hasLead_toDigits]

/-! ## Numbers -/

theorem hasLead_int (n : Int) : hasLead (toString n).toList = false := by
  rw [Int.toString_eq_repr, Int.repr_eq_if]
  split
  · rw [Nat.toList_repr, hasLead_toDigits]
  · rw [String.toList_append]; rfl

theorem hasLead_decimal (d : Decimal) : hasLead d.text.toList = false := by
  have hne : Nat.toDigits 10 d.digits ≠ [] := Nat.toDigits_ne_nil
  unfold Decimal.text
  dsimp only
  split
  · split
    · rw [String.toList_ofList]; rfl
    · split
      · rw [String.toList_ofList, List.append_assoc, hasLead_toDigits_append]
      · rename_i hp _
        rw [String.toList_ofList, hasLead_append]
        · exact hasLead_of_digits fun c hc =>
            Nat.isDigit_of_mem_toDigits (by decide) (by decide) (List.mem_of_mem_take hc)
        · rw [Ne, List.take_eq_nil_iff, not_or]
          exact ⟨by omega, hne⟩
  · rw [String.toList_ofList]
    have hlead := hasLead_toDigits d.digits
    split
    · rename_i one h; rw [h] at hlead; exact hlead
    · rename_i first rest _ h; rw [h] at hlead; exact hlead
    · rename_i h; exact absurd h hne

theorem hasLead_float (x : Binary64) : hasLead x.text.toList = false := by
  cases x with
  | nan => decide
  | infinite negative => cases negative <;> decide
  | finite negative mantissa exponent =>
    unfold Binary64.text
    dsimp only
    cases negative with
    | true => rw [if_pos rfl, String.toList_append]; rfl
    | false =>
      rw [if_neg (by decide)]
      split
      · decide
      · exact hasLead_decimal _

/-! ## Values -/

theorem hasLead_quoted (s : String) : hasLead (Text.quoted s).toList = false := by
  rw [Text.quoted, String.toList_ofList, Text.quote, List.cons_append, hasLead_cons]
  unfold Text.quoteFor
  split <;> decide

/-- A value with its texts in quotes starts with neither `J` nor `L`. -/
theorem hasLead_inspect (d : Data) : hasLead d.inspect.toList = false := by
  cases d with
  | null => rw [Data.inspect]; decide
  | bool b => rw [Data.inspect]; cases b <;> decide
  | int n => rw [Data.inspect]; exact hasLead_int n
  | float x => rw [Data.inspect]; exact hasLead_float x
  | str s => rw [Data.inspect]; exact hasLead_quoted s
  | moment m => cases m <;> (rw [Data.inspect]; decide)
  | list items => rw [Data.inspect, String.append_assoc, String.toList_append]; rfl
  | object fields => rw [Data.inspect, String.append_assoc, String.toList_append]; rfl

theorem text_of_ne_str {d : Data} (h : ∀ s, d ≠ .str s) : d.text = d.inspect := by
  cases d with
  | str s => exact absurd rfl (h s)
  | _ => rfl

/-- A text that starts with `J` or `L` is the text of no value but itself. -/
theorem text_eq_iff {type : String} (h : hasLead type.toList = true) (d : Data) :
    d.text = type ↔ d = .str type := by
  constructor
  · intro he
    by_cases hs : ∃ s, d = .str s
    · obtain ⟨s, rfl⟩ := hs
      rw [← he]; rfl
    · have hn := hasLead_inspect d
      rw [← text_of_ne_str (fun s hd => hs ⟨s, hd⟩), he, h] at hn
      exact absurd hn (by decide)
  · rintro rfl; rfl

/-! ## Nodes -/

namespace Syntax

/-- Whether a value is an object whose type is a given text. -/
def isNode (type : String) (d : Data) : Bool :=
  match d.field "type" with
  | .str t => t == type
  | _ => false

theorem isNode_iff {type : String} {d : Data} : isNode type d = true ↔ d.field "type" = .str type := by
  unfold isNode
  split
  · rename_i t h; rw [h, beq_iff_eq, Data.str.injEq]
  · rename_i hs
    refine ⟨fun h => absurd h (by decide), fun h => absurd h (hs type)⟩

/-- `typeOf` gives a type that starts with `J` or `L` exactly to the objects of that type. -/
theorem typeOf_eq_iff {type : String} (h : hasLead type.toList = true) (d : Data) :
    typeOf d = type ↔ isNode type d = true := by
  have hempty : "" ≠ type := by rintro rfl; exact absurd h (by decide)
  rw [isNode_iff]
  cases d with
  | object fields =>
    rw [typeOf, Data.field]
    cases hget : Fields.get? fields "type" with
    | none => exact ⟨fun he => absurd he hempty, fun he => by cases he⟩
    | some value => exact text_eq_iff h value
  | _ => exact ⟨fun he => absurd he hempty, fun he => by cases he⟩

theorem typeOf_beq {type : String} (h : hasLead type.toList = true) (d : Data) :
    (typeOf d == type) = isNode type d := by
  rw [Bool.eq_iff_iff, beq_iff_eq, typeOf_eq_iff h]

theorem isNode_of_isNode {type other : String} {d : Data} (h : isNode type d = true) :
    isNode other d = (type == other) := by
  rw [isNode, isNode_iff.mp h]

end Syntax

end AttributeLint
