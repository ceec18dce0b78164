import AttributeLint.Json.Reader
import AttributeLint.Proofs.Number.Size
import AttributeLint.Proofs.Readers
import Mathlib

/-!
# What is read keeps to the limits

The reader refuses integers with more digits than `Integer.digitLimit`, and floating-point numbers keep to
their format.  So all numbers in data that was read do (`limited_of_read`).  The proof goes once through the
reader: one step of reading a value, the items of a list or the fields of an object keeps to the limits if
all later steps do.
-/

namespace AttributeLint.Json

/-- Data whose numbers keep to the limits. -/
inductive Limited : Data → Prop
  | null : Limited .null
  | bool (b : Bool) : Limited (.bool b)
  | int {n : Int} (h : n.natAbs < 10 ^ Integer.digitLimit) : Limited (.int n)
  | float {x : Binary64} (h : x.InFormat) : Limited (.float x)
  | str (s : String) : Limited (.str s)
  | list {items : List Data} (h : ∀ d ∈ items, Limited d) : Limited (.list items)
  | object {fields : Fields} (h : ∀ entry ∈ fields, Limited entry.2) : Limited (.object fields)

/-! ## Numbers -/

theorem ofDecimalDigits_lt {ds : List Char} (h : ∀ c ∈ ds, c.isDigit = true) :
    ofDecimalDigits ds < 10 ^ ds.length := by
  have hmap : ofDecimalDigits ds = Integer.ofDigits (ds.map fun c => c.toNat - 0x30) := by
    rw [ofDecimalDigits, Integer.ofDigits, List.foldl_map]
  rw [hmap, ← List.length_map (fun c : Char => c.toNat - 0x30)]
  refine Integer.ofDigits_lt (List.forall_mem_map.mpr fun c hc => ?_)
  have hrange : 0x30 ≤ c.toNat ∧ c.toNat ≤ 0x39 := Char.isDigit_iff_toNat.mp (h c hc)
  omega

theorem isDigit_of_mem_digits {text : List Char} : ∀ c ∈ (digits text).1, c.isDigit = true := by
  intro c hc
  rw [digits, List.span_eq_takeWhile_dropWhile] at hc
  exact List.mem_takeWhile_imp hc

theorem isDigit_of_wholePart? {text whole rest : List Char}
    (h : wholePart? text = some (whole, rest)) : ∀ c ∈ whole, c.isDigit = true := by
  unfold wholePart? at h
  split at h
  · cases h
    exact List.forall_mem_singleton.mpr rfl
  · split at h
    · cases h
    · have hfst : (digits text).1 = whole := congrArg Prod.fst (Option.some.inj h)
      exact hfst ▸ isDigit_of_mem_digits

theorem limited_number {text : List Char} : Gives (fun r => Limited r.1) (number text) := by
  unfold number
  split
  next negative body _ =>
  split
  · exact gives_error
  · next whole rest hwhole =>
    split
    next behind rest _ =>
    split
    · split
      · next hlength =>
        refine gives_ok.mpr (.int ?_)
        have hlt := ofDecimalDigits_lt (isDigit_of_wholePart? hwhole)
        have hle : 10 ^ whole.length ≤ 10 ^ Integer.digitLimit :=
          Nat.pow_le_pow_right (by decide) hlength
        cases negative <;> simp only [Bool.false_eq_true, if_true, if_false] <;> omega
      · exact gives_error
    · exact gives_ok.mpr (.float (Binary64.inFormat_ofDecimal _ _ _))

/-! ## One step -/

/-- Readers of values, items and fields that keep to the limits with some fuel. -/
structure KeepsLimits (n : Nat) : Prop where
  value : ∀ text, Gives (fun r => Limited r.1) (value n text)
  items : ∀ {done}, (∀ d ∈ done, Limited d) → ∀ text, Gives (fun r => Limited r.1) (items n done text)
  fields : ∀ {done : Fields}, (∀ entry ∈ done, Limited entry.2) → ∀ text,
    Gives (fun r => Limited r.1) (fields n done text)

theorem keepsLimits_zero : KeepsLimits 0 where
  value _ := gives_error
  items _ _ := gives_error
  fields _ _ := gives_error

theorem limited_put {done : Fields} (hdone : ∀ entry ∈ done, Limited entry.2) (key : String)
    {d : Data} (hd : Limited d) : ∀ entry ∈ done.put key d, Limited entry.2 := by
  induction done with
  | nil => exact List.forall_mem_singleton.mpr hd
  | cons entry rest ih =>
    obtain ⟨k, old⟩ := entry
    obtain ⟨hold, hrest⟩ := List.forall_mem_cons.mp hdone
    rw [Fields.put]
    split
    · exact List.forall_mem_cons.mpr ⟨hd, hrest⟩
    · exact List.forall_mem_cons.mpr ⟨hold, ih hrest⟩

section Step

variable {n : Nat} (h : KeepsLimits n)
include h

theorem limited_value_succ (text : List Char) :
    Gives (fun r => Limited r.1) (value (n + 1) text) := by
  unfold value
  split
  · exact gives_bind.mpr fun a _ => gives_ok.mpr (.str a.1)
  · split
    · exact gives_ok.mpr (.list (List.forall_mem_nil _))
    · exact h.items (List.forall_mem_nil _) _
  · split
    · exact gives_ok.mpr (.object (List.forall_mem_nil _))
    · exact h.fields (List.forall_mem_nil _) _
  · exact gives_ok.mpr .null
  · exact gives_ok.mpr (.bool true)
  · exact gives_ok.mpr (.bool false)
  · exact gives_ok.mpr (.float trivial)
  · exact gives_ok.mpr (.float trivial)
  · exact gives_ok.mpr (.float trivial)
  · exact limited_number

theorem limited_items_succ {done : List Data} (hdone : ∀ d ∈ done, Limited d) (text : List Char) :
    Gives (fun r => Limited r.1) (items (n + 1) done text) := by
  unfold items
  refine gives_bind.mpr ?_
  rintro ⟨d, rest⟩ hd
  have hall : ∀ x ∈ d :: done, Limited x :=
    List.forall_mem_cons.mpr ⟨h.value text (d, rest) hd, hdone⟩
  dsimp only
  split
  · exact gives_ok.mpr (.list fun d hd => hall d (List.mem_reverse.mp hd))
  · exact h.items hall _
  · exact gives_error

theorem limited_fields_succ {done : Fields} (hdone : ∀ entry ∈ done, Limited entry.2)
    (text : List Char) : Gives (fun r => Limited r.1) (fields (n + 1) done text) := by
  unfold fields
  split
  · refine gives_bind.mpr ?_
    rintro ⟨key, rest⟩ -
    dsimp only
    split
    · refine gives_bind.mpr ?_
      rintro ⟨d, rest⟩ hd
      have hall := limited_put hdone key (h.value _ (d, rest) hd)
      dsimp only
      split
      · exact gives_ok.mpr (.object hall)
      · exact h.fields hall _
      · exact gives_error
    · exact gives_error
  · exact gives_error

theorem KeepsLimits.succ : KeepsLimits (n + 1) :=
  ⟨limited_value_succ h, limited_items_succ h, limited_fields_succ h⟩

end Step

/-! ## All steps -/

theorem keepsLimits (n : Nat) : KeepsLimits n := by
  induction n with
  | zero => exact keepsLimits_zero
  | succ n ih => exact ih.succ

/-- **What is read keeps to the limits.** -/
theorem limited_of_read {text : List Char} {d : Data} (h : read text = .ok d) : Limited d := by
  have hgives : Gives Limited (read text) := by
    unfold read
    split
    · exact gives_error
    · refine gives_bind.mpr ?_
      rintro ⟨d, rest⟩ hd
      dsimp only
      split
      · exact gives_ok.mpr ((keepsLimits _).value _ (d, rest) hd)
      · exact gives_error
  exact hgives d h

end AttributeLint.Json
