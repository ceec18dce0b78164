import AttributeLint.Number.Binary64
import AttributeLint.Number.Integer
import Mathlib

/-!
# How large numbers are

An integer that is written as text has at most `digitLimit` digits, and a floating-point number that is
read keeps to its format.  So everything that is made of either is below the power of ten with that many
zeros.

* `Integer.natAbs_lt_of_ofText?`: integers in a text.
* `Binary64.inFormat_ofDecimal`: a decimal is read as a number of the format: its mantissa has at most 53
  bits and its exponent is at most 971.
* `Binary64.InFormat.natAbs_truncate_lt`: such a number with its fraction cut off.
-/

namespace AttributeLint

/-! ## Integers -/

namespace Integer

theorem digitValue?_lt {c : Char} {d : Nat} (h : Text.digitValue? c = some d) : d < 10 := by
  rw [Text.digitValue?] at h
  split at h
  · next hc =>
    have hrange : 0x30 ≤ c.toNat ∧ c.toNat ≤ 0x39 := Char.isDigit_iff_toNat.mp hc
    cases h
    omega
  · obtain ⟨z, hz, rfl⟩ := Option.map_eq_some_iff.mp h
    have hrange := List.find?_some hz
    rw [Bool.and_eq_true, decide_eq_true_iff, decide_eq_true_iff] at hrange
    omega

theorem lt_of_mem_separated {text : List Char} {ds : List Nat} (h : separated text = some ds) :
    ∀ d ∈ ds, d < 10 := by
  fun_induction separated text generalizing ds with
  | case1 => cases h
  | case2 => cases h
  | case3 c d hd =>
    cases h
    exact List.forall_mem_singleton.mpr (digitValue?_lt hd)
  | case4 c d hd more ih =>
    obtain ⟨rest, hrest, rfl⟩ := Option.map_eq_some_iff.mp h
    exact List.forall_mem_cons.mpr ⟨digitValue?_lt hd, ih hrest⟩
  | case5 c d hd more _ _ ih =>
    obtain ⟨rest, hrest, rfl⟩ := Option.map_eq_some_iff.mp h
    exact List.forall_mem_cons.mpr ⟨digitValue?_lt hd, ih hrest⟩

/-- Digits write a number below the power of ten with as many zeros. -/
theorem ofDigits_lt {ds : List Nat} (h : ∀ d ∈ ds, d < 10) : ofDigits ds < 10 ^ ds.length := by
  induction ds using List.reverseRecOn with
  | nil => exact Nat.one_pos
  | append_singleton ds d ih =>
    obtain ⟨hds, hd⟩ := List.forall_mem_append.mp h
    have hprev := ih hds
    have hlast := hd d List.mem_cons_self
    have hstep : ofDigits (ds ++ [d]) = 10 * ofDigits ds + d := by
      rw [ofDigits, List.foldl_append]
      rfl
    rw [hstep, List.length_append, List.length_singleton, Nat.pow_succ]
    omega

theorem magnitude?_lt {text : List Char} {n : Nat} (h : magnitude? text = some n) :
    n < 10 ^ digitLimit := by
  rw [magnitude?] at h
  split at h
  · next ds hds =>
    split at h
    · next hlength =>
      cases h
      exact Nat.lt_of_lt_of_le (ofDigits_lt (lt_of_mem_separated hds))
        (Nat.pow_le_pow_right (by decide) hlength)
    · cases h
  · cases h

theorem natAbs_lt_of_ofText? {text : List Char} {n : Int} (h : ofText? text = some n) :
    n.natAbs < 10 ^ digitLimit := by
  rw [ofText?] at h
  split at h
  all_goals
    obtain ⟨m, hm, rfl⟩ := Option.map_eq_some_iff.mp h
    obtain ⟨k, hk, hcast⟩ := Option.bind_eq_some_iff.mp hm
    have hlt := magnitude?_lt hk
    cases hcast
    omega

end Integer

/-! ## Floating-point numbers -/

namespace Binary64

/-- A quotient that is divided by a large enough power of two is below `2 ^ 53`. -/
theorem unscale_div_lt {num den : Nat} {e : Int} (hden : 0 < den)
    (h : (num.log2 : Int) + 1 ≤ 53 + den.log2 + e) :
    (unscale num den e).1 / (unscale num den e).2 < 2 ^ 53 := by
  have hnum : num < 2 ^ (num.log2 + 1) := Nat.lt_log2_self
  have hlog : 2 ^ den.log2 ≤ den := Nat.log2_self_le (by omega)
  rw [unscale]
  split
  · next he =>
    obtain ⟨k, rfl⟩ := Int.eq_ofNat_of_zero_le he
    have hpos : 0 < den * 2 ^ k := Nat.mul_pos hden (Nat.two_pow_pos k)
    have hexp : num.log2 + 1 ≤ 53 + (den.log2 + k) := by omega
    refine (Nat.div_lt_iff_lt_mul hpos).mpr ?_
    calc num < 2 ^ (num.log2 + 1) := hnum
      _ ≤ 2 ^ (53 + (den.log2 + k)) := Nat.pow_le_pow_right (by decide) hexp
      _ = 2 ^ 53 * (2 ^ den.log2 * 2 ^ k) := by rw [Nat.pow_add, Nat.pow_add]
      _ ≤ 2 ^ 53 * (den * 2 ^ k) := Nat.mul_le_mul_left _ (Nat.mul_le_mul_right _ hlog)
  · next he =>
    obtain ⟨k, hk⟩ := Int.eq_ofNat_of_zero_le (show 0 ≤ -e by omega)
    have hexp : num.log2 + 1 + k ≤ 53 + den.log2 := by omega
    rw [hk]
    refine (Nat.div_lt_iff_lt_mul hden).mpr ?_
    calc num * 2 ^ k < 2 ^ (num.log2 + 1) * 2 ^ k :=
          Nat.mul_lt_mul_of_pos_right hnum (Nat.two_pow_pos k)
      _ = 2 ^ (num.log2 + 1 + k) := (Nat.pow_add _ _ _).symm
      _ ≤ 2 ^ (53 + den.log2) := Nat.pow_le_pow_right (by decide) hexp
      _ = 2 ^ 53 * 2 ^ den.log2 := Nat.pow_add _ _ _
      _ ≤ 2 ^ 53 * den := Nat.mul_le_mul_left _ hlog

/-- The exponent for a quotient leaves a whole part of at most 53 bits. -/
theorem exponentFor_spec (num : Nat) {den : Nat} (hden : 0 < den) :
    (unscale num den (exponentFor num den)).1 / (unscale num den (exponentFor num den)).2 < 2 ^ 53 := by
  rw [exponentFor]
  split
  · next hfits => exact hfits
  · exact unscale_div_lt hden (by omega)

/-- A number of the format: it is not finite, or its mantissa and its exponent are not too large. -/
def InFormat : Binary64 → Prop
  | finite _ mantissa exponent => mantissa < 2 ^ 53 ∧ exponent ≤ 971
  | _ => True

theorem roundQuotient_le (num den : Nat) : roundQuotient num den ≤ num / den + 1 := by
  rw [roundQuotient]
  split <;> omega

theorem inFormat_ofQuotient (negative : Bool) (num : Nat) {den : Nat} (hden : 0 < den) :
    (ofQuotient negative num den).InFormat := by
  have hfinite : ∀ {mantissa : Nat} {exponent : Int}, mantissa < 2 ^ 53 →
      (if 971 < exponent then infinite negative else finite negative mantissa exponent).InFormat := by
    intro mantissa exponent hm
    split
    · exact trivial
    · next he => exact ⟨hm, by omega⟩
  have hwhole := exponentFor_spec num hden
  have hround := roundQuotient_le (unscale num den (exponentFor num den)).1
    (unscale num den (exponentFor num den)).2
  rw [ofQuotient]
  split
  · exact hfinite (show 2 ^ 52 < 2 ^ 53 by decide)
  · next hne =>
    have hne : roundQuotient _ _ ≠ 2 ^ 53 := fun h => hne (beq_iff_eq.mpr h)
    exact hfinite (by omega)

/-- **A decimal is read as a number of the format.** -/
theorem inFormat_ofDecimal (negative : Bool) (digits : Nat) (scale : Int) :
    (ofDecimal negative digits scale).InFormat := by
  have hzero : (finite negative 0 (-1074)).InFormat := ⟨by decide, by decide⟩
  rw [ofDecimal]
  split
  · exact hzero
  · split
    · exact trivial
    · split
      · exact hzero
      · split
        · exact inFormat_ofQuotient negative _ Nat.one_pos
        · exact inFormat_ofQuotient negative _ (Nat.pow_pos (by decide))

theorem two_pow_lt {k : Nat} (hk : k < Integer.digitLimit) : 2 ^ k < 10 ^ Integer.digitLimit :=
  calc 2 ^ k ≤ 10 ^ k := Nat.pow_le_pow_left (by decide) k
    _ < 10 ^ Integer.digitLimit := Nat.pow_lt_pow_right (by decide) hk

/-- A number of the format with its fraction cut off has far fewer digits than an integer may have. -/
theorem InFormat.natAbs_truncate_lt {x : Binary64} (h : x.InFormat) :
    x.truncate.natAbs < 10 ^ Integer.digitLimit := by
  cases x with
  | nan => exact Nat.pow_pos (by decide)
  | infinite negative => exact Nat.pow_pos (by decide)
  | finite negative mantissa exponent =>
    obtain ⟨hm, he⟩ := h
    have hwhole : (if 0 ≤ exponent then mantissa * Nat.pow 2 exponent.toNat
        else mantissa / Nat.pow 2 (-exponent).toNat) < 10 ^ Integer.digitLimit := by
      split
      · have hk : 53 + exponent.toNat < Integer.digitLimit := by
          rw [Integer.digitLimit]
          omega
        calc mantissa * 2 ^ exponent.toNat < 2 ^ 53 * 2 ^ exponent.toNat :=
              Nat.mul_lt_mul_of_pos_right hm (Nat.two_pow_pos _)
          _ = 2 ^ (53 + exponent.toNat) := (Nat.pow_add _ _ _).symm
          _ < 10 ^ Integer.digitLimit := two_pow_lt hk
      · calc mantissa / 2 ^ (-exponent).toNat ≤ mantissa := Nat.div_le_self _ _
          _ < 2 ^ 53 := hm
          _ < 10 ^ Integer.digitLimit := two_pow_lt (by decide)
    rw [truncate]
    split
    · rw [Int.natAbs_neg, Int.natAbs_natCast]
      exact hwhole
    · rw [Int.natAbs_natCast]
      exact hwhole

end Binary64

end AttributeLint
