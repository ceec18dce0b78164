import AttributeLint.Number.Shortest
import AttributeLint.Proofs.Number.Size
import Mathlib

/-!
# Whole numbers and the numbers nearest to them

A whole number is read as the number of the format that is nearest to it, and several of them may be read
as the same one.  `Rounding` says where these lie.

* `RoundsTo`: the quotients that are rounded to a given natural number (`roundQuotient_eq_iff`).
* `nearest`: the mantissa and the exponent for a positive whole number (`ofDecimal_whole`).  Below `2 ^ 53`
  nothing is rounded, and from there on the exponent is positive (`nearest_cases`).
* `Rounding.Contains`: a whole number lies where it reads back.  `contains_roundingOf_iff`: **those that read
  back as the number nearest to a given one are those with the same number nearest to them.**
* `Rounding.Around`: they stand closely around the number itself.
* `not_contains_of_tie`: the number is never halfway between two decimals on one grid that both read back,
  since it has more factors of two than a decimal on so fine a grid.
-/

namespace AttributeLint.Binary64

/-! ## Rounding a quotient -/

/-- The quotient is at most one half away from `m`, and less than that if `m` is odd. -/
def RoundsTo (num den m : Nat) : Prop :=
  if m % 2 = 0 then 2 * m * den ≤ 2 * num + den ∧ 2 * num ≤ 2 * m * den + den
  else 2 * m * den < 2 * num + den ∧ 2 * num < 2 * m * den + den

theorem roundQuotient_eq_iff {num den m : Nat} (hden : 0 < den) :
    roundQuotient num den = m ↔ RoundsTo num den m := by
  have hdiv : den * (num / den) + num % den = num := Nat.div_add_mod num den
  have hmod : num % den < den := Nat.mod_lt num hden
  have hcomm : 2 * m * den = 2 * (den * m) := by ring
  simp only [roundQuotient, RoundsTo, hcomm, Bool.or_eq_true, Bool.and_eq_true, beq_iff_eq, decide_eq_true_eq]
  generalize num / den = q at *
  generalize num % den = r at *
  rcases Nat.lt_trichotomy m q with h | rfl | h
  · have hle : den * (m + 1) ≤ den * q := Nat.mul_le_mul_left den h
    rw [Nat.mul_succ] at hle
    split <;> split <;> omega
  · split <;> split <;> omega
  · have hle : den * (q + 1) ≤ den * m := Nat.mul_le_mul_left den h
    rw [Nat.mul_succ] at hle
    rcases Nat.eq_or_lt_of_le h with rfl | h
    · have hsucc : den * q.succ = den * q + den := Nat.mul_succ den q
      split <;> split <;> omega
    · have hle : den * (q + 1 + 1) ≤ den * m := Nat.mul_le_mul_left den h
      rw [Nat.mul_succ, Nat.mul_succ] at hle
      split <;> split <;> omega

theorem div_le_roundQuotient (num den : Nat) : num / den ≤ roundQuotient num den := by
  rw [roundQuotient]
  split <;> omega

/-! ## The number nearest to a whole number -/

theorem exponentFor_one {m : Nat} (hm : 0 < m) : exponentFor m 1 = (m.log2 : Int) - 52 := by
  have hlow : 2 ^ m.log2 ≤ m := Nat.log2_self_le hm.ne'
  have hlarge : ¬(unscale m 1 (m.log2 - 53)).1 / (unscale m 1 (m.log2 - 53)).2 < 2 ^ 53 := by
    rw [unscale]
    split
    · next he =>
      obtain ⟨k, hk⟩ := Int.eq_ofNat_of_zero_le he
      have hlog : m.log2 = 53 + k := by omega
      rw [hk, Int.toNat_natCast, one_mul, not_lt]
      refine (Nat.le_div_iff_mul_le (Nat.two_pow_pos k)).mpr ?_
      rwa [Nat.pow_eq, ← Nat.pow_add, ← hlog]
    · next he =>
      obtain ⟨k, hk⟩ := Int.eq_ofNat_of_zero_le (show 0 ≤ -((m.log2 : Int) - 53) by omega)
      rw [hk, Int.toNat_natCast, Nat.div_one, not_lt]
      have hlog : m.log2 + k = 53 := by omega
      calc 2 ^ 53 = 2 ^ m.log2 * 2 ^ k := by rw [← Nat.pow_add, hlog]
        _ ≤ m * 2 ^ k := Nat.mul_le_mul_right _ hlow
  have hguess : max ((m.log2 : Int) - (1 : Nat).log2 - 53) (-1074) = m.log2 - 53 := by
    have : (1 : Nat).log2 = 0 := rfl
    omega
  rw [exponentFor, hguess]
  exact (if_neg hlarge).trans (by omega)

/-- The mantissa and the exponent of the number nearest to a positive whole number. -/
def nearest (m : Nat) : Nat × Int :=
  let exponent := (m.log2 : Int) - 52
  let scaled := unscale m 1 exponent
  let mantissa := roundQuotient scaled.1 scaled.2
  if mantissa = 2 ^ 53 then (2 ^ 52, exponent + 1) else (mantissa, exponent)

theorem ofDecimal_whole (negative : Bool) {m : Nat} (hm : 0 < m) :
    ofDecimal negative m 0 =
      if 971 < (nearest m).2 then infinite negative
      else finite negative (nearest m).1 (nearest m).2 := by
  have hne : (m == 0) = false := beq_eq_false_iff_ne.mpr hm.ne'
  have hq : ofDecimal negative m 0 = ofQuotient negative m 1 := by
    rw [ofDecimal, hne]
    simp
    omega
  rw [hq, ofQuotient, exponentFor_one hm, nearest]
  simp only [beq_iff_eq]
  rfl

/-- From `2 ^ 52` on, a whole number is rounded to a multiple of a power of two. -/
theorem nearest_of_log2 {m k : Nat} (hlog : m.log2 = 52 + k) :
    nearest m = if roundQuotient m (2 ^ k) = 2 ^ 53 then (2 ^ 52, (k : Int) + 1)
      else (roundQuotient m (2 ^ k), (k : Int)) := by
  have he : (m.log2 : Int) - 52 = k := by omega
  have hscaled : unscale m 1 k = (m, 2 ^ k) := by
    rw [unscale, if_pos (by omega), Int.toNat_natCast, one_mul]
    rfl
  rw [nearest, he, hscaled]

/-- A whole number with its first bit moved to the place of a mantissa's. -/
theorem shifted_bounds {m k : Nat} (hm : 0 < m) (hlog : m.log2 + k = 52) :
    2 ^ 52 ≤ m * 2 ^ k ∧ m * 2 ^ k < 2 ^ 53 := by
  constructor
  · rw [← hlog, Nat.pow_add]
    exact Nat.mul_le_mul_right _ (Nat.log2_self_le hm.ne')
  · rw [show 53 = m.log2 + 1 + k by omega, Nat.pow_add]
    exact Nat.mul_lt_mul_of_pos_right Nat.lt_log2_self (Nat.two_pow_pos k)

/-- Below `2 ^ 53`, a whole number is a number of the format. -/
theorem nearest_of_add_eq {m k : Nat} (hm : 0 < m) (hlog : m.log2 + k = 52) :
    nearest m = (m * 2 ^ k, -(k : Int)) := by
  have hround : ∀ n, roundQuotient n 1 = n := by
    intro n
    rw [roundQuotient_eq_iff Nat.one_pos, RoundsTo]
    split <;> omega
  have he : (m.log2 : Int) - 52 = -(k : Int) := by omega
  have hscaled : unscale m 1 (-(k : Int)) = (m * 2 ^ k, 1) := by
    rw [unscale]
    split
    · next h =>
      obtain rfl : k = 0 := by omega
      simp
    · rw [Int.neg_neg, Int.toNat_natCast]
      rfl
  rw [nearest, he, hscaled]
  dsimp only
  rw [hround, if_neg (shifted_bounds hm hlog).2.ne]

theorem exponent_nearest (m : Nat) :
    (nearest m).2 = (m.log2 : Int) - 52 ∨ (nearest m).2 = (m.log2 : Int) - 51 := by
  rw [nearest]
  split
  · right
    show (m.log2 : Int) - 52 + 1 = m.log2 - 51
    omega
  · exact Or.inl rfl

/-- The two kinds of whole numbers: those below `2 ^ 53`, which are numbers of the format, and the others,
which are rounded to an even number. -/
theorem nearest_cases {a : Nat} (ha : 0 < a) :
    (∃ k, a < 2 ^ 53 ∧ a.log2 + k = 52 ∧ nearest a = (a * 2 ^ k, -(k : Int))) ∨
    ∃ mantissa k, 2 ^ 53 ≤ a ∧ 2 ^ 52 ≤ mantissa ∧ mantissa < 2 ^ 53 ∧
      nearest a = (mantissa, ((k + 1 : Nat) : Int)) := by
  have hself : 2 ^ a.log2 ≤ a := Nat.log2_self_le ha.ne'
  have hnext : a < 2 ^ (a.log2 + 1) := Nat.lt_log2_self
  by_cases hlog : a.log2 ≤ 52
  · left
    obtain ⟨k, hk⟩ := Nat.exists_eq_add_of_le hlog
    refine ⟨k, ?_, hk.symm, nearest_of_add_eq ha hk.symm⟩
    exact lt_of_lt_of_le hnext (Nat.pow_le_pow_right (by decide) (by omega))
  · right
    obtain ⟨k, hk⟩ := Nat.exists_eq_add_of_le (show 52 + 1 ≤ a.log2 by omega)
    have hlarge : 2 ^ 53 ≤ a := le_trans (Nat.pow_le_pow_right (by decide) (by omega)) hself
    rw [nearest_of_log2 (show a.log2 = 52 + (k + 1) by omega)]
    split
    · exact ⟨2 ^ 52, k + 1, hlarge, le_rfl, by decide, rfl⟩
    · next hround =>
      have hle := roundQuotient_le a (2 ^ (k + 1))
      have hge := div_le_roundQuotient a (2 ^ (k + 1))
      have hleast : 2 ^ 52 ≤ a / 2 ^ (k + 1) := by
        refine (Nat.le_div_iff_mul_le (Nat.two_pow_pos _)).mpr ?_
        rw [← Nat.pow_add]
        exact le_trans (Nat.pow_le_pow_right (by decide) (by omega)) hself
      have hmost : a / 2 ^ (k + 1) < 2 ^ 53 := by
        refine (Nat.div_lt_iff_lt_mul (Nat.two_pow_pos _)).mpr ?_
        rw [← Nat.pow_add]
        exact lt_of_lt_of_le hnext (Nat.pow_le_pow_right (by decide) (by omega))
      exact ⟨_, k, hlarge, by omega, by omega, rfl⟩

/-- Below `2 ^ 53` no two whole numbers have the same number nearest to them. -/
theorem nearest_eq_of_lt {a m : Nat} (ha : 0 < a) (hm : 0 < m) (hsmall : a < 2 ^ 53)
    (h : nearest m = nearest a) : m = a := by
  obtain ⟨k, _, _, hk⟩ | ⟨_, _, hlarge, _⟩ := nearest_cases ha
  · rw [hk] at h
    obtain ⟨j, _, _, hj⟩ | ⟨mantissa, j, _, _, _, hj⟩ := nearest_cases hm
    · rw [hj, Prod.mk.injEq] at h
      obtain rfl : j = k := by omega
      exact Nat.eq_of_mul_eq_mul_right (Nat.two_pow_pos j) h.1
    · rw [hj, Prod.mk.injEq] at h
      omega
  · omega

/-! ## Where whole numbers read back -/

/-- Whether a whole number lies where it reads back. -/
def Rounding.Contains (r : Rounding) (m : Nat) : Prop :=
  if r.closed then r.below ≤ m * r.den ∧ m * r.den ≤ r.above
  else r.below < m * r.den ∧ m * r.den < r.above

/-- How far below a number the midpoint is, in quarters of a step.  At the least mantissa the numbers below
are twice as dense. -/
def lowerGap (mantissa : Nat) : Nat :=
  if mantissa = 2 ^ 52 then 1 else 2

theorem lowerGap_cases (mantissa : Nat) :
    mantissa = 2 ^ 52 ∧ lowerGap mantissa = 1 ∨ mantissa ≠ 2 ^ 52 ∧ lowerGap mantissa = 2 := by
  by_cases h : mantissa = 2 ^ 52
  · exact Or.inl ⟨h, if_pos h⟩
  · exact Or.inr ⟨h, if_neg h⟩

section Contains

variable {mantissa k m : Nat} (hlow : 2 ^ 52 ≤ mantissa) (hhigh : mantissa < 2 ^ 53)
include hlow

theorem contains_of_natCast : (Rounding.of mantissa k).Contains m ↔
    if mantissa % 2 = 0 then
      4 * (mantissa * 2 ^ k) ≤ 4 * m + lowerGap mantissa * 2 ^ k ∧
        4 * m ≤ 4 * (mantissa * 2 ^ k) + 2 * 2 ^ k
    else
      4 * (mantissa * 2 ^ k) < 4 * m + lowerGap mantissa * 2 ^ k ∧
        4 * m < 4 * (mantissa * 2 ^ k) + 2 * 2 ^ k := by
  have hexp : decide ((-1074 : Int) < k) = true := decide_eq_true (by omega)
  have hgap : lowerGap mantissa * 2 ^ k ≤ 4 * (mantissa * 2 ^ k) := by
    rw [← Nat.mul_assoc]
    refine Nat.mul_le_mul_right _ ?_
    obtain ⟨_, hgap⟩ | ⟨_, hgap⟩ := lowerGap_cases mantissa <;> omega
  have hbelow : (Rounding.of mantissa k).below = 4 * (mantissa * 2 ^ k) - lowerGap mantissa * 2 ^ k := by
    rw [← Nat.mul_assoc, ← Nat.sub_mul]
    simp [Rounding.of, lowerGap, hexp]
  have habove : (Rounding.of mantissa k).above = 4 * (mantissa * 2 ^ k) + 2 * 2 ^ k := by
    rw [← Nat.mul_assoc, ← Nat.add_mul]
    simp [Rounding.of]
  have hden : m * (Rounding.of mantissa k).den = 4 * m := by
    simp [Rounding.of, Nat.mul_comm]
  have hclosed : ((Rounding.of mantissa k).closed = true) = (mantissa % 2 = 0) := by
    simp [Rounding.of]
  rw [Rounding.Contains, hbelow, habove, hden]
  simp only [hclosed]
  split <;> omega

include hhigh

/-- From the least number with an exponent on, a whole number reads back if it is rounded so. -/
theorem contains_iff_roundsTo (hm : 2 ^ 52 * 2 ^ k ≤ m) :
    (Rounding.of mantissa k).Contains m ↔ RoundsTo m (2 ^ k) mantissa := by
  have hcomm : 2 * mantissa * 2 ^ k = 2 * (mantissa * 2 ^ k) := Nat.mul_assoc _ _ _
  rw [contains_of_natCast hlow, RoundsTo, hcomm]
  obtain ⟨rfl, hgap⟩ | ⟨_, hgap⟩ := lowerGap_cases mantissa
  · rw [hgap]
    split <;> omega
  · rw [hgap]
    split <;> omega

/-- Below, it reads back as the least number with an exponent if it is rounded up to the next power of
two. -/
theorem contains_iff_of_lt (hm : m < 2 ^ 52 * 2 ^ (k + 1)) :
    (Rounding.of mantissa (k + 1 : Nat)).Contains m ↔
      mantissa = 2 ^ 52 ∧ RoundsTo m (2 ^ k) (2 ^ 53) := by
  have hstep : 2 ^ (k + 1) = 2 * 2 ^ k := Nat.pow_succ'
  have hpos := Nat.two_pow_pos k
  have hround : RoundsTo m (2 ^ k) (2 ^ 53) ↔
      2 * 2 ^ 53 * 2 ^ k ≤ 2 * m + 2 ^ k ∧ 2 * m ≤ 2 * 2 ^ 53 * 2 ^ k + 2 ^ k := by
    rw [RoundsTo, if_pos (by decide)]
  rw [contains_of_natCast hlow, hround]
  obtain ⟨he, hgap⟩ | ⟨hne, hgap⟩ := lowerGap_cases mantissa
  · have heven : mantissa % 2 = 0 := by omega
    have hvalue : mantissa * 2 ^ (k + 1) = 2 ^ 52 * 2 ^ (k + 1) := by rw [he]
    rw [if_pos heven, hgap, and_iff_right he]
    omega
  · have hmore := Nat.mul_le_mul_right (2 ^ (k + 1)) (show 2 ^ 52 + 1 ≤ mantissa by omega)
    rw [Nat.add_mul, Nat.one_mul] at hmore
    rw [hgap]
    split <;> omega

theorem not_contains_of_le (hm : 2 ^ 53 * 2 ^ k ≤ m) : ¬(Rounding.of mantissa k).Contains m := by
  have hpos := Nat.two_pow_pos k
  have hless : mantissa * 2 ^ k + 2 ^ k ≤ 2 ^ 53 * 2 ^ k := by
    rw [← Nat.succ_mul]
    exact Nat.mul_le_mul_right _ hhigh
  rw [contains_of_natCast hlow]
  split <;> omega

end Contains

/-- The number nearest to a whole number has given parts exactly if the whole number reads back as it. -/
theorem nearest_eq_iff {mantissa k m : Nat} (hm : 0 < m) (hlow : 2 ^ 52 ≤ mantissa)
    (hhigh : mantissa < 2 ^ 53) :
    nearest m = (mantissa, ((k + 1 : Nat) : Int)) ↔
      (Rounding.of mantissa (k + 1 : Nat)).Contains m := by
  have hself : 2 ^ m.log2 ≤ m := Nat.log2_self_le hm.ne'
  have hnext : m < 2 ^ (m.log2 + 1) := Nat.lt_log2_self
  -- The exponent of the number nearest to `m` is one of two.
  have hne : m.log2 < 52 + k ∨ 53 + k < m.log2 → nearest m ≠ (mantissa, ((k + 1 : Nat) : Int)) := by
    intro hlog he
    have hexp := exponent_nearest m
    rw [he] at hexp
    dsimp only at hexp
    omega
  rcases Nat.lt_trichotomy m.log2 (53 + k) with hlog | hlog | hlog
  · have hless : m < 2 ^ 52 * 2 ^ (k + 1) := by
      rw [← Nat.pow_add]
      exact lt_of_lt_of_le hnext (Nat.pow_le_pow_right (by decide) (by omega))
    rw [contains_iff_of_lt hlow hhigh hless, ← roundQuotient_eq_iff (Nat.two_pow_pos k)]
    by_cases hprev : m.log2 = 52 + k
    · rw [nearest_of_log2 hprev]
      split
      · next h =>
        rw [Prod.mk.injEq, h]
        exact ⟨fun he => ⟨he.1.symm, rfl⟩, fun he => ⟨he.1.symm, rfl⟩⟩
      · next h =>
        refine iff_of_false (fun he => ?_) fun hr => h hr.2
        have := (Prod.mk.inj he).2
        omega
    · have hsmall : m < 2 ^ 52 * 2 ^ k := by
        rw [← Nat.pow_add]
        exact lt_of_lt_of_le hnext (Nat.pow_le_pow_right (by decide) (by omega))
      have hround := roundQuotient_le m (2 ^ k)
      have hdiv : m / 2 ^ k < 2 ^ 52 := (Nat.div_lt_iff_lt_mul (Nat.two_pow_pos k)).mpr hsmall
      exact iff_of_false (hne (Or.inl (by omega))) fun hr => by omega
  · have hleast : 2 ^ 52 * 2 ^ (k + 1) ≤ m := by
      rw [← Nat.pow_add]
      exact le_trans (Nat.pow_le_pow_right (by decide) (by omega)) hself
    rw [contains_iff_roundsTo hlow hhigh hleast, ← roundQuotient_eq_iff (Nat.two_pow_pos _),
      nearest_of_log2 (by omega : m.log2 = 52 + (k + 1))]
    split
    · next h =>
      rw [h]
      refine iff_of_false (fun he => ?_) hhigh.ne'
      have := (Prod.mk.inj he).2
      omega
    · rw [Prod.mk.injEq, and_iff_left rfl]
  · have hlarge : 2 ^ 53 * 2 ^ (k + 1) ≤ m := by
      rw [← Nat.pow_add]
      exact le_trans (Nat.pow_le_pow_right (by decide) (by omega)) hself
    exact iff_of_false (hne (Or.inr hlog)) (not_contains_of_le hlow hhigh hlarge)

/-! ## Around the number itself -/

/-- A rounding around a whole number: what reads back is not farther from it than `reach`, over the
denominator, and that is little. -/
structure Rounding.Around (r : Rounding) (x reach : Nat) : Prop where
  den_pos : 0 < r.den
  value_eq : r.value = x * r.den
  below_lt : r.below < x * r.den
  below_le : x * r.den ≤ r.below + reach
  lt_above : x * r.den < r.above
  above_le : r.above ≤ x * r.den + reach
  narrow : 30 * reach < x * r.den

theorem around_of {mantissa unit den x : Nat} {exponent : Int} (hlow : 2 ^ 52 ≤ mantissa)
    (hunit : 0 < unit) (hden : 0 < den)
    (hu : (if 0 ≤ exponent then Nat.pow 2 exponent.toNat else 1) = unit)
    (hd : (if 0 ≤ exponent then 1 else Nat.pow 2 (-exponent).toNat) = den)
    (hx : x * den = mantissa * unit) : (Rounding.of mantissa exponent).Around x (2 * unit) := by
  have hscaled : x * (4 * den) = 4 * (mantissa * unit) := by
    rw [← hx]
    ring
  have hmany : 2 ^ 52 * unit ≤ mantissa * unit := Nat.mul_le_mul_right unit hlow
  have hbelow : ∀ {gap}, gap = 1 ∨ gap = 2 → (4 * mantissa - gap) * unit < 4 * (mantissa * unit) ∧
      4 * (mantissa * unit) ≤ (4 * mantissa - gap) * unit + 2 * unit := by
    intro gap hgap
    rw [Nat.sub_mul, Nat.mul_assoc]
    rcases hgap with rfl | rfl <;> omega
  have habove : (4 * mantissa + 2) * unit = 4 * (mantissa * unit) + 2 * unit := by ring
  have hgap : ∀ narrow : Bool, (if narrow then 1 else 2) = 1 ∨ (if narrow then 1 else 2) = 2 := by
    decide
  unfold Rounding.of
  rw [hu, hd]
  obtain ⟨hless, hclose⟩ := hbelow (hgap (mantissa == Nat.pow 2 52 && decide (-1074 < exponent)))
  rw [← hscaled] at hless hclose habove
  refine ⟨?_, ?_, hless, hclose, ?_, habove.le, ?_⟩
  · show 0 < 4 * den
    omega
  · show 4 * mantissa * unit = x * (4 * den)
    rw [hscaled, Nat.mul_assoc]
  · show x * (4 * den) < (4 * mantissa + 2) * unit
    omega
  · show 30 * (2 * unit) < x * (4 * den)
    omega

theorem around_natCast {mantissa k : Nat} (hlow : 2 ^ 52 ≤ mantissa) :
    (Rounding.of mantissa k).Around (mantissa * 2 ^ k) (2 * 2 ^ k) :=
  around_of hlow (Nat.two_pow_pos k) Nat.one_pos (if_pos (by omega)) (if_pos (by omega))
    (Nat.mul_one _)

theorem around_neg {a k : Nat} (hlow : 2 ^ 52 ≤ a * 2 ^ k) :
    (Rounding.of (a * 2 ^ k) (-(k : Int))).Around a 2 := by
  refine around_of hlow Nat.one_pos (Nat.two_pow_pos k) ?_ ?_ (Nat.mul_one _).symm
  · split
    · next h =>
      obtain rfl : k = 0 := by omega
      rfl
    · rfl
  · split
    · next h =>
      obtain rfl : k = 0 := by omega
      rfl
    · rw [Int.neg_neg, Int.toNat_natCast]
      rfl

namespace Rounding

variable {r : Rounding} {x reach m u v w : Nat}

theorem Around.bounds (h : r.Around x reach) (hm : r.Contains m) :
    x * r.den ≤ m * r.den + reach ∧ m * r.den ≤ x * r.den + reach := by
  have hbelow := h.below_le
  have habove := h.above_le
  rw [Contains] at hm
  split at hm <;> omega

theorem Around.contains_self (h : r.Around x reach) : r.Contains x := by
  rw [Contains]
  split
  · exact ⟨h.below_lt.le, h.lt_above.le⟩
  · exact ⟨h.below_lt, h.lt_above⟩

theorem Around.not_contains_zero (h : r.Around x reach) : ¬r.Contains 0 := by
  intro hzero
  have hbounds := (h.bounds hzero).1
  have hnarrow := h.narrow
  rw [Nat.zero_mul] at hbounds
  omega

/-- What lies between two whole numbers that read back reads back. -/
theorem Contains.between (hu : r.Contains u) (hw : r.Contains w) (huv : u ≤ v) (hvw : v ≤ w) :
    r.Contains v := by
  have huv' := Nat.mul_le_mul_right r.den huv
  have hvw' := Nat.mul_le_mul_right r.den hvw
  rw [Contains] at *
  split at hu <;> simp_all <;> omega

end Rounding

/-! ## The rounding of a whole number -/

/-- The whole number that a positive whole number is rounded to. -/
def rounded (a : Nat) : Nat :=
  (finite false (nearest a).1 (nearest a).2).truncate.toNat

theorem rounded_of_neg {a k : Nat} (h : nearest a = (a * 2 ^ k, -(k : Int))) : rounded a = a := by
  rw [rounded, h, truncate]
  dsimp only
  rw [if_neg Bool.false_ne_true, Int.toNat_natCast]
  split
  · next hk =>
    obtain rfl : k = 0 := by omega
    simp
  · rw [Int.neg_neg, Int.toNat_natCast]
    exact Nat.mul_div_cancel a (Nat.two_pow_pos k)

theorem rounded_of_natCast {a mantissa k : Nat} (h : nearest a = (mantissa, (k : Int))) :
    rounded a = mantissa * 2 ^ k := by
  rw [rounded, h, truncate]
  dsimp only
  rw [if_neg Bool.false_ne_true, if_pos (by omega), Int.toNat_natCast, Int.toNat_natCast]
  rfl

/-- The rounding of the number nearest to a whole number. -/
def roundingOf (a : Nat) : Rounding :=
  .of (nearest a).1 (nearest a).2

theorem around_roundingOf {a : Nat} (ha : 0 < a) : ∃ reach, (roundingOf a).Around (rounded a) reach := by
  obtain ⟨k, _, hlog, hk⟩ | ⟨mantissa, k, _, hlow, _, hk⟩ := nearest_cases ha
  · rw [rounded_of_neg hk, roundingOf, hk]
    exact ⟨2, around_neg (shifted_bounds ha hlog).1⟩
  · rw [rounded_of_natCast hk, roundingOf, hk]
    exact ⟨_, around_natCast hlow⟩

theorem contains_roundingOf_iff_of_lt {a m : Nat} (ha : 0 < a) (hsmall : a < 2 ^ 53) :
    (roundingOf a).Contains m ↔ m = a := by
  obtain ⟨k, _, hlog, hk⟩ | ⟨_, _, hlarge, _⟩ := nearest_cases ha
  · have haround := around_neg (shifted_bounds ha hlog).1
    rw [roundingOf, hk]
    constructor
    · intro hm
      have hden : 4 ≤ (Rounding.of (a * 2 ^ k) (-(k : Int))).den := by
        have hpos := haround.den_pos
        rw [Rounding.of] at hpos ⊢
        dsimp only at hpos ⊢
        omega
      obtain ⟨hleast, hmost⟩ := haround.bounds hm
      generalize (Rounding.of (a * 2 ^ k) (-(k : Int))).den = den at *
      rcases Nat.lt_trichotomy m a with hlt | rfl | hlt
      · have := Nat.mul_le_mul_right den (Nat.succ_le_of_lt hlt)
        rw [Nat.succ_mul] at this
        omega
      · rfl
      · have := Nat.mul_le_mul_right den (Nat.succ_le_of_lt hlt)
        rw [Nat.succ_mul] at this
        omega
    · rintro rfl
      exact haround.contains_self
  · omega

/-- The whole numbers that read back as the number nearest to a given one are those with the same number
nearest to them. -/
theorem contains_roundingOf_iff {a m : Nat} (ha : 0 < a) (hm : 0 < m) :
    (roundingOf a).Contains m ↔ nearest m = nearest a := by
  by_cases hsmall : a < 2 ^ 53
  · rw [contains_roundingOf_iff_of_lt ha hsmall]
    constructor
    · rintro rfl
      rfl
    · exact nearest_eq_of_lt ha hm hsmall
  · obtain ⟨k, hlt, _⟩ | ⟨mantissa, k, _, hlow, hhigh, hk⟩ := nearest_cases ha
    · exact absurd hlt hsmall
    · rw [roundingOf, hk]
      exact (nearest_eq_iff hm hlow hhigh).symm

/-- How large the whole numbers are that read back, by the size of the number. -/
theorem lt_of_contains {a : Nat} (ha : 0 < a) : ∃ bits : Nat,
    ((nearest a).1.log2 : Int) + (nearest a).2 = bits ∧ bits ≤ a.log2 + 1 ∧
      ∀ m, (roundingOf a).Contains m → m < 2 ^ (bits + 1) := by
  have hlog : ∀ {n : Nat}, 2 ^ 52 ≤ n → n < 2 ^ 53 → n.log2 = 52 := by
    intro n hlow hhigh
    exact (Nat.log2_eq_iff (by omega)).mpr ⟨hlow, hhigh⟩
  obtain ⟨k, hsmall, hk, hnearest⟩ | ⟨mantissa, k, _, hlow, hhigh, hnearest⟩ := nearest_cases ha
  · obtain ⟨hlow, hhigh⟩ := shifted_bounds ha hk
    refine ⟨a.log2, ?_, by omega, ?_⟩
    · rw [hnearest, hlog hlow hhigh]
      dsimp only
      omega
    · intro m hm
      rw [(contains_roundingOf_iff_of_lt ha hsmall).mp hm]
      exact Nat.lt_log2_self
  · have hexp := exponent_nearest a
    rw [hnearest] at hexp
    dsimp only at hexp
    refine ⟨52 + (k + 1), ?_, by omega, ?_⟩
    · rw [hnearest, hlog hlow hhigh]
      dsimp only
      omega
    · intro m hm
      rw [roundingOf, hnearest] at hm
      by_contra hlarge
      refine not_contains_of_le hlow hhigh ?_ hm
      rw [← Nat.pow_add]
      exact le_trans (Nat.pow_le_pow_right (by decide) (by omega)) (not_lt.mp hlarge)

/-- The number is not halfway between two neighbours on a grid of a power of ten that both read back. -/
theorem not_contains_of_tie {a s e : Nat} (ha : 0 < a) (htie : 2 * rounded a = (2 * s + 1) * 10 ^ e) :
    ¬(roundingOf a).Contains (s * 10 ^ e) := by
  intro hs
  have hgrid : (2 * s + 1) * 10 ^ e = 2 * (s * 10 ^ e) + 10 ^ e := by ring
  have hpos : 0 < 10 ^ e := Nat.pow_pos (by decide)
  obtain ⟨k, hsmall, _, hk⟩ | ⟨mantissa, k, _, hlow, _, hk⟩ := nearest_cases ha
  · rw [contains_roundingOf_iff_of_lt ha hsmall] at hs
    rw [rounded_of_neg hk] at htie
    omega
  · rw [rounded_of_natCast hk] at htie
    rw [roundingOf, hk, contains_of_natCast hlow] at hs
    have hgap : lowerGap mantissa * 2 ^ (k + 1) ≤ 2 * 2 ^ (k + 1) := by
      refine Nat.mul_le_mul_right _ ?_
      obtain ⟨_, hgap⟩ | ⟨_, hgap⟩ := lowerGap_cases mantissa <;> omega
    have hstep : 10 ^ e ≤ 2 ^ (k + 1) := by
      split at hs <;> omega
    -- A grid that is so fine has fewer factors of two than the number.
    have he : e ≤ k + 1 := (Nat.pow_le_pow_iff_right (by decide : 1 < 2)).mp
      (le_trans (Nat.pow_le_pow_left (by decide) e) hstep)
    obtain ⟨t, ht⟩ := Nat.exists_eq_add_of_le he
    have hodd : 2 * (mantissa * 2 ^ t) = (2 * s + 1) * 5 ^ e := by
      refine Nat.eq_of_mul_eq_mul_right (Nat.two_pow_pos e) ?_
      calc 2 * (mantissa * 2 ^ t) * 2 ^ e = 2 * (mantissa * 2 ^ (k + 1)) := by
            rw [ht, Nat.pow_add]
            ring
        _ = (2 * s + 1) * 10 ^ e := htie
        _ = (2 * s + 1) * 5 ^ e * 2 ^ e := by
            rw [Nat.mul_assoc, ← Nat.mul_pow]
    have hparity : Odd ((2 * s + 1) * 5 ^ e) := (odd_two_mul_add_one s).mul (Odd.pow (by decide))
    rw [← hodd] at hparity
    exact (Nat.not_odd_iff_even.mpr (even_two_mul _)) hparity

end AttributeLint.Binary64
