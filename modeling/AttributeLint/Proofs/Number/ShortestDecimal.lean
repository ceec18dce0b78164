import AttributeLint.Proofs.Number.Nearest
import Mathlib

/-!
# The shortest decimal of a whole number

`shortest` looks for a decimal on ever finer grids, and on each of them only at the two neighbours of the
number.  For a number that a whole number is read as, this gives the best decimal there is:

* `Rounding.Around.search_eq`: the search stops at the first grid on which some decimal reads back, with one
  that no other on this grid is nearer than.
* `IsShortest.better`: **the decimal found has fewer digits than any other that reads back, or as many and is
  nearer.**  On a finer grid there are more digits; on the same grid there are as many, since otherwise a
  power of ten would lie between, on a coarser grid.
* `shortest_whole`: so the decimal found for a whole number is this number itself exactly if it is better than
  all the others that are read as the same number (`OwnShortest`).
-/

namespace AttributeLint.Binary64

/-! ## The search on one grid -/

namespace Rounding

variable {r : Rounding} {x reach : Nat}

theorem holds_iff {digits e : Nat} : r.holds digits (e : Int) = true ↔ r.Contains (digits * 10 ^ e) := by
  have he : (0 : Int) ≤ e := by omega
  rw [holds, Contains]
  simp only [if_pos he, Int.toNat_natCast, Nat.mul_one]
  split <;> simp

theorem Around.onGrid_eq (h : r.Around x reach) (e : Nat) :
    r.onGrid (e : Int) = (x / 10 ^ e, 2 * (x % 10 ^ e * r.den), 10 ^ e * r.den) := by
  have he : (0 : Int) ≤ e := by omega
  have hden : r.den * Nat.pow 10 e = 10 ^ e * r.den := Nat.mul_comm _ _
  rw [onGrid]
  simp only [if_pos he, Int.toNat_natCast]
  rw [h.value_eq, hden, Nat.mul_div_mul_right _ _ h.den_pos, Nat.mul_mod_mul_right]

/-- Whole numbers that read back are less than a tenth apart. -/
theorem Around.ten_mul_lt (h : r.Around x reach) {u w : Nat} (hu : r.Contains u) (hw : r.Contains w) :
    10 * w < 11 * u := by
  have hbelow := (h.bounds hu).1
  have habove := (h.bounds hw).2
  have hnarrow := h.narrow
  refine Nat.lt_of_mul_lt_mul_right (a := r.den) ?_
  rw [Nat.mul_assoc, Nat.mul_assoc]
  omega

theorem Around.digits_ne_zero (h : r.Around x reach) {t e : Nat} (ht : r.Contains (t * 10 ^ e)) : t ≠ 0 := by
  intro h0
  rw [h0, Nat.zero_mul] at ht
  exact h.not_contains_zero ht

/-- If a decimal on a grid reads back, so does the one next to the number on its side. -/
theorem Around.neighbour_contains (h : r.Around x reach) {t e : Nat} (ht : r.Contains (t * 10 ^ e)) :
    (t ≤ x / 10 ^ e ∧ x / 10 ^ e ≠ 0 ∧ r.Contains (x / 10 ^ e * 10 ^ e)) ∨
      (x / 10 ^ e + 1 ≤ t ∧ r.Contains ((x / 10 ^ e + 1) * 10 ^ e)) := by
  have hpos : 0 < 10 ^ e := Nat.pow_pos (by decide)
  have hfloor : x / 10 ^ e * 10 ^ e ≤ x := Nat.div_mul_le_self x _
  have hceil : x < (x / 10 ^ e + 1) * 10 ^ e := (Nat.div_lt_iff_lt_mul hpos).mp (Nat.lt_succ_self _)
  by_cases hle : t ≤ x / 10 ^ e
  · have hne := h.digits_ne_zero ht
    exact Or.inl ⟨hle, by omega, ht.between h.contains_self (Nat.mul_le_mul_right _ hle) hfloor⟩
  · have hlt : x / 10 ^ e + 1 ≤ t := by omega
    exact Or.inr ⟨hlt, h.contains_self.between ht hceil.le (Nat.mul_le_mul_right _ hlt)⟩

/-- A decimal on a grid reads back, and none on that grid that reads back is nearer to `x`. -/
structure Hit (r : Rounding) (x digits e : Nat) : Prop where
  contains : r.Contains (digits * 10 ^ e)
  dist_le : ∀ t, r.Contains (t * 10 ^ e) → Nat.dist (digits * 10 ^ e) x ≤ Nat.dist (t * 10 ^ e) x

/-- The neighbour below is a hit if the other one does not read back or is not nearer. -/
theorem Around.hit_down (h : r.Around x reach) {e : Nat} (hdown : r.Contains (x / 10 ^ e * 10 ^ e))
    (hup : r.Contains ((x / 10 ^ e + 1) * 10 ^ e) → 2 * (x % 10 ^ e) ≤ 10 ^ e) :
    r.Hit x (x / 10 ^ e) e := by
  refine ⟨hdown, fun t ht => ?_⟩
  have hmod : x / 10 ^ e * 10 ^ e + x % 10 ^ e = x := Nat.div_add_mod' x _
  obtain ⟨hle, _⟩ | ⟨hlt, hnext⟩ := h.neighbour_contains ht
  · have hgrid := Nat.mul_le_mul_right (10 ^ e) hle
    simp only [Nat.dist]
    omega
  · have hgrid := Nat.mul_le_mul_right (10 ^ e) hlt
    have hclose := hup hnext
    rw [Nat.succ_mul] at hgrid
    simp only [Nat.dist]
    omega

/-- The neighbour above is a hit if the other one does not read back or is not nearer. -/
theorem Around.hit_up (h : r.Around x reach) {e : Nat} (hup : r.Contains ((x / 10 ^ e + 1) * 10 ^ e))
    (hdown : x / 10 ^ e ≠ 0 → r.Contains (x / 10 ^ e * 10 ^ e) → 10 ^ e ≤ 2 * (x % 10 ^ e)) :
    r.Hit x (x / 10 ^ e + 1) e := by
  refine ⟨hup, fun t ht => ?_⟩
  have hmod : x / 10 ^ e * 10 ^ e + x % 10 ^ e = x := Nat.div_add_mod' x _
  have hstep : (x / 10 ^ e + 1) * 10 ^ e = x / 10 ^ e * 10 ^ e + 10 ^ e := Nat.succ_mul _ _
  have hless : x % 10 ^ e < 10 ^ e := Nat.mod_lt x (Nat.pow_pos (by decide))
  obtain ⟨hle, hne, hprev⟩ | ⟨hlt, _⟩ := h.neighbour_contains ht
  · have hgrid := Nat.mul_le_mul_right (10 ^ e) hle
    have hclose := hdown hne hprev
    simp only [Nat.dist]
    omega
  · have hgrid := Nat.mul_le_mul_right (10 ^ e) hlt
    simp only [Nat.dist]
    omega

theorem Around.pick?_eq_none (h : r.Around x reach) {e : Nat} (hpick : r.pick? (e : Int) = none) (t : Nat) :
    ¬r.Contains (t * 10 ^ e) := by
  intro ht
  rw [pick?, h.onGrid_eq] at hpick
  obtain ⟨_, hne, hdown⟩ | ⟨_, hup⟩ := h.neighbour_contains ht
  · simp [holds_iff.mpr hdown, hne] at hpick
    split at hpick <;> cases hpick
  · simp [holds_iff.mpr hup] at hpick
    split at hpick <;> cases hpick

theorem Around.pick?_eq_some (h : r.Around x reach) {e s : Nat} (hpick : r.pick? (e : Int) = some s) :
    r.Hit x s e := by
  have htwice : 2 * (x % 10 ^ e * r.den) = 2 * (x % 10 ^ e) * r.den := (Nat.mul_assoc _ _ _).symm
  rw [pick?, h.onGrid_eq] at hpick
  dsimp only at hpick
  rw [htwice] at hpick
  split at hpick
  · next hboth =>
    simp only [Bool.and_eq_true, holds_iff] at hboth
    obtain rfl := Option.some.inj hpick
    simp only [Nat.mul_lt_mul_right h.den_pos, Nat.mul_left_inj h.den_pos.ne', Bool.or_eq_true,
      Bool.and_eq_true, decide_eq_true_eq, beq_iff_eq]
    split
    · exact h.hit_down hboth.1.2 fun _ => by omega
    · exact h.hit_up hboth.2 fun _ _ => by omega
  · next hnot =>
    simp only [Bool.and_eq_true, holds_iff, bne_iff_ne] at hnot
    split at hpick
    · next hdown =>
      simp only [Bool.and_eq_true, holds_iff, bne_iff_ne] at hdown
      obtain rfl := Option.some.inj hpick
      exact h.hit_down hdown.2 fun hup => absurd ⟨hdown, hup⟩ hnot
    · next hdown =>
      simp only [Bool.and_eq_true, holds_iff, bne_iff_ne] at hdown
      split at hpick
      · next hup =>
        obtain rfl := Option.some.inj hpick
        exact h.hit_up (holds_iff.mp hup) fun hne hprev => absurd ⟨hne, hprev⟩ hdown
      · cases hpick

/-- The search stops at the first grid with a decimal that reads back. -/
theorem Around.search_eq (h : r.Around x reach) {n e : Nat} (he : e < n) :
    ∃ s j : Nat, r.search n (e : Int) = ⟨s, (j : Int)⟩ ∧ r.Hit x s j ∧
      ∀ i t : Nat, j < i → i ≤ e → ¬r.Contains (t * 10 ^ i) := by
  induction n generalizing e with
  | zero => omega
  | succ n ih =>
    rw [search]
    cases hpick : r.pick? (e : Int) with
    | some s => exact ⟨s, e, rfl, h.pick?_eq_some hpick, fun i t _ _ => by omega⟩
    | none =>
      have hnone := h.pick?_eq_none hpick
      cases e with
      | zero => exact absurd (by simpa using h.contains_self) (hnone x)
      | succ e =>
        obtain ⟨s, j, hsearch, hhit, hcoarse⟩ := ih (show e < n by omega)
        refine ⟨s, j, ?_, hhit, fun i t hj hi => ?_⟩
        · rw [← hsearch]
          exact congrArg (r.search n) (by omega)
        · rcases Nat.eq_or_lt_of_le hi with rfl | hi
          · exact hnone t
          · exact hcoarse i t hj (by omega)

end Rounding

/-! ## The fewest digits -/

/-- How many digits a whole number has, the zeros at its end not counted. -/
def significant (n : Nat) : Nat :=
  ((Nat.digits 10 n).dropWhile (· == 0)).length

/-- A whole number has fewer digits than another, or as many and is nearer to `x`. -/
def Better (x m n : Nat) : Prop :=
  significant m < significant n ∨
    significant m = significant n ∧ Nat.dist m x < Nat.dist n x

theorem Better.asymm {x m n : Nat} (h : Better x m n) : ¬Better x n m := by
  rw [Better] at *
  omega

theorem significant_mul_pow {t : Nat} (ht : t % 10 ≠ 0) (i : Nat) :
    significant (t * 10 ^ i) = (Nat.digits 10 t).length := by
  have hpos : 0 < t := Nat.pos_of_ne_zero fun h => ht (by rw [h])
  have hdigits : Nat.digits 10 (t * 10 ^ i) = List.replicate i 0 ++ Nat.digits 10 t := by
    rw [Nat.mul_comm, Nat.digits_base_pow_mul (by decide) hpos]
  have hfirst : (Nat.digits 10 t).dropWhile (· == 0) = Nat.digits 10 t := by
    rw [Nat.digits_def' (by decide) hpos, List.dropWhile_cons_of_neg (by simpa using ht)]
  rw [significant, hdigits, List.dropWhile_append_of_pos (by simp), hfirst]

/-- Every positive whole number is one that does not end in zero, times a power of ten. -/
theorem exists_eq_mul_pow {m : Nat} (hm : 0 < m) : ∃ t i, m = t * 10 ^ i ∧ t % 10 ≠ 0 := by
  obtain ⟨i, t, ht, rfl⟩ := Nat.exists_eq_pow_mul_and_not_dvd hm.ne' 10 (by decide)
  exact ⟨t, i, Nat.mul_comm _ _, fun h => ht (Nat.dvd_of_mod_eq_zero h)⟩

theorem length_digits_lt_of_mul_le {d t : Nat} (hd : 0 < d) (ht : d * 10 ≤ t) :
    (Nat.digits 10 d).length < (Nat.digits 10 t).length := by
  rw [Nat.lt_digits_length_iff (by decide)]
  have := Nat.base_pow_length_digits_le 10 d (by decide) hd.ne'
  omega

theorem length_digits_succ_le {d : Nat} (hd : 0 < d) (hmod : (d + 1) % 10 ≠ 0) :
    (Nat.digits 10 (d + 1)).length ≤ (Nat.digits 10 d).length := by
  have hlt : d < 10 ^ (Nat.digits 10 d).length := (Nat.digits_length_le_iff (by decide) d).mp le_rfl
  have hlen : 0 < (Nat.digits 10 d).length := (Nat.lt_digits_length_iff (by decide) d).mpr hd
  rw [Nat.digits_length_le_iff (by decide)]
  obtain ⟨l, hl⟩ := Nat.exists_eq_succ_of_ne_zero hlen.ne'
  rw [hl, Nat.pow_succ] at hlt ⊢
  omega

/-- What the shortest decimal of a number is: nothing reads back on a coarser grid, and on its own grid
nothing that reads back is nearer. -/
structure IsShortest (r : Rounding) (x digits e : Nat) : Prop extends r.Hit x digits e where
  coarser : ∀ i t, e < i → ¬r.Contains (t * 10 ^ i)

namespace IsShortest

variable {r : Rounding} {x reach s t u j i : Nat}

theorem mod_ne_zero (h : IsShortest r x s j) (hu : r.Contains (u * 10 ^ j)) : u % 10 ≠ 0 := by
  intro hmod
  refine h.coarser (j + 1) (u / 10) (by omega) ?_
  have hgrid : u / 10 * 10 ^ (j + 1) = u * 10 ^ j := by
    rw [Nat.pow_succ', ← Nat.mul_assoc, Nat.div_mul_cancel (Nat.dvd_of_mod_eq_zero hmod)]
  rwa [hgrid]

theorem pos (h : IsShortest r x s j) (hu : r.Contains (u * 10 ^ j)) : 0 < u :=
  Nat.pos_of_ne_zero fun h0 => h.mod_ne_zero hu (by rw [h0])

/-- Of two decimals on the grid of the shortest one that read back, none has more digits: otherwise a power of
ten would lie between them, and that is on a coarser grid. -/
theorem length_digits_le (h : IsShortest r x s j) (hu : r.Contains (u * 10 ^ j))
    (ht : r.Contains (t * 10 ^ j)) : (Nat.digits 10 t).length ≤ (Nat.digits 10 u).length := by
  by_contra hlong
  have hpos : 0 < u := h.pos hu
  have hlow : u < 10 ^ (Nat.digits 10 u).length := (Nat.digits_length_le_iff (by decide) u).mp le_rfl
  have hhigh : 10 ^ (Nat.digits 10 u).length ≤ t :=
    (Nat.lt_digits_length_iff (by decide) t).mp (not_le.mp hlong)
  have hlen : 0 < (Nat.digits 10 u).length := (Nat.lt_digits_length_iff (by decide) u).mpr hpos
  obtain ⟨l, hl⟩ := Nat.exists_eq_succ_of_ne_zero hlen.ne'
  rw [hl] at hlow hhigh
  refine h.mod_ne_zero (hu.between ht (Nat.mul_le_mul_right _ hlow.le) (Nat.mul_le_mul_right _ hhigh)) ?_
  rw [Nat.pow_succ, Nat.mul_mod_left]

theorem length_digits_eq (h : IsShortest r x s j) (ht : r.Contains (t * 10 ^ j)) :
    (Nat.digits 10 t).length = (Nat.digits 10 s).length :=
  le_antisymm (h.length_digits_le h.contains ht) (h.length_digits_le ht h.contains)

/-- What reads back on a finer grid only has more digits. -/
theorem length_digits_lt (h : IsShortest r x s j) (haround : r.Around x reach) (hi : i < j)
    (hm : r.Contains (t * 10 ^ i)) :
    (Nat.digits 10 s).length < (Nat.digits 10 t).length := by
  obtain ⟨k, rfl⟩ := Nat.exists_eq_add_of_lt hi
  have hgrid : ∀ u, u * 10 ^ (i + k + 1) = u * (10 ^ k * 10) * 10 ^ i := fun u => by ring
  have hpow : 0 < 10 ^ k := Nat.pow_pos (by decide)
  have hdown : t / (10 ^ k * 10) * (10 ^ k * 10) ≤ t := Nat.div_mul_le_self t _
  have hup : t < (t / (10 ^ k * 10) + 1) * (10 ^ k * 10) :=
    (Nat.div_lt_iff_lt_mul (by omega)).mp (Nat.lt_succ_self _)
  generalize t / (10 ^ k * 10) = d at *
  have hmore : 0 < d → (Nat.digits 10 d).length < (Nat.digits 10 t).length := fun hd =>
    length_digits_lt_of_mul_le hd
      (le_trans (Nat.mul_le_mul_left d (Nat.le_mul_of_pos_left 10 hpow)) hdown)
  by_cases hs : s ≤ d
  -- The neighbour below on the grid reads back.
  · have hd : r.Contains (d * 10 ^ (i + k + 1)) := by
      refine h.contains.between hm (Nat.mul_le_mul_right _ hs) ?_
      rw [hgrid]
      exact Nat.mul_le_mul_right _ hdown
    rw [← h.length_digits_eq hd]
    exact hmore (h.pos hd)
  -- The neighbour above does.
  · have hd : r.Contains ((d + 1) * 10 ^ (i + k + 1)) := by
      refine hm.between h.contains ?_ (Nat.mul_le_mul_right _ (by omega))
      rw [hgrid]
      exact Nat.mul_le_mul_right _ hup.le
    rw [← h.length_digits_eq hd]
    rcases Nat.eq_zero_or_pos d with rfl | hpos
    -- A single digit would be too far below the power of ten.
    · have hclose := haround.ten_mul_lt hm hd
      rw [hgrid, ← Nat.mul_assoc, ← Nat.mul_assoc 11] at hclose
      have hdigit := Nat.lt_of_mul_lt_mul_right hclose
      rw [Nat.lt_digits_length_iff (by decide)]
      show 10 ≤ t
      omega
    · exact lt_of_le_of_lt (length_digits_succ_le hpos (h.mod_ne_zero hd)) (hmore hpos)

/-- The shortest decimal and another one on its grid are not equally near, unless the number is halfway
between two neighbours there. -/
theorem dist_lt (h : IsShortest r x s j) (ht : r.Contains (t * 10 ^ j)) (hne : t ≠ s)
    (htie : ∀ u, 2 * x = (2 * u + 1) * 10 ^ j → ¬r.Contains (u * 10 ^ j)) :
    Nat.dist (s * 10 ^ j) x < Nat.dist (t * 10 ^ j) x := by
  refine lt_of_le_of_ne (h.dist_le t ht) fun hdist => ?_
  have hpos : 0 < 10 ^ j := Nat.pow_pos (by decide)
  have hneq : t * 10 ^ j ≠ s * 10 ^ j := fun he => hne (Nat.eq_of_mul_eq_mul_right hpos he)
  have hmiddle : 2 * x = (s + t) * 10 ^ j := by
    rw [Nat.add_mul]
    simp only [Nat.dist] at hdist
    omega
  have hbetween : r.Contains ((s + t) / 2 * 10 ^ j) := by
    rcases Nat.lt_or_gt_of_ne hne with hlt | hlt
    · exact ht.between h.contains (Nat.mul_le_mul_right _ (by omega)) (Nat.mul_le_mul_right _ (by omega))
    · exact h.contains.between ht (Nat.mul_le_mul_right _ (by omega)) (Nat.mul_le_mul_right _ (by omega))
  rcases Nat.mod_two_eq_zero_or_one (s + t) with heven | hodd
  · have hx : (s + t) / 2 * 10 ^ j = x := by
      refine Nat.eq_of_mul_eq_mul_left (by decide : 0 < 2) ?_
      rw [hmiddle, ← Nat.mul_assoc, Nat.mul_div_cancel' (Nat.dvd_of_mod_eq_zero heven)]
    have hle := h.dist_le _ hbetween
    rw [hx, Nat.dist_self, Nat.le_zero] at hle
    have hsx := Nat.eq_of_dist_eq_zero hle
    rw [← hx] at hsx
    have := Nat.eq_of_mul_eq_mul_right hpos hsx
    omega
  · exact htie _ (by rw [hmiddle]; congr 1; omega) hbetween

/-- The shortest decimal is better than any other that reads back. -/
theorem better (h : IsShortest r x s j) (haround : r.Around x reach)
    (htie : ∀ u, 2 * x = (2 * u + 1) * 10 ^ j → ¬r.Contains (u * 10 ^ j)) {m : Nat}
    (hm : r.Contains m) (hne : m ≠ s * 10 ^ j) : Better x (s * 10 ^ j) m := by
  have hpos : 0 < m := Nat.pos_of_ne_zero fun h0 => haround.not_contains_zero (h0 ▸ hm)
  obtain ⟨t, i, rfl, ht⟩ := exists_eq_mul_pow hpos
  rw [Better, significant_mul_pow (h.mod_ne_zero h.contains), significant_mul_pow ht]
  rcases Nat.lt_trichotomy i j with hi | rfl | hi
  · exact Or.inl (h.length_digits_lt haround hi hm)
  · exact Or.inr ⟨(h.length_digits_eq hm).symm, h.dist_lt hm (fun he => hne (by rw [he])) htie⟩
  · exact absurd hm (h.coarser i t hi)

end IsShortest

/-! ## The search for a whole number -/

theorem two_pow_le_ten_pow : ∀ bits < 71, 2 ^ (bits + 1) ≤ 10 ^ (bits * 30103 / 100000 + 2) := by
  decide +kernel

theorem Decimal.trim_of_mod_ne {d : Decimal} (h : d.digits % 10 ≠ 0) (n : Nat) : d.trim n = d := by
  cases n with
  | zero => rfl
  | succ n => rw [Decimal.trim, beq_eq_false_iff_ne.mpr h, Bool.and_false, if_neg Bool.false_ne_true]

theorem log2_lt_of_lt {a : Nat} (ha : 0 < a) (hsmall : a < 10 ^ 21) : a.log2 < 70 :=
  (Nat.log2_lt ha.ne').mpr (lt_trans hsmall (by decide))

/-- The search finds the shortest decimal of each number that a whole number below `10 ^ 21` is read as. -/
theorem shortest_nearest {a : Nat} (ha : 0 < a) (hsmall : a < 10 ^ 21) :
    ∃ s j : Nat, shortest (nearest a).1 (nearest a).2 = ⟨s, (j : Int)⟩ ∧
      IsShortest (roundingOf a) (rounded a) s j := by
  obtain ⟨reach, haround⟩ := around_roundingOf ha
  obtain ⟨bits, hbits, hle, hless⟩ := lt_of_contains ha
  have hlog := log2_lt_of_lt ha hsmall
  have htop : (bits : Int) * 30103 / 100000 + 2 = (bits * 30103 / 100000 + 2 : Nat) := by omega
  obtain ⟨s, j, hsearch, hhit, hcoarse⟩ :=
    haround.search_eq (show bits * 30103 / 100000 + 2 < 25 by omega)
  have hshortest : IsShortest (roundingOf a) (rounded a) s j := by
    refine ⟨hhit, fun i t hi ht => ?_⟩
    by_cases htop : i ≤ bits * 30103 / 100000 + 2
    · exact hcoarse i t hi htop ht
    · have hne := haround.digits_ne_zero ht
      -- The start of the search is beyond all that reads back.
      have hlarge : 2 ^ (bits + 1) ≤ t * 10 ^ i := calc
        2 ^ (bits + 1) ≤ 10 ^ (bits * 30103 / 100000 + 2) := two_pow_le_ten_pow bits (by omega)
        _ ≤ 10 ^ i := Nat.pow_le_pow_right (by decide) (by omega)
        _ ≤ t * 10 ^ i := Nat.le_mul_of_pos_left _ (by omega)
      exact absurd (hless _ ht) (by omega)
  refine ⟨s, j, ?_, hshortest⟩
  rw [shortest, hbits, htop]
  exact (congrArg (Decimal.trim 20) hsearch).trans
    (Decimal.trim_of_mod_ne (hshortest.mod_ne_zero hhit.contains) 20)

/-- A whole number is its own shortest decimal exactly if it is better than any other that is the same
number. -/
theorem shortest_eq_self_iff {a s j : Nat} (ha : 0 < a)
    (h : IsShortest (roundingOf a) (rounded a) s j) :
    s * 10 ^ j = a ↔ ∀ m, 0 < m → nearest m = nearest a → m ≠ a → Better (rounded a) a m := by
  obtain ⟨reach, haround⟩ := around_roundingOf ha
  have hbetter : ∀ {m}, (roundingOf a).Contains m → m ≠ s * 10 ^ j → Better (rounded a) (s * 10 ^ j) m :=
    h.better haround fun u htie => not_contains_of_tie ha htie
  constructor
  · intro he m hm hsame hne
    rw [he] at hbetter
    exact hbetter ((contains_roundingOf_iff ha hm).mpr hsame) hne
  · intro hall
    by_contra hne
    have hpos : 0 < s * 10 ^ j :=
      Nat.pos_of_ne_zero fun h0 => haround.not_contains_zero (h0 ▸ h.contains)
    have hself : (roundingOf a).Contains a := (contains_roundingOf_iff ha ha).mpr rfl
    exact (hbetter hself (Ne.symm hne)).asymm
      (hall _ hpos ((contains_roundingOf_iff ha hpos).mp h.contains) hne)

/-! ## Whole numbers that are their own shortest decimal -/

theorem mantissa_nearest_pos {m : Nat} (hm : 0 < m) : 0 < (nearest m).1 := by
  obtain ⟨k, _, _, hk⟩ | ⟨mantissa, k, _, hlow, _, hk⟩ := nearest_cases hm
  · rw [hk]
    exact Nat.mul_pos hm (Nat.two_pow_pos k)
  · rw [hk]
    exact lt_of_lt_of_le (by decide) hlow

theorem ofDecimal_zero (negative : Bool) : ofDecimal negative 0 0 = finite negative 0 (-1074) := rfl

theorem ofDecimal_of_lt (negative : Bool) {a : Nat} (ha : 0 < a) (hsmall : a < 10 ^ 21) :
    ofDecimal negative a 0 = finite negative (nearest a).1 (nearest a).2 := by
  have hlog := log2_lt_of_lt ha hsmall
  have hexp := exponent_nearest a
  rw [ofDecimal_whole negative ha, if_neg (by omega)]

/-- Which whole numbers are read as the same number. -/
theorem ofDecimal_eq_iff {a m : Nat} (ha : 0 < a) (hsmall : a < 10 ^ 21) :
    ofDecimal false m 0 = ofDecimal false a 0 ↔ 0 < m ∧ nearest m = nearest a := by
  rw [ofDecimal_of_lt false ha hsmall]
  rcases Nat.eq_zero_or_pos m with rfl | hm
  · rw [ofDecimal_zero]
    have hpos := mantissa_nearest_pos ha
    refine iff_of_false (fun he => ?_) fun he => Nat.lt_irrefl 0 he.1
    have := (finite.inj he).2.1
    omega
  · rw [ofDecimal_whole false hm, and_iff_right hm]
    split
    · next hinfinite =>
      have hlog := log2_lt_of_lt ha hsmall
      have hexp := exponent_nearest a
      refine iff_of_false (by rintro ⟨⟩) fun he => ?_
      rw [he] at hinfinite
      omega
    · rw [finite.injEq, eq_self, true_and, Prod.ext_iff]

/-- A whole number is better than any other that is read as the same number. -/
def OwnShortest (n : Nat) : Prop :=
  ∀ m, ofDecimal false m 0 = ofDecimal false n 0 → m ≠ n →
    Better (ofDecimal false n 0).truncate.toNat n m

theorem ownShortest_iff {a : Nat} (ha : 0 < a) (hsmall : a < 10 ^ 21) :
    OwnShortest a ↔ ∀ m, 0 < m → nearest m = nearest a → m ≠ a → Better (rounded a) a m := by
  have hrounded : (ofDecimal false a 0).truncate.toNat = rounded a := by
    rw [ofDecimal_of_lt false ha hsmall, rounded]
  simp only [OwnShortest, ofDecimal_eq_iff ha hsmall, hrounded, and_imp]

theorem ownShortest_zero : OwnShortest 0 := by
  intro m hsame hne
  have hm : 0 < m := Nat.pos_of_ne_zero hne
  have hpos := mantissa_nearest_pos hm
  rw [ofDecimal_whole false hm, ofDecimal_zero] at hsame
  split at hsame
  · cases hsame
  · have := (finite.inj hsame).2.1
    omega

/-- Below `2 ^ 53` no other whole number is read as the same number. -/
theorem ownShortest_of_lt {n : Nat} (h : n < 2 ^ 53) : OwnShortest n := by
  rcases Nat.eq_zero_or_pos n with rfl | hpos
  · exact ownShortest_zero
  · rw [ownShortest_iff hpos (lt_trans h (by decide))]
    intro m hm hsame hne
    exact absurd (nearest_eq_of_lt hpos hm h hsame) hne

/-- **The shortest decimal for a whole number is the number itself exactly if it is its own shortest.** -/
theorem shortest_whole {a : Nat} (ha : 0 < a) (hsmall : a < 10 ^ 21) :
    ∃ s j : Nat, shortest (nearest a).1 (nearest a).2 = ⟨s, (j : Int)⟩ ∧ 0 < s ∧
      (s * 10 ^ j = a ↔ OwnShortest a) := by
  obtain ⟨s, j, heq, h⟩ := shortest_nearest ha hsmall
  exact ⟨s, j, heq, h.pos h.contains, by rw [ownShortest_iff ha hsmall, shortest_eq_self_iff ha h]⟩

end AttributeLint.Binary64
