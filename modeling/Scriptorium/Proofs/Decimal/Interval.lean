/-
The numbers that are rounded to a floating-point number.

They form an interval around its magnitude, from halfway to the number before it to halfway to the
number behind it, with both ends if the significand is even and with neither if it is odd. A decimal
is rounded to a finite number other than zero exactly if it lies in that interval
(`toBinary64_eq_iff`).
-/

import Scriptorium.Proofs.Decimal.Range

namespace Scriptorium

namespace Binary64

variable {x : Binary64} {num den : Nat}

/-! ### Places -/

/-- The place of a number in the ascending order of magnitudes. -/
def index (x : Binary64) : Nat :=
  x.exponent * 0x10000000000000 + x.fraction

/-- The steps of the scale from the smallest one on. -/
def steps (x : Binary64) : Nat :=
  x.exponent - 1

theorem index_eq (x : Binary64) : x.index = x.steps * 0x10000000000000 + x.significand := by
  unfold index steps significand
  split <;> omega

theorem scale_eq (x : Binary64) : x.scale = (x.steps : Int) - 1074 := by
  unfold scale steps
  split <;> omega

theorem significand_lt (x : Binary64) : x.significand < 0x20000000000000 := by
  have := x.fraction_lt
  unfold significand
  split <;> omega

/-- Only at the smallest scale a significand is short of fifty-three places. -/
theorem steps_eq_zero_or (x : Binary64) : x.steps = 0 ∨ 0x10000000000000 ≤ x.significand := by
  unfold steps significand
  split <;> omega

theorem index_eq_zero_iff : x.index = 0 ↔ x.significand = 0 := by
  have := x.steps_eq_zero_or
  rw [index_eq]
  omega

theorem isFinite_iff : x.isFinite = true ↔ x.exponent < 2047 := by
  have := x.exponent_lt
  simp only [isFinite, bne_iff_ne]
  omega

theorem index_lt (h : x.isFinite = true) : x.index < 2047 * 0x10000000000000 := by
  have := isFinite_iff.mp h
  have := x.fraction_lt
  unfold index
  omega

/-- A finite number is found at its place, and nowhere else. -/
theorem ofIndex_eq_iff (h : x.isFinite = true) (i : Nat) :
    ofIndex x.negative i = x ↔ i = x.index := by
  have := isFinite_iff.mp h
  have := x.fraction_lt
  constructor
  · intro heq
    have hexponent := congrArg Binary64.exponent heq
    have hfraction := congrArg Binary64.fraction heq
    unfold ofIndex at hexponent hfraction
    split at hexponent
    · rename_i hi
      simp only [hi, dif_pos] at hexponent hfraction
      unfold index
      omega
    · simp only at hexponent
      omega
  · rintro rfl
    have hquotient : x.index / 0x10000000000000 = x.exponent := by
      unfold index
      omega
    have hremainder : x.index % 0x10000000000000 = x.fraction := by
      unfold index
      omega
    rw [ofIndex, dif_pos (index_lt h)]
    simp only [hquotient, hremainder]

/-! ### The interval -/

/-- The magnitude of a finite number. -/
def magnitude (x : Binary64) : ℚ :=
  x.significand * 2 ^ x.scale

/-- Halfway to the number behind a number. -/
def upper (x : Binary64) : ℚ :=
  (x.significand + 1 / 2) * 2 ^ x.scale

/-- Halfway to the number before a number. -/
def lower (x : Binary64) : ℚ :=
  (x.significand - if x.narrowBelow then 1 / 4 else 1 / 2) * 2 ^ x.scale

/-- A magnitude is nearer to a number than to its neighbours, or halfway to one of these if the
significand is even. -/
structure Attracts (x : Binary64) (v : ℚ) : Prop where
  above : UpTo (x.significand % 2 = 0) x.lower v
  below : UpTo (x.significand % 2 = 0) v x.upper

theorem nearestIndex_le_index_iff (hnum : 0 < num) (hden : 0 < den) (x : Binary64) :
    Decimal.nearestIndex num den ≤ x.index ↔
      UpTo (x.significand % 2 = 0) (num / den) x.upper := by
  rw [index_eq, upper, scale_eq]
  exact Decimal.nearestIndex_le_iff hnum hden x.significand_lt x.steps_eq_zero_or

/-- The place before a number, with its significand and scale: before a power of two the scale is
smaller by a step. -/
theorem exists_place_before (hx : x.significand ≠ 0) :
    ∃ s m : Nat, x.index = s * 0x10000000000000 + m + 1 ∧ m < 0x20000000000000 ∧
      (s = 0 ∨ 0x10000000000000 ≤ m) ∧ (m % 2 = 0 ↔ x.significand % 2 ≠ 0) ∧
      (m + 1 / 2) * 2 ^ ((s : Int) - 1074) = x.lower := by
  have hlt := x.significand_lt
  cases hnarrow : x.narrowBelow with
  | true =>
    simp only [narrowBelow, Bool.and_eq_true, beq_iff_eq, decide_eq_true_eq] at hnarrow
    obtain ⟨hfraction, hexponent⟩ := hnarrow
    have hsignificand : x.significand = 0x10000000000000 := by
      simp only [significand, hfraction]
      split <;> omega
    have hsteps : x.steps = x.steps - 1 + 1 := by
      unfold steps
      omega
    refine ⟨x.steps - 1, 0x1FFFFFFFFFFFFF, ?_, by decide, .inr (by decide), ?_, ?_⟩
    · rw [index_eq, hsignificand]
      omega
    · rw [hsignificand]
      decide
    · have hscale : x.scale = 1 + (((x.steps - 1 : Nat) : Int) - 1074) := by
        rw [scale_eq]
        omega
      rw [lower, hscale, two_zpow_add, hsignificand]
      simp only [narrowBelow, hfraction, hexponent]
      norm_num
      ring
  | false =>
    have hwide : x.steps = 0 ∨ x.significand ≠ 0x10000000000000 := by
      simp only [narrowBelow, Bool.and_eq_false_iff, beq_eq_false_iff_ne, decide_eq_false_iff_not]
        at hnarrow
      unfold steps significand
      split <;> omega
    have hfull := x.steps_eq_zero_or
    refine ⟨x.steps, x.significand - 1, ?_, by omega, by omega, by omega, ?_⟩
    · rw [index_eq]
      omega
    · have hcast : ((x.significand - 1 : Nat) : ℚ) = x.significand - 1 := by
        rw [Nat.cast_sub (by omega), Nat.cast_one]
      rw [lower, hnarrow, scale_eq, hcast, if_neg (by simp)]
      ring

theorem nearestIndex_lt_index_iff (hnum : 0 < num) (hden : 0 < den) (hx : x.significand ≠ 0) :
    Decimal.nearestIndex num den < x.index ↔
      UpTo (x.significand % 2 ≠ 0) (num / den) x.lower := by
  obtain ⟨s, m, hindex, hm, hs, hparity, hlower⟩ := exists_place_before hx
  rw [hindex, Nat.lt_succ_iff, Decimal.nearestIndex_le_iff hnum hden hm hs, hlower, hparity]

/-- A quotient is rounded to the numbers that attract it. -/
theorem nearestIndex_eq_index_iff (hnum : 0 < num) (hden : 0 < den) (hx : x.significand ≠ 0) :
    Decimal.nearestIndex num den = x.index ↔ x.Attracts (num / den) := by
  have hlow := (nearestIndex_lt_index_iff hnum hden hx).not
  have hhigh := nearestIndex_le_index_iff hnum hden x
  rw [UpTo.not_iff, not_not] at hlow
  constructor
  · intro h
    exact ⟨hlow.mp (by omega), hhigh.mp (by omega)⟩
  · intro h
    have := hlow.mpr h.above
    have := hhigh.mpr h.below
    omega

/-! ### Bounds of the interval -/

theorem lower_lt_magnitude (x : Binary64) : x.lower < x.magnitude := by
  unfold lower magnitude
  gcongr
  split <;> norm_num

theorem magnitude_lt_upper (x : Binary64) : x.magnitude < x.upper := by
  unfold upper magnitude
  gcongr
  norm_num

/-- A number attracts its magnitude. -/
theorem attracts_magnitude (x : Binary64) : x.Attracts x.magnitude :=
  ⟨.inl x.lower_lt_magnitude, .inl x.magnitude_lt_upper⟩

theorem half_step_le_lower (hx : x.significand ≠ 0) : 1 / 2 * 2 ^ (-1074 : Int) ≤ x.lower := by
  have hscale : (-1074 : Int) ≤ x.scale := by
    rw [scale_eq]
    omega
  have hone : (1 : ℚ) ≤ x.significand := Nat.one_le_cast.mpr (Nat.pos_of_ne_zero hx)
  have hhalf : (1 / 2 : ℚ) ≤ x.significand - if x.narrowBelow then 1 / 4 else 1 / 2 := by
    split <;> linarith
  exact mul_le_mul hhalf (two_zpow_le_iff.mpr hscale) (by positivity) (by linarith)

theorem upper_le_overflow (h : x.isFinite = true) : x.upper ≤ Decimal.overflow := by
  have hscale : x.scale ≤ 971 := by
    have := isFinite_iff.mp h
    rw [scale_eq]
    unfold steps
    omega
  have hlt : (x.significand : ℚ) + 1 ≤ ((0x20000000000000 : Nat) : ℚ) := by
    exact_mod_cast x.significand_lt
  have hhalf : (x.significand : ℚ) + 1 / 2 ≤ 2 ^ 53 - 1 / 2 := by
    push_cast at hlt
    linarith
  exact mul_le_mul hhalf (two_zpow_le_iff.mpr hscale) (by positivity) (by norm_num)

/-- What lies between numbers that are attracted is attracted. -/
theorem Attracts.between {a b v : ℚ} (ha : x.Attracts a) (hb : x.Attracts b) (hav : a ≤ v)
    (hvb : v ≤ b) : x.Attracts v where
  above := by
    rcases ha.above with h | ⟨hclosed, h⟩
    · exact .inl (h.trans_le hav)
    · exact (h.trans_le hav).lt_or_eq.imp_right fun h => ⟨hclosed, h⟩
  below := by
    rcases hb.below with h | ⟨hclosed, h⟩
    · exact .inl (hvb.trans_lt h)
    · exact (hvb.trans_eq h).lt_or_eq.imp_right fun h => ⟨hclosed, h⟩

/-! ### Decimals -/

/-- A decimal that a number other than zero attracts is not zero. -/
theorem Attracts.digits_ne_zero {d : Decimal} (hx : x.significand ≠ 0) (h : x.Attracts d.value) :
    d.digits ≠ 0 := by
  intro hzero
  have habove := h.above.le
  have hleast := half_step_le_lower hx
  have hpos : (0 : ℚ) < 1 / 2 * 2 ^ (-1074 : Int) := by positivity
  rw [Decimal.value_eq_zero_iff.mpr hzero] at habove
  linarith

theorem ten_zpow_lt_half_step : (10 : ℚ) ^ (-330 : Int) < 1 / 2 * 2 ^ (-1074 : Int) := by
  have hpow : 2 ^ 1075 < 10 ^ 330 := by decide +kernel
  have hstep : (1 / 2 : ℚ) * 2 ^ (-1074 : Int) = (2 ^ (1075 : Nat))⁻¹ := by
    rw [← zpow_natCast, ← zpow_neg, one_div, ← zpow_neg_one, ← two_zpow_add]
    norm_num
  rw [hstep, show (-330 : Int) = -((330 : Nat) : Int) by decide, zpow_neg, zpow_natCast]
  exact inv_strictAnti₀ (by positivity) (by exact_mod_cast hpow)

/-- **Rounding.** A decimal is rounded to a finite number other than zero exactly if it lies in the
interval of that number. -/
theorem toBinary64_eq_iff (h : x.isFinite = true) (hx : x.significand ≠ 0) (d : Decimal) :
    d.toBinary64 x.negative = x ↔ x.Attracts d.value := by
  have hplace : x.index ≠ 0 := mt index_eq_zero_iff.mp hx
  have hfinite := index_lt h
  have hleast := half_step_le_lower hx
  unfold Decimal.toBinary64
  split
  · rename_i hzero
    rw [ofIndex_eq_iff h]
    exact iff_of_false hplace.symm fun hattracts => hattracts.digits_ne_zero hx hzero
  rename_i hdigits
  obtain ⟨hlow, hhigh⟩ := Decimal.value_bounds hdigits
  split
  · rename_i hlarge
    rw [ofIndex_eq_iff h]
    refine iff_of_false (by omega) fun hattracts => absurd hattracts.below.le (not_le.mpr ?_)
    calc x.upper ≤ Decimal.overflow := upper_le_overflow h
      _ < (10 : ℚ) ^ (311 : Int) := Decimal.overflow_lt_ten_zpow
      _ ≤ 10 ^ d.leading := zpow_le_zpow_right₀ (by norm_num) (by omega)
      _ ≤ d.value := hlow
  split
  · rename_i hsmall
    rw [ofIndex_eq_iff h]
    refine iff_of_false (by omega) fun hattracts => absurd hattracts.above.le (not_le.mpr ?_)
    calc d.value < (10 : ℚ) ^ (d.leading + 1) := hhigh
      _ ≤ 10 ^ (-330 : Int) := zpow_le_zpow_right₀ (by norm_num) (by omega)
      _ ≤ 1 / 2 * 2 ^ (-1074 : Int) := ten_zpow_lt_half_step.le
      _ ≤ x.lower := hleast
  · rw [ofIndex_eq_iff h, nearestIndex_eq_index_iff _ _ hx, Decimal.value_eq_div]
    · exact Nat.mul_pos (Nat.pos_of_ne_zero hdigits) (Nat.pow_pos (by decide))
    · exact Nat.pow_pos (by decide)

end Binary64

end Scriptorium
