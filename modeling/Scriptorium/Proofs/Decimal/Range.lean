/-
Which decimals have a finite floating-point number next to them.

The greatest finite number is `(2 ^ 53 - 1) * 2 ^ 971`. A decimal overflows from halfway between
it and the next power of two on, as the half goes to the even neighbour; `isFinite_toBinary64_iff`
says that it does so exactly from there.
-/

import Scriptorium.Proofs.Decimal.Nearest

namespace Scriptorium.Decimal

variable {num den : Nat}

/-- The least number that is rounded to infinity: halfway between the greatest finite number and
the next power of two. -/
def overflow : ℚ :=
  (2 ^ 53 - 1 / 2) * 2 ^ (971 : Int)

theorem two_zpow_lt_overflow : (2 : ℚ) ^ (1023 : Int) < overflow := by
  rw [show (1023 : Int) = 52 + 971 by decide, two_zpow_add, overflow]
  exact mul_lt_mul_of_pos_right (by norm_num) (by positivity)

theorem overflow_lt_two_zpow : overflow < (2 : ℚ) ^ (1024 : Int) := by
  rw [show (1024 : Int) = 53 + 971 by decide, two_zpow_add, overflow]
  exact mul_lt_mul_of_pos_right (by norm_num) (by positivity)

theorem overflow_lt_ten_zpow : overflow < (10 : ℚ) ^ (311 : Int) := by
  refine overflow_lt_two_zpow.trans ?_
  have hpow : 2 ^ 1024 < 10 ^ 311 := by decide +kernel
  exact_mod_cast hpow

/-- The nearest place is a finite one exactly below the overflow. -/
theorem nearestIndex_lt_iff (hnum : 0 < num) (hden : 0 < den) :
    nearestIndex num den < 2047 * 0x10000000000000 ↔ (num : ℚ) / den < overflow := by
  have hlast := nearestIndex_le_iff hnum hden (s := 2045) (m := 0x1FFFFFFFFFFFFF) (by decide)
    (.inr (by decide))
  have hhalf : (((0x1FFFFFFFFFFFFF : Nat) : ℚ) + 1 / 2) * 2 ^ (((2045 : Nat) : Int) - 1074) =
      overflow := by
    norm_num [overflow]
  rw [hhalf, UpTo.iff_lt_of_not (by decide)] at hlast
  rw [← hlast]
  omega

/-- The sign has no part in rounding. -/
theorem toBinary64_true (d : Decimal) : d.toBinary64 true = (d.toBinary64 false).neg := by
  have hneg (index : Nat) : Binary64.ofIndex true index = (Binary64.ofIndex false index).neg := by
    unfold Binary64.ofIndex
    split <;> rfl
  unfold toBinary64
  split_ifs <;> exact hneg _

theorem isFinite_ofIndex_iff (negative : Bool) (index : Nat) :
    (Binary64.ofIndex negative index).isFinite = true ↔ index < 2047 * 0x10000000000000 := by
  unfold Binary64.ofIndex
  split
  · rename_i h
    simp only [Binary64.isFinite, bne_iff_ne, h, iff_true]
    omega
  · rename_i h
    simp [Binary64.isFinite, h]

/-- **Overflow.** The floating-point number nearest to a decimal is finite exactly if the decimal
is less than the halfway point behind the greatest finite number. -/
theorem isFinite_toBinary64_iff (negative : Bool) (d : Decimal) :
    (d.toBinary64 negative).isFinite = true ↔ d.value < overflow := by
  have hone : (1 : ℚ) < overflow := by
    calc (1 : ℚ) ≤ 2 ^ (1023 : Int) := one_le_zpow₀ (by norm_num) (by decide)
      _ < overflow := two_zpow_lt_overflow
  unfold toBinary64
  split
  · rename_i hzero
    rw [isFinite_ofIndex_iff, value, hzero]
    refine iff_of_true (by decide) ?_
    simpa using zero_lt_one.trans hone
  rename_i hdigits
  obtain ⟨hlow, hhigh⟩ := value_bounds hdigits
  split
  · rename_i hlarge
    rw [isFinite_ofIndex_iff]
    refine iff_of_false (by decide) ?_
    rw [not_lt]
    calc overflow ≤ (10 : ℚ) ^ (311 : Int) := overflow_lt_ten_zpow.le
      _ ≤ 10 ^ d.leading := zpow_le_zpow_right₀ (by norm_num) (by omega)
      _ ≤ d.value := hlow
  split
  · rename_i hsmall
    rw [isFinite_ofIndex_iff]
    refine iff_of_true (by decide) ?_
    calc d.value < (10 : ℚ) ^ (d.leading + 1) := hhigh
      _ ≤ 1 := zpow_le_one_of_nonpos₀ (by norm_num) (by omega)
      _ < overflow := hone
  · rw [isFinite_ofIndex_iff, nearestIndex_lt_iff, value_eq_div]
    · exact Nat.mul_pos (Nat.pos_of_ne_zero hdigits) (Nat.pow_pos (by decide))
    · exact Nat.pow_pos (by decide)

end Scriptorium.Decimal
