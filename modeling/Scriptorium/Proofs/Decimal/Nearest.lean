/-
Which floating-point number is the nearest one to a quotient.

The numbers of one sign have their places in ascending order, and a quotient is rounded to a place
or to one before it exactly up to halfway to the next place; the half itself goes to the even place
(`nearestIndex_le_iff`).
-/

import Scriptorium.Decimal.Rounding
import Mathlib.Algebra.Order.Field.Power
import Mathlib.Algebra.Order.Field.Rat
import Mathlib.Tactic.FieldSimp
import Mathlib.Tactic.Linarith
import Mathlib.Tactic.NormNum
import Mathlib.Tactic.Positivity
import Mathlib.Tactic.Ring

namespace Scriptorium

/-! ### Bounds -/

/-- Below a bound, or at it if the bound is taken in. -/
def UpTo (closed : Prop) (v bound : ℚ) : Prop :=
  v < bound ∨ closed ∧ v = bound

namespace UpTo

variable {closed : Prop} {v bound unit : ℚ}

theorem le (h : UpTo closed v bound) : v ≤ bound :=
  h.elim le_of_lt fun h => h.2.le

theorem iff_lt_of_not (h : ¬closed) : UpTo closed v bound ↔ v < bound :=
  or_iff_left fun hclosed => h hclosed.1

theorem iff_le_of (h : closed) : UpTo closed v bound ↔ v ≤ bound := by
  rw [UpTo, le_iff_lt_or_eq, and_iff_right h]

/-- What is not up to a bound is beyond it, and the bound itself falls to one of the sides. -/
theorem not_iff : ¬UpTo closed v bound ↔ UpTo (¬closed) bound v := by
  unfold UpTo
  rw [not_or, not_lt, not_and, le_iff_lt_or_eq]
  grind

theorem div_iff (h : 0 < unit) : UpTo closed (v / unit) bound ↔ UpTo closed v (bound * unit) := by
  rw [UpTo, UpTo, div_lt_iff₀ h, div_eq_iff h.ne']

end UpTo

/-! ### Division to the nearest integer -/

theorem roundDiv_cases (num den : Nat) :
    (roundDiv num den = num / den ∧ 2 * (num % den) ≤ den) ∨
      (roundDiv num den = num / den + 1 ∧ den ≤ 2 * (num % den)) := by
  unfold roundDiv
  grind

/-- A quotient is rounded to a number at most `k` up to halfway to the next one, and the half is
taken in if `k` is even. -/
theorem roundDiv_le_iff {num den k : Nat} (hden : 0 < den) :
    roundDiv num den ≤ k ↔ UpTo (k % 2 = 0) (num / den) (k + 1 / 2) := by
  have hdenRat : (0 : ℚ) < den := by exact_mod_cast hden
  have hless : (num : ℚ) / den < k + 1 / 2 ↔ 2 * num < 2 * (den * k) + den := by
    rw [div_lt_iff₀ hdenRat, ← Nat.cast_lt (α := ℚ)]
    push_cast
    constructor <;> intro h <;> linarith
  have hhalf : (num : ℚ) / den = k + 1 / 2 ↔ 2 * num = 2 * (den * k) + den := by
    rw [div_eq_iff hdenRat.ne', ← Nat.cast_inj (R := ℚ)]
    push_cast
    constructor <;> intro h <;> linarith
  rw [UpTo, hless, hhalf]
  have hnum := Nat.div_add_mod num den
  have hmod := Nat.mod_lt num hden
  have hround := roundDiv_cases num den
  rcases Nat.lt_trichotomy (num / den) k with hlow | hsame | hhigh
  · have hmul : den * (num / den + 1) ≤ den * k := Nat.mul_le_mul_left den hlow
    rw [Nat.mul_succ] at hmul
    omega
  · rw [← hsame]
    unfold roundDiv
    grind
  · have hmul : den * (k + 1) ≤ den * (num / den) := Nat.mul_le_mul_left den hhigh
    rw [Nat.mul_succ] at hmul
    omega

/-! ### Scaling -/

/-- A quotient of powers of one base is a power with a signed exponent. -/
theorem pow_toNat_div_pow_toNat {base : ℚ} (hbase : base ≠ 0) (e : Int) :
    base ^ e.toNat / base ^ (-e).toNat = base ^ e := by
  have he : e = (e.toNat : Int) - ((-e).toNat : Int) := by omega
  conv_rhs => rw [he, zpow_sub₀ hbase, zpow_natCast, zpow_natCast]

theorem pow_toNat_eq {base : ℚ} (hbase : base ≠ 0) (e : Int) :
    base ^ e.toNat = base ^ e * base ^ (-e).toNat := by
  rw [← pow_toNat_div_pow_toNat hbase e, div_mul_cancel₀ _ (pow_ne_zero _ hbase)]

theorem two_zpow_le_iff {m n : Int} : (2 : ℚ) ^ m ≤ 2 ^ n ↔ m ≤ n :=
  zpow_le_zpow_iff_right₀ (by norm_num)

theorem two_zpow_add (m n : Int) : (2 : ℚ) ^ (m + n) = 2 ^ m * 2 ^ n :=
  zpow_add₀ (by norm_num) m n

namespace Decimal

/-! ### The number of a decimal -/

/-- The number that a decimal denotes. -/
def value (d : Decimal) : ℚ :=
  d.digits * (10 : ℚ) ^ d.exponent

theorem value_nonneg (d : Decimal) : 0 ≤ d.value := by
  unfold value
  positivity

theorem value_eq_zero_iff {d : Decimal} : d.value = 0 ↔ d.digits = 0 := by
  have hpos : (10 : ℚ) ^ d.exponent ≠ 0 := by positivity
  rw [value, mul_eq_zero, or_iff_left hpos, Nat.cast_eq_zero]

/-- Two decimals denote the same number if their digits agree on the finer one's grid. -/
theorem sameNumber_iff {d e : Decimal} : d.SameNumber e ↔ d.value = e.value := by
  have hpow : (0 : ℚ) < 10 ^ (e.exponent - d.exponent).toNat := by positivity
  have hunit : (0 : ℚ) < 10 ^ e.exponent := by positivity
  have hsplit := pow_toNat_eq (by norm_num : (10 : ℚ) ≠ 0) (d.exponent - e.exponent)
  rw [neg_sub, zpow_sub₀ (by norm_num)] at hsplit
  rw [SameNumber, ← Nat.cast_inj (R := ℚ)]
  simp only [Nat.pow_eq]
  push_cast
  rw [hsplit, ← mul_assoc, mul_left_inj' hpow.ne', ← mul_div_assoc, div_eq_iff hunit.ne', value,
    value]

/-- The leading exponent bounds a decimal from both sides. -/
theorem value_bounds {d : Decimal} (h : d.digits ≠ 0) :
    (10 : ℚ) ^ d.leading ≤ d.value ∧ d.value < (10 : ℚ) ^ (d.leading + 1) := by
  set count := (Nat.toDigits 10 d.digits).length with hcount
  have hpos : 0 < count := List.length_pos_iff.mpr Nat.toDigits_ne_nil
  have hhigh : d.digits < 10 ^ count :=
    (Nat.length_toDigits_le_iff (by decide) hpos).mp (Nat.le_refl count)
  have hlow : 10 ^ (count - 1) ≤ d.digits := by
    by_cases hone : count = 1
    · rw [hone]
      exact Nat.pos_of_ne_zero h
    · refine Nat.le_of_not_lt fun hless => ?_
      have := (Nat.length_toDigits_le_iff (b := 10) (by decide) (by omega)).mpr hless
      omega
  have hleading : d.leading = ((count - 1 : Nat) : Int) + d.exponent := by
    unfold leading
    omega
  have hnext : d.leading + 1 = (count : Int) + d.exponent := by omega
  constructor
  · rw [hleading, zpow_add₀ (by norm_num), zpow_natCast, value]
    gcongr
    exact_mod_cast hlow
  · rw [hnext, zpow_add₀ (by norm_num), zpow_natCast, value]
    gcongr
    exact_mod_cast hhigh

theorem value_eq_div (d : Decimal) :
    ((d.digits * Nat.pow 10 d.exponent.toNat : Nat) : ℚ) / (Nat.pow 10 (-d.exponent).toNat : Nat) =
      d.value := by
  simp only [Nat.pow_eq]
  push_cast
  rw [mul_div_assoc, pow_toNat_div_pow_toNat (by norm_num), value]

/-! ### The scale of a quotient -/

/-- A quotient in units of a power of two, as the quotient of two natural numbers. -/
theorem scaled_eq (num den : Nat) (q : Int) :
    ((num * Nat.pow 2 (-q).toNat : Nat) : ℚ) / ((den * Nat.pow 2 q.toNat : Nat) : ℚ) =
      num / den / 2 ^ q := by
  have hpow := pow_toNat_div_pow_toNat (two_ne_zero' ℚ) (-q)
  rw [neg_neg, zpow_neg] at hpow
  simp only [Nat.pow_eq]
  push_cast
  rw [mul_div_mul_comm, hpow, ← div_eq_mul_inv]

/-- The binary logarithm bounds a number from both sides. -/
theorem two_zpow_log2 {n : Nat} (hn : 0 < n) :
    (2 : ℚ) ^ (n.log2 : Int) ≤ n ∧ (n : ℚ) < 2 ^ ((n.log2 : Int) + 1) := by
  constructor
  · rw [zpow_natCast]
    exact_mod_cast Nat.log2_self_le (Nat.pos_iff_ne_zero.mp hn)
  · have hcast : (2 : ℚ) ^ ((n.log2 : Int) + 1) = ((2 ^ (n.log2 + 1) : Nat) : ℚ) := by
      push_cast
      exact_mod_cast zpow_natCast (2 : ℚ) (n.log2 + 1)
    rw [hcast]
    exact_mod_cast Nat.lt_log2_self

variable {num den : Nat}

/-- The logarithms of numerator and denominator find the scale but for one place. -/
theorem rough_bounds (hnum : 0 < num) (hden : 0 < den) {rough : Int}
    (hrough : rough = (num.log2 : Int) - den.log2 - 53) :
    (2 : ℚ) ^ (rough + 52) < num / den ∧ (num : ℚ) / den < 2 ^ (rough + 54) := by
  have hdenRat : (0 : ℚ) < den := by exact_mod_cast hden
  obtain ⟨hnumLow, hnumHigh⟩ := two_zpow_log2 hnum
  obtain ⟨hdenLow, hdenHigh⟩ := two_zpow_log2 hden
  constructor
  · rw [lt_div_iff₀ hdenRat]
    calc (2 : ℚ) ^ (rough + 52) * den
        < 2 ^ (rough + 52) * 2 ^ ((den.log2 : Int) + 1) := by gcongr
      _ = 2 ^ (num.log2 : Int) := by
        rw [← two_zpow_add]
        congr 1
        omega
      _ ≤ num := hnumLow
  · rw [div_lt_iff₀ hdenRat]
    calc (num : ℚ) < 2 ^ ((num.log2 : Int) + 1) := hnumHigh
      _ = 2 ^ (rough + 54) * 2 ^ (den.log2 : Int) := by
        rw [← two_zpow_add]
        congr 1
        omega
      _ ≤ 2 ^ (rough + 54) * den := by gcongr

/-- The scale is the one at which the quotient has fifty-three places, unless that is below the
smallest step. -/
theorem exists_scaleOf_eq (hnum : 0 < num) (hden : 0 < den) :
    ∃ e : Int, scaleOf num den = max (-1074) e ∧
      (2 : ℚ) ^ (e + 52) ≤ num / den ∧ (num : ℚ) / den < 2 ^ (e + 53) := by
  obtain ⟨hlow, hhigh⟩ := rough_bounds hnum hden rfl
  set rough : Int := (num.log2 : Int) - den.log2 - 53 with hrough
  set scaled := num * Nat.pow 2 (-rough).toNat / (den * Nat.pow 2 rough.toNat) with hscaled
  have hscaledIff : 0x20000000000000 ≤ scaled ↔ (2 : ℚ) ^ (rough + 53) ≤ num / den := by
    have hdenPos : 0 < den * Nat.pow 2 rough.toNat := Nat.mul_pos hden (Nat.pow_pos (by decide))
    have hdenRat : (0 : ℚ) < ((den * Nat.pow 2 rough.toNat : Nat) : ℚ) := by exact_mod_cast hdenPos
    have hunit : (0 : ℚ) < 2 ^ rough := by positivity
    rw [hscaled, Nat.le_div_iff_mul_le hdenPos, ← Nat.cast_le (α := ℚ), Nat.cast_mul,
      ← le_div_iff₀ hdenRat, scaled_eq, le_div_iff₀ hunit, add_comm, two_zpow_add]
    norm_num
  by_cases hmore : 0x20000000000000 ≤ scaled
  · refine ⟨rough + 1, ?_, ?_, ?_⟩
    · simp only [scaleOf, ← hrough, ← hscaled, if_pos hmore]
    · rw [show rough + 1 + 52 = rough + 53 by omega]
      exact hscaledIff.mp hmore
    · rw [show rough + 1 + 53 = rough + 54 by omega]
      exact hhigh
  · refine ⟨rough, ?_, hlow.le, ?_⟩
    · simp only [scaleOf, ← hrough, ← hscaled, if_neg hmore]
    · rw [← not_le]
      exact fun h => hmore (hscaledIff.mpr h)

/-- At its scale a quotient has at most fifty-three places, and no fewer above the smallest
step. -/
theorem scaleOf_bounds (hnum : 0 < num) (hden : 0 < den) :
    (num : ℚ) / den < 2 ^ (scaleOf num den + 53) ∧
      (scaleOf num den = -1074 ∨
        -1074 < scaleOf num den ∧ (2 : ℚ) ^ (scaleOf num den + 52) ≤ num / den) := by
  obtain ⟨e, hscale, heLow, heHigh⟩ := exists_scaleOf_eq hnum hden
  rw [hscale]
  constructor
  · refine heHigh.trans_le (two_zpow_le_iff.mpr ?_)
    omega
  · by_cases he : e ≤ -1074
    · exact .inl (max_eq_left he)
    · refine .inr ⟨by omega, ?_⟩
      rwa [max_eq_right (by omega)]

/-! ### Places -/

/-- The nearest place is at most the one with a significand at a scale up to halfway behind it. -/
theorem nearestIndex_le_iff (hnum : 0 < num) (hden : 0 < den) {s m : Nat}
    (hm : m < 0x20000000000000) (hs : s = 0 ∨ 0x10000000000000 ≤ m) :
    nearestIndex num den ≤ s * 0x10000000000000 + m ↔
      UpTo (m % 2 = 0) (num / den) ((m + 1 / 2) * 2 ^ ((s : Int) - 1074)) := by
  obtain ⟨hhigh, hlow⟩ := scaleOf_bounds hnum hden
  set q := scaleOf num den with hq
  set r := roundDiv (num * Nat.pow 2 (-q).toNat) (den * Nat.pow 2 q.toNat) with hr
  have hindex : nearestIndex num den = (q + 1074).toNat * 0x10000000000000 + r := rfl
  have hround (k : Nat) : r ≤ k ↔ UpTo (k % 2 = 0) (num / den) ((k + 1 / 2) * 2 ^ q) := by
    have hdenPos : 0 < den * Nat.pow 2 q.toNat := Nat.mul_pos hden (Nat.pow_pos (by decide))
    rw [roundDiv_le_iff hdenPos, scaled_eq, UpTo.div_iff (by positivity)]
  have hunit : (0 : ℚ) < 2 ^ q := by positivity
  have hrBelow : r ≤ 0x20000000000000 := by
    refine (hround _).mpr (.inl ?_)
    calc (num : ℚ) / den < 2 ^ (q + 53) := hhigh
      _ = 2 ^ 53 * 2 ^ q := by rw [add_comm, two_zpow_add]; norm_num
      _ ≤ _ := by gcongr; norm_num
  rw [hindex]
  rcases lt_trichotomy q ((s : Int) - 1074) with hless | hsame | hmore
  · -- The quotient lies below the scale, and so do all places at its own scale.
    have hm : 0x10000000000000 ≤ m := hs.resolve_left (by omega)
    have hmRat : ((0x10000000000000 : Nat) : ℚ) ≤ m := Nat.cast_le.mpr hm
    refine iff_of_true (by omega) (.inl ?_)
    calc (num : ℚ) / den < 2 ^ (q + 53) := hhigh
      _ ≤ 2 ^ (52 + ((s : Int) - 1074)) := two_zpow_le_iff.mpr (by omega)
      _ = 2 ^ (52 : Int) * 2 ^ ((s : Int) - 1074) := two_zpow_add _ _
      _ ≤ (m + 1 / 2) * 2 ^ ((s : Int) - 1074) := by
        gcongr
        push_cast at hmRat
        norm_num
        linarith
  · rw [← hsame, ← hround]
    omega
  · have hlow := (hlow.resolve_left (by omega)).2
    have hrAbove : ¬r ≤ 0xFFFFFFFFFFFFF := by
      rw [hround]
      refine fun h => absurd h.le (not_le.mpr ?_)
      refine lt_of_lt_of_le ?_ hlow
      rw [add_comm q, two_zpow_add]
      gcongr
      norm_num
    have hmRat : (m : ℚ) + 1 ≤ ((0x20000000000000 : Nat) : ℚ) := by exact_mod_cast hm
    refine iff_of_false (by omega) fun h => absurd h.le (not_le.mpr ?_)
    calc ((m : ℚ) + 1 / 2) * 2 ^ ((s : Int) - 1074)
        < 2 ^ (53 : Int) * 2 ^ ((s : Int) - 1074) := by
          gcongr
          push_cast at hmRat
          norm_num
          linarith
      _ = 2 ^ (53 + ((s : Int) - 1074)) := (two_zpow_add _ _).symm
      _ ≤ 2 ^ (q + 52) := two_zpow_le_iff.mpr (by omega)
      _ ≤ num / den := hlow

end Decimal

end Scriptorium
