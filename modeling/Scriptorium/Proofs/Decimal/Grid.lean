/-
The neighbours of a floating-point number on a decimal grid.

In a common measure the steps of the grid and the ends of the interval are whole numbers, so that
they can be compared without rounding (`identifies_iff`). Of the steps that are rounded to a number
its two neighbours are the nearest (`step_cases`), so that these alone have to be tried
(`onGrid_cases`).
-/

import Scriptorium.Decimal.Shortest
import Scriptorium.Proofs.Decimal.Interval

namespace Scriptorium.Binary64

variable {x : Binary64} {g : Int} {n : Nat} {d : Decimal} {tie : Tie}

/-! ### The common measure -/

/-- Grid steps and quarters of the last place have their sizes in one measure. -/
theorem exists_measure (x : Binary64) (g : Int) : ∃ c : ℚ, 0 < c ∧
    (x.gridSize g : ℚ) = 10 ^ g * c ∧ (x.unitSize g : ℚ) = 2 ^ (x.scale - 2) * c := by
  refine ⟨10 ^ (-g).toNat * 2 ^ (2 - x.scale).toNat, by positivity, ?_, ?_⟩
  · simp only [gridSize, Nat.pow_eq]
    push_cast
    rw [pow_toNat_eq (by norm_num) g, mul_assoc]
  · simp only [unitSize, Nat.pow_eq]
    push_cast
    rw [pow_toNat_eq (by norm_num) (x.scale - 2), neg_sub]
    ring

/-- A quarter of the last place. -/
theorem quarter_mul (x : Binary64) (k : ℚ) : 4 * k * 2 ^ (x.scale - 2) = k * 2 ^ x.scale := by
  rw [zpow_sub₀ (by norm_num)]
  ring

/-- A step of a grid identifies a number exactly if it is rounded to it. -/
theorem identifies_iff (hx : x.significand ≠ 0) :
    x.identifies g n = true ↔ x.Attracts (n * 10 ^ g) := by
  obtain ⟨c, hc, hgrid, hunit⟩ := exists_measure x g
  have hstep : ((n * x.gridSize g : Nat) : ℚ) = n * 10 ^ g * c := by
    rw [Nat.cast_mul, hgrid, mul_assoc]
  have hlower : (((4 * x.significand - if x.narrowBelow then 1 else 2) * x.unitSize g : Nat) : ℚ) =
      x.lower * c := by
    have hcast : ((4 * x.significand - if x.narrowBelow then 1 else 2 : Nat) : ℚ) =
        4 * (x.significand - if x.narrowBelow then 1 / 4 else 1 / 2) := by
      rw [Nat.cast_sub (by split <;> omega)]
      split <;> push_cast <;> ring
    rw [Nat.cast_mul, hcast, hunit, ← mul_assoc, quarter_mul, lower]
  have hupper : (((4 * x.significand + 2) * x.unitSize g : Nat) : ℚ) = x.upper * c := by
    have hcast : ((4 * x.significand + 2 : Nat) : ℚ) = 4 * (x.significand + 1 / 2) := by
      push_cast
      ring
    rw [Nat.cast_mul, hcast, hunit, ← mul_assoc, quarter_mul, upper]
  have hle {a b : Nat} {v w : ℚ} (ha : (a : ℚ) = v * c) (hb : (b : ℚ) = w * c) :
      a ≤ b ↔ v ≤ w := by
    rw [← Nat.cast_le (α := ℚ), ha, hb, mul_le_mul_iff_left₀ hc]
  have hlt {a b : Nat} {v w : ℚ} (ha : (a : ℚ) = v * c) (hb : (b : ℚ) = w * c) :
      a < b ↔ v < w := by
    rw [← Nat.cast_lt (α := ℚ), ha, hb, mul_lt_mul_iff_left₀ hc]
  rw [identifies]
  by_cases heven : x.significand % 2 = 0
  · simp only [if_pos heven, Bool.and_eq_true, decide_eq_true_eq]
    rw [hle hlower hstep, hle hstep hupper, ← UpTo.iff_le_of heven, ← UpTo.iff_le_of heven]
    exact ⟨fun h => ⟨h.1, h.2⟩, fun h => ⟨h.above, h.below⟩⟩
  · simp only [if_neg heven, Bool.and_eq_true, decide_eq_true_eq]
    rw [hlt hlower hstep, hlt hstep hupper, ← UpTo.iff_lt_of_not heven,
      ← UpTo.iff_lt_of_not heven]
    exact ⟨fun h => ⟨h.1, h.2⟩, fun h => ⟨h.above, h.below⟩⟩

/-! ### The neighbours -/

/-- The greatest step of a grid that is not above a number. -/
def stepBelow (x : Binary64) (g : Int) : Nat :=
  4 * x.significand * x.unitSize g / x.gridSize g

/-- A number in quarters of its last place, and its distances to its neighbours on the grid, in the
common measure. -/
theorem exists_distances (x : Binary64) (g : Int) : ∃ c : ℚ, 0 < c ∧
    ((4 * x.significand * x.unitSize g - x.stepBelow g * x.gridSize g : Nat) : ℚ) =
      (x.magnitude - x.stepBelow g * 10 ^ g) * c ∧
    (((x.stepBelow g + 1) * x.gridSize g - 4 * x.significand * x.unitSize g : Nat) : ℚ) =
      ((x.stepBelow g + 1) * 10 ^ g - x.magnitude) * c := by
  obtain ⟨c, hc, hgrid, hunit⟩ := exists_measure x g
  have hpos : 0 < x.gridSize g := Nat.mul_pos (Nat.pow_pos (by decide)) (Nat.pow_pos (by decide))
  have hvalue : ((4 * x.significand * x.unitSize g : Nat) : ℚ) = x.magnitude * c := by
    push_cast
    rw [hunit, ← mul_assoc, quarter_mul, magnitude]
  have hbelow : x.stepBelow g * x.gridSize g ≤ 4 * x.significand * x.unitSize g :=
    Nat.div_mul_le_self _ _
  have habove : 4 * x.significand * x.unitSize g ≤ (x.stepBelow g + 1) * x.gridSize g :=
    (Nat.lt_mul_of_div_lt (Nat.lt_succ_self _) hpos).le
  refine ⟨c, hc, ?_, ?_⟩
  · rw [Nat.cast_sub hbelow, hvalue, Nat.cast_mul, hgrid]
    ring
  · rw [Nat.cast_sub habove, hvalue, Nat.cast_mul, hgrid]
    push_cast
    ring

/-- A number lies between its neighbours on a grid. -/
theorem stepBelow_bounds (x : Binary64) (g : Int) :
    (x.stepBelow g : ℚ) * 10 ^ g ≤ x.magnitude ∧
      x.magnitude < (x.stepBelow g + 1 : Nat) * 10 ^ g := by
  obtain ⟨c, hc, hlow, hhigh⟩ := exists_distances x g
  have hpos : 0 < x.gridSize g := Nat.mul_pos (Nat.pow_pos (by decide)) (Nat.pow_pos (by decide))
  have hless : 0 < (x.stepBelow g + 1) * x.gridSize g - 4 * x.significand * x.unitSize g :=
    Nat.sub_pos_of_lt (Nat.lt_mul_of_div_lt (Nat.lt_succ_self _) hpos)
  constructor
  · have hcast : (0 : ℚ) ≤ (x.magnitude - x.stepBelow g * 10 ^ g) * c := by
      rw [← hlow]
      exact Nat.cast_nonneg _
    exact sub_nonneg.mp (nonneg_of_mul_nonneg_left hcast hc)
  · have hcast : (0 : ℚ) < ((x.stepBelow g + 1) * 10 ^ g - x.magnitude) * c := by
      rw [← hhigh]
      exact Nat.cast_pos.mpr hless
    push_cast
    exact sub_pos.mp (pos_of_mul_pos_left hcast hc.le)

/-- A magnitude comes before another one: it is nearer to a number, or as near and, if halves go up,
at least as great. -/
def Prefers (tie : Tie) (x : Binary64) (v w : ℚ) : Prop :=
  |v - x.magnitude| < |w - x.magnitude| ∨
    |v - x.magnitude| = |w - x.magnitude| ∧ (tie = .up → w ≤ v)

theorem Prefers.trans {u v w : ℚ} (huv : Prefers tie x u v) (hvw : Prefers tie x v w) :
    Prefers tie x u w := by
  rcases huv with huv | ⟨huv, hle⟩
  · exact .inl (huv.trans_le (hvw.elim le_of_lt fun h => h.1.le))
  · rcases hvw with hvw | ⟨hvw, hle'⟩
    · exact .inl (huv.trans_lt hvw)
    · exact .inr ⟨huv.trans hvw, fun h => (hle' h).trans (hle h)⟩

theorem Prefers.of_le_of_le {v w : ℚ} (hw : w ≤ v) (hv : v ≤ x.magnitude) :
    Prefers tie x v w := by
  rw [Prefers, abs_of_nonpos (by linarith), abs_of_nonpos (by linarith)]
  rcases hw.lt_or_eq with h | rfl
  · exact .inl (by linarith)
  · exact .inr ⟨rfl, fun _ => le_rfl⟩

theorem Prefers.of_ge_of_ge {v w : ℚ} (hv : x.magnitude ≤ v) (hw : v ≤ w) :
    Prefers tie x v w := by
  rw [Prefers, abs_of_nonneg (by linarith), abs_of_nonneg (by linarith)]
  rcases hw.lt_or_eq with h | rfl
  · exact .inl (by linarith)
  · exact .inr ⟨rfl, fun _ => le_rfl⟩

/-- Beyond a neighbour that is rounded to a number, no step is rounded to it that is nearer. -/
theorem step_cases (hn : n ≠ 0) (h : x.Attracts (n * 10 ^ g)) :
    ((n : ℚ) * 10 ^ g ≤ x.stepBelow g * 10 ^ g ∧ x.stepBelow g ≠ 0 ∧
        x.Attracts (x.stepBelow g * 10 ^ g)) ∨
      ((x.stepBelow g + 1 : Nat) : ℚ) * 10 ^ g ≤ n * 10 ^ g ∧
        x.Attracts ((x.stepBelow g + 1 : Nat) * 10 ^ g) := by
  obtain ⟨hlow, hhigh⟩ := stepBelow_bounds x g
  rcases Nat.lt_or_ge (x.stepBelow g) n with hless | hge
  · right
    have hstep : ((x.stepBelow g + 1 : Nat) : ℚ) * 10 ^ g ≤ n * 10 ^ g := by
      gcongr
      exact hless
    exact ⟨hstep, x.attracts_magnitude.between h hhigh.le hstep⟩
  · left
    have hstep : (n : ℚ) * 10 ^ g ≤ x.stepBelow g * 10 ^ g := by
      gcongr
    exact ⟨hstep, by omega, h.between x.attracts_magnitude hstep hlow⟩

/-- A step of a grid that is rounded to a number, and of all such steps one that comes first. -/
structure IsNearest (tie : Tie) (x : Binary64) (g : Int) (d : Decimal) : Prop where
  exponent : d.exponent = g
  digits : d.digits ≠ 0
  attracts : x.Attracts d.value
  prefers : ∀ n : Nat, n ≠ 0 → x.Attracts (n * 10 ^ g) → Prefers tie x d.value (n * 10 ^ g)

theorem isNearest_below (hne : x.stepBelow g ≠ 0) (h : x.Attracts (x.stepBelow g * 10 ^ g))
    (hprefers : x.Attracts ((x.stepBelow g + 1 : Nat) * 10 ^ g) →
      Prefers tie x (x.stepBelow g * 10 ^ g) ((x.stepBelow g + 1 : Nat) * 10 ^ g)) :
    IsNearest tie x g ⟨x.stepBelow g, g⟩ where
  exponent := rfl
  digits := hne
  attracts := h
  prefers n hn hattracts := by
    obtain ⟨hlow, hhigh⟩ := stepBelow_bounds x g
    rcases step_cases hn hattracts with ⟨hle, -⟩ | ⟨hge, habove⟩
    · exact .of_le_of_le hle hlow
    · exact (hprefers habove).trans (.of_ge_of_ge hhigh.le hge)

theorem isNearest_above (h : x.Attracts ((x.stepBelow g + 1 : Nat) * 10 ^ g))
    (hprefers : x.stepBelow g ≠ 0 → x.Attracts (x.stepBelow g * 10 ^ g) →
      Prefers tie x ((x.stepBelow g + 1 : Nat) * 10 ^ g) (x.stepBelow g * 10 ^ g)) :
    IsNearest tie x g ⟨x.stepBelow g + 1, g⟩ where
  exponent := rfl
  digits := Nat.succ_ne_zero _
  attracts := h
  prefers n hn hattracts := by
    obtain ⟨hlow, hhigh⟩ := stepBelow_bounds x g
    rcases step_cases hn hattracts with ⟨hle, hne, hbelow⟩ | ⟨hge, -⟩
    · exact (hprefers hne hbelow).trans (.of_le_of_le hle hlow)
    · exact .of_ge_of_ge hhigh.le hge

/-- Which neighbour comes first, by the distances in the common measure. -/
theorem prefers_of_distances (tie : Tie) (x : Binary64) (g : Int) :
    let low := 4 * x.significand * x.unitSize g - x.stepBelow g * x.gridSize g
    let high := (x.stepBelow g + 1) * x.gridSize g - 4 * x.significand * x.unitSize g
    (high < low ∨ high = low →
      Prefers tie x ((x.stepBelow g + 1 : Nat) * 10 ^ g) (x.stepBelow g * 10 ^ g)) ∧
    (low < high ∨ low = high ∧ tie ≠ .up →
      Prefers tie x (x.stepBelow g * 10 ^ g) ((x.stepBelow g + 1 : Nat) * 10 ^ g)) := by
  intro low high
  obtain ⟨c, hc, hlow, hhigh⟩ := exists_distances x g
  obtain ⟨hbelow, habove⟩ := stepBelow_bounds x g
  have hlowAbs : |(x.stepBelow g : ℚ) * 10 ^ g - x.magnitude| * c = low := by
    rw [abs_of_nonpos (by linarith), neg_sub, hlow]
  have hhighAbs : |((x.stepBelow g + 1 : Nat) : ℚ) * 10 ^ g - x.magnitude| * c = high := by
    rw [abs_of_nonneg (by linarith), hhigh]
    push_cast
    rfl
  have hless : high < low ↔ |((x.stepBelow g + 1 : Nat) : ℚ) * 10 ^ g - x.magnitude| <
      |(x.stepBelow g : ℚ) * 10 ^ g - x.magnitude| := by
    rw [← Nat.cast_lt (α := ℚ), ← hlowAbs, ← hhighAbs, mul_lt_mul_iff_left₀ hc]
  have hmore : low < high ↔ |(x.stepBelow g : ℚ) * 10 ^ g - x.magnitude| <
      |((x.stepBelow g + 1 : Nat) : ℚ) * 10 ^ g - x.magnitude| := by
    rw [← Nat.cast_lt (α := ℚ), ← hlowAbs, ← hhighAbs, mul_lt_mul_iff_left₀ hc]
  have hsame : high = low ↔ |((x.stepBelow g + 1 : Nat) : ℚ) * 10 ^ g - x.magnitude| =
      |(x.stepBelow g : ℚ) * 10 ^ g - x.magnitude| := by
    rw [← Nat.cast_inj (R := ℚ), ← hlowAbs, ← hhighAbs, mul_left_inj' hc.ne']
  have horder : (x.stepBelow g : ℚ) * 10 ^ g ≤ ((x.stepBelow g + 1 : Nat) : ℚ) * 10 ^ g :=
    hbelow.trans habove.le
  constructor
  · rintro (h | h)
    · exact .inl (hless.mp h)
    · exact .inr ⟨hsame.mp h, fun _ => horder⟩
  · rintro (h | ⟨h, htie⟩)
    · exact .inl (hmore.mp h)
    · exact .inr ⟨(hsame.mp h.symm).symm, fun hup => absurd hup htie⟩

/-- On a grid the step is found that is rounded to a number and comes first, if there is one. -/
theorem onGrid_cases (hx : x.significand ≠ 0) (tie : Tie) (g : Int) :
    (x.onGrid tie g = none ∧ ∀ n : Nat, n ≠ 0 → ¬x.Attracts (n * 10 ^ g)) ∨
      ∃ d, x.onGrid tie g = some d ∧ IsNearest tie x g d := by
  have hbelow : (x.identifies g (x.stepBelow g) && x.stepBelow g != 0) = true ↔
      x.Attracts (x.stepBelow g * 10 ^ g) ∧ x.stepBelow g ≠ 0 := by
    rw [Bool.and_eq_true, identifies_iff hx, bne_iff_ne]
  have habove : x.identifies g (x.stepBelow g + 1) = true ↔
      x.Attracts ((x.stepBelow g + 1 : Nat) * 10 ^ g) := identifies_iff hx
  have hstep : 4 * x.significand * x.unitSize g / x.gridSize g = x.stepBelow g := rfl
  simp only [onGrid, hstep]
  split
  · rename_i hnotBelow hnotAbove
    refine .inl ⟨rfl, fun n hn hattracts => ?_⟩
    rcases step_cases hn hattracts with ⟨-, hne, h⟩ | ⟨-, h⟩
    · rw [hbelow.mpr ⟨h, hne⟩] at hnotBelow
      cases hnotBelow
    · rw [habove.mpr h] at hnotAbove
      cases hnotAbove
  · rename_i hisBelow hnotAbove
    obtain ⟨h, hne⟩ := hbelow.mp hisBelow
    refine .inr ⟨_, rfl, isNearest_below hne h fun h => ?_⟩
    rw [habove.mpr h] at hnotAbove
    cases hnotAbove
  · rename_i hnotBelow hisAbove
    refine .inr ⟨_, rfl, isNearest_above (habove.mp hisAbove) fun hne h => ?_⟩
    rw [hbelow.mpr ⟨h, hne⟩] at hnotBelow
    cases hnotBelow
  · rename_i hisBelow hisAbove
    obtain ⟨h, hne⟩ := hbelow.mp hisBelow
    obtain ⟨hup, hdown⟩ := prefers_of_distances tie x g
    refine .inr ⟨_, rfl, ?_⟩
    split
    · rename_i htake
      refine isNearest_above (habove.mp hisAbove) fun _ _ => hup ?_
      simp only [Bool.or_eq_true, Bool.and_eq_true, decide_eq_true_eq, beq_iff_eq] at htake
      exact htake.imp_right And.left
    · rename_i htake
      refine isNearest_below hne h fun _ => hdown ?_
      simp only [Bool.or_eq_true, Bool.and_eq_true, decide_eq_true_eq, beq_iff_eq, not_or,
        not_and] at htake
      obtain ⟨hge, htie⟩ := htake
      rcases Nat.lt_or_eq_of_le (not_lt.mp hge) with hless | hsame
      · exact .inl hless
      · exact .inr ⟨hsame, (htie hsame.symm).1⟩

end Scriptorium.Binary64
