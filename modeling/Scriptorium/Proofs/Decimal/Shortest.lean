/-
The shortest decimal of a floating-point number.

The grids are tried from a power of ten above the number on (`ceiling_bounds`), and one of the first
twenty has a step that is rounded to the number (`exists_step`, `last_grid`). So the decimal that is
found lies on the coarsest grid that has such a step (`isCoarsest_shortest`). Therefore it has the
fewest digits of all decimals that are rounded to the number (`IsCoarsest.width_le`), and of those
with as few digits it is the nearest (`IsCoarsest.prefers`).
-/

import Scriptorium.Proofs.Decimal.Grid

namespace Scriptorium

namespace Decimal

variable {d e : Decimal}

/-! ### Digits -/

/-- The number of digits of a decimal. -/
def width (d : Decimal) : Nat :=
  (Nat.toDigits 10 d.digits).length

theorem width_pos (d : Decimal) : 0 < d.width :=
  List.length_pos_iff.mpr Nat.toDigits_ne_nil

theorem leading_eq (d : Decimal) : d.leading = d.exponent + d.width - 1 := rfl

/-- A decimal that reaches the leading place of another one has a leading place as great. -/
theorem leading_le_of_le (h : e.digits ≠ 0) (hle : (10 : ℚ) ^ d.leading ≤ e.value) :
    d.leading ≤ e.leading := by
  have hlt := hle.trans_lt (value_bounds h).2
  have := (zpow_lt_zpow_iff_right₀ (by norm_num)).mp hlt
  omega

theorem ten_zpow_eq (g : Int) : (10 : ℚ) ^ g = 10 * 10 ^ (g - 1) := by
  rw [← zpow_one_add₀ (by norm_num)]
  congr 1
  omega

/-- One digit on a finer grid is at most nine steps of the next grid. -/
theorem value_le_of_width_le_one {g : Int} (hwidth : e.width ≤ 1) (hfiner : e.exponent < g) :
    e.value ≤ 9 * 10 ^ (g - 1) := by
  have hdigit : e.digits < 10 := by
    simpa using (Nat.length_toDigits_le_iff (by decide) (by decide)).mp hwidth
  have hcast : (e.digits : ℚ) ≤ 9 := by exact_mod_cast Nat.le_of_lt_succ hdigit
  exact mul_le_mul hcast (zpow_le_zpow_right₀ (by norm_num) (by omega)) (by positivity)
    (by norm_num)

end Decimal

namespace Binary64

variable {x : Binary64} {tie : Tie} {d e : Decimal}

/-! ### The first grid -/

/-- Powers of two bases compare as whole numbers do. -/
theorem zpow_le_zpow_iff_nat {a b : Nat} (ha : a ≠ 0) (hb : b ≠ 0) (m n : Int) :
    (a : ℚ) ^ m ≤ (b : ℚ) ^ n ↔
      Nat.pow a m.toNat * Nat.pow b (-n).toNat ≤ Nat.pow b n.toNat * Nat.pow a (-m).toNat := by
  have ha : (a : ℚ) ≠ 0 := Nat.cast_ne_zero.mpr ha
  have hb : (b : ℚ) ≠ 0 := Nat.cast_ne_zero.mpr hb
  have hpos : (0 : ℚ) < (a : ℚ) ^ (-m).toNat * (b : ℚ) ^ (-n).toNat := by positivity
  rw [← Nat.cast_le (α := ℚ)]
  simp only [Nat.pow_eq]
  push_cast
  rw [pow_toNat_eq ha m, pow_toNat_eq hb n, ← mul_le_mul_iff_left₀ hpos]
  ring_nf

/-- The number of powers of ten for a power of two, by a ratio of the logarithms. -/
def powersOfTen (b : Int) : Int :=
  b * 30103 / 100000

/-- The ratio is close enough for all powers of two in the range. -/
theorem powersOfTen_bounds : ∀ i < (2098 : Nat),
    Nat.pow 2 ((i : Int) - 1073).toNat * Nat.pow 10 (-(powersOfTen (i - 1073) + 1)).toNat ≤
        Nat.pow 10 (powersOfTen (i - 1073) + 1).toNat * Nat.pow 2 (-((i : Int) - 1073)).toNat ∧
      Nat.pow 10 (powersOfTen (i - 1073)).toNat * Nat.pow 2 (-((i : Int) - 1073 + 1)).toNat ≤
        Nat.pow 2 ((i : Int) - 1073 + 1).toNat * Nat.pow 10 (-powersOfTen (i - 1073)).toNat := by
  decide +kernel

/-- The first grid is above the number, but not by far. -/
theorem ceiling_bounds (h : x.isFinite = true) (hx : x.significand ≠ 0) :
    x.magnitude < 10 ^ x.ceiling ∧ (10 : ℚ) ^ (x.ceiling - 1) ≤ 4 * x.magnitude := by
  obtain ⟨hlow, hhigh⟩ := Decimal.two_zpow_log2 (Nat.pos_of_ne_zero hx)
  set b : Int := (x.significand.log2 : Int) + x.scale + 1 with hb
  have hceiling : x.ceiling = powersOfTen b + 1 := rfl
  have hrange : -1073 ≤ b ∧ b ≤ 1024 := by
    have := isFinite_iff.mp h
    have hlog : x.significand.log2 < 53 := (Nat.log2_lt hx).mpr x.significand_lt
    have hscale := x.scale_eq
    unfold steps at hscale
    omega
  obtain ⟨hup, hdown⟩ := powersOfTen_bounds (b + 1073).toNat (by omega)
  have hindex : (((b + 1073).toNat : Nat) : Int) - 1073 = b := by omega
  simp only [hindex] at hup hdown
  rw [← zpow_le_zpow_iff_nat (by decide) (by decide)] at hup hdown
  push_cast at hup hdown
  rw [hceiling]
  constructor
  · refine lt_of_lt_of_le ?_ hup
    calc x.magnitude < 2 ^ ((x.significand.log2 : Int) + 1) * 2 ^ x.scale := by
          unfold magnitude
          gcongr
      _ = 2 ^ b := by
        rw [← two_zpow_add]
        congr 1
        omega
  · rw [add_sub_cancel_right]
    refine hdown.trans ?_
    calc (2 : ℚ) ^ (b + 1) = 4 * (2 ^ (x.significand.log2 : Int) * 2 ^ x.scale) := by
          rw [← two_zpow_add, show (4 : ℚ) = 2 ^ (2 : Int) by norm_num, ← two_zpow_add]
          congr 1
          omega
      _ ≤ 4 * x.magnitude := by
        unfold magnitude
        gcongr

/-! ### The coarsest grid -/

/-- A decimal that is rounded to a number, on the coarsest grid with such a decimal, and of those on
that grid the one that comes first. -/
structure IsCoarsest (tie : Tie) (x : Binary64) (d : Decimal) : Prop where
  isNearest : IsNearest tie x d.exponent d
  finer : ∀ e : Decimal, e.digits ≠ 0 → x.Attracts e.value → e.exponent ≤ d.exponent

theorem value_one (g : Int) : Decimal.value ⟨1, g⟩ = 10 ^ g := by
  rw [Decimal.value, Nat.cast_one, one_mul]

/-- A decimal below the leading place of one on the coarsest grid leaves a power of ten between
them, so that the place is that of the grid. -/
theorem IsCoarsest.leading_le (h : IsCoarsest tie x d) (he : x.Attracts e.value)
    (hless : e.value < 10 ^ d.leading) :
    d.leading ≤ d.exponent ∧ x.Attracts (10 ^ d.leading) := by
  have hbounds := Decimal.value_bounds h.isNearest.digits
  have hpower : x.Attracts (10 ^ d.leading) :=
    he.between h.isNearest.attracts hless.le hbounds.1
  refine ⟨h.finer ⟨1, d.leading⟩ Nat.one_ne_zero ?_, hpower⟩
  rwa [value_one]

/-- No decimal that is rounded to a number has fewer digits than one on the coarsest grid. -/
theorem IsCoarsest.width_le (h : IsCoarsest tie x d) (hdigits : e.digits ≠ 0)
    (he : x.Attracts e.value) : d.width ≤ e.width := by
  have hwidth := e.width_pos
  rcases lt_or_ge e.value (10 ^ d.leading) with hless | hge
  · have := (h.leading_le he hless).1
    have := d.leading_eq
    omega
  · have := Decimal.leading_le_of_le hdigits hge
    have := h.finer e hdigits he
    have := d.leading_eq
    have := e.leading_eq
    omega

/-! ### The nearest decimal -/

theorem ten_zpow_bounds : 101 / 50 * 2 ^ (-1074 : Int) < (10 : ℚ) ^ (-323 : Int) ∧
    (10 : ℚ) ^ (-323 : Int) < 203 / 100 * 2 ^ (-1074 : Int) := by
  have htwo : (2 : ℚ) ^ (-1074 : Int) = 1 / 2 ^ 1074 := by
    rw [one_div, ← zpow_natCast, ← zpow_neg]
    rfl
  have hten : (10 : ℚ) ^ (-323 : Int) = 1 / 10 ^ 323 := by
    rw [one_div, ← zpow_natCast, ← zpow_neg]
    rfl
  have hlow : 101 * 10 ^ 323 < 50 * 2 ^ 1074 := by decide +kernel
  have hhigh : 100 * 2 ^ 1074 < 203 * 10 ^ 323 := by decide +kernel
  rw [htwo, hten, div_mul_div_comm, div_mul_div_comm,
    div_lt_div_iff₀ (by positivity) (by positivity),
    div_lt_div_iff₀ (by positivity) (by positivity)]
  constructor
  · exact_mod_cast (by omega : 101 * 1 * 10 ^ 323 < 1 * (50 * 2 ^ 1074))
  · exact_mod_cast (by omega : 1 * (100 * 2 ^ 1074) < 203 * 1 * 10 ^ 323)

/-- The interval is no wider than the last place. -/
theorem upper_le_lower_add (x : Binary64) : x.upper ≤ x.lower + 2 ^ x.scale := by
  unfold upper lower
  rw [← add_one_mul]
  refine mul_le_mul_of_nonneg_right ?_ (by positivity)
  split <;> linarith

/-- Only next to twice the smallest step a power of ten above a number is attracted together with a
decimal of one digit on a finer grid. -/
theorem magnitude_eq_of_gap {g : Int} (hx : x.significand ≠ 0)
    (hpower : x.Attracts (10 ^ g)) (hless : x.magnitude < 10 ^ g)
    (hgap : (10 : ℚ) ^ (g - 1) ≤ 2 ^ x.scale) :
    g = -323 ∧ x.magnitude = 2 * 2 ^ (-1074 : Int) := by
  obtain ⟨hlow, hhigh⟩ := ten_zpow_bounds
  have hunit : (0 : ℚ) < 2 ^ x.scale := by positivity
  have hten := Decimal.ten_zpow_eq g
  have hsmall : x.significand < 10 := by
    have hcast : (x.significand : ℚ) * 2 ^ x.scale < 10 * 2 ^ x.scale :=
      hless.trans_le (by linarith)
    exact_mod_cast lt_of_mul_lt_mul_right hcast hunit.le
  have hscale : x.scale = -1074 := by
    have := x.steps_eq_zero_or
    have := x.scale_eq
    omega
  have hupper := hpower.below.le
  unfold magnitude at hless ⊢
  unfold upper at hupper
  rw [hscale] at hless hupper hgap hunit ⊢
  set u : ℚ := 2 ^ (-1074 : Int)
  have hone : (1 : ℚ) ≤ x.significand := Nat.one_le_cast.mpr (Nat.pos_of_ne_zero hx)
  have hbelow : g < -322 := by
    by_contra hge
    have hpow : (10 : ℚ) ^ (-323 : Int) ≤ 10 ^ (g - 1) :=
      zpow_le_zpow_right₀ (by norm_num) (by omega)
    linarith
  have habove : -324 < g := by
    by_contra hle
    have hpow : 10 * (10 : ℚ) ^ g ≤ 10 ^ (-323 : Int) := by
      rw [← zpow_one_add₀ (by norm_num)]
      exact zpow_le_zpow_right₀ (by norm_num) (by omega)
    have hleast : u ≤ x.significand * u := le_mul_of_one_le_left hunit.le hone
    linarith
  have hg : g = -323 := by omega
  subst hg
  have hatMost : x.significand < 3 := by
    have hcast : (x.significand : ℚ) * u < 3 * u := by linarith
    exact_mod_cast lt_of_mul_lt_mul_right hcast hunit.le
  have hatLeast : 1 < x.significand := by
    have hcast : (3 / 2 : ℚ) * u < (x.significand + 1 / 2) * u := by linarith
    have := lt_of_mul_lt_mul_right hcast hunit.le
    exact_mod_cast (by linarith : (1 : ℚ) < x.significand)
  have htwo : x.significand = 2 := by omega
  exact ⟨rfl, by rw [htwo]; norm_num⟩

/-- A power of ten comes before a decimal of one digit on a finer grid. -/
theorem prefers_power {g : Int} (hx : x.significand ≠ 0) (hpower : x.Attracts (10 ^ g))
    (he : x.Attracts e.value) (hwidth : e.width ≤ 1) (hfiner : e.exponent < g) :
    Prefers tie x (10 ^ g) e.value := by
  have hnine := Decimal.value_le_of_width_le_one hwidth hfiner
  have hten := Decimal.ten_zpow_eq g
  have hstep : (0 : ℚ) < 10 ^ (g - 1) := by positivity
  rcases le_or_gt ((10 : ℚ) ^ g) x.magnitude with hbelow | habove
  · exact .of_le_of_le (by linarith) hbelow
  have hgap : (10 : ℚ) ^ (g - 1) ≤ 2 ^ x.scale := by
    have := hpower.below.le
    have := he.above.le
    have := x.upper_le_lower_add
    linarith
  obtain ⟨rfl, hmagnitude⟩ := magnitude_eq_of_gap hx hpower habove hgap
  obtain ⟨hlow, hhigh⟩ := ten_zpow_bounds
  left
  rw [abs_of_nonneg (by linarith), abs_of_nonpos (by linarith)]
  linarith

/-- Of the decimals that are rounded to a number, one on the coarsest grid comes before all others
with as few digits. -/
theorem IsCoarsest.prefers (h : IsCoarsest tie x d) (hx : x.significand ≠ 0)
    (hdigits : e.digits ≠ 0) (he : x.Attracts e.value) (hwidth : e.width ≤ d.width) :
    Prefers tie x d.value e.value := by
  have hnearest := h.isNearest
  have hleading := d.leading_eq
  have hleading' := e.leading_eq
  rcases (h.finer e hdigits he).eq_or_lt with hsame | hexponent
  · have hvalue : e.value = e.digits * 10 ^ d.exponent := by rw [Decimal.value, hsame]
    rw [hvalue] at he ⊢
    exact hnearest.prefers e.digits hdigits he
  have hless : e.value < 10 ^ d.leading := by
    by_contra hge
    have := Decimal.leading_le_of_le hdigits (not_lt.mp hge)
    omega
  -- So both have one digit, and the step of the grid is a power of ten between them.
  obtain ⟨hone, hpower⟩ := h.leading_le he hless
  have hwidthPos := e.width_pos
  rw [show d.leading = d.exponent by omega] at hpower
  have hfirst := hnearest.prefers 1 Nat.one_ne_zero
  rw [Nat.cast_one, one_mul] at hfirst
  exact (hfirst hpower).trans (prefers_power hx hpower he (by omega) hexponent)

/-! ### The search -/

/-- A search from zero on ends at the first number that has an answer. -/
theorem findSome?_range {α : Type*} {f : Nat → Option α} {k n : Nat} {a : α} (hk : k < n)
    (h : f k = some a) (hnone : ∀ j < k, f j = none) : (List.range n).findSome? f = some a := by
  induction n with
  | zero => omega
  | succ n ih =>
    rw [List.range_succ, List.findSome?_append]
    rcases Nat.lt_succ_iff_lt_or_eq.mp hk with hless | rfl
    · rw [ih hless, Option.some_or]
    · have hbefore : (List.range k).findSome? f = none :=
        List.findSome?_eq_none_iff.mpr fun j hj => hnone j (List.mem_range.mp hj)
      rw [hbefore, Option.none_or, List.findSome?_singleton, h]

/-- A grid whose step is at most a quarter of the last place has a step in the interval. -/
theorem exists_step {g : Int} (hx : x.significand ≠ 0) (hg : (10 : ℚ) ^ g ≤ 1 / 4 * 2 ^ x.scale) :
    ∃ n : Nat, n ≠ 0 ∧ x.Attracts (n * 10 ^ g) := by
  obtain ⟨hlow, hhigh⟩ := stepBelow_bounds x g
  have hleast := half_step_le_lower hx
  have hlower : x.lower ≤ x.magnitude - 1 / 4 * 2 ^ x.scale := by
    unfold lower magnitude
    rw [← sub_mul]
    gcongr
    split <;> norm_num
  have habove : x.lower < x.stepBelow g * 10 ^ g := by
    push_cast at hhigh
    linarith
  refine ⟨x.stepBelow g, ?_, .inl habove, .inl (hlow.trans_lt x.magnitude_lt_upper)⟩
  intro hzero
  rw [hzero, Nat.cast_zero, zero_mul] at habove
  have hpos : (0 : ℚ) < 1 / 2 * 2 ^ (-1074 : Int) := by positivity
  linarith

/-- The twentieth grid is fine enough. -/
theorem last_grid (h : x.isFinite = true) (hx : x.significand ≠ 0) :
    (10 : ℚ) ^ (x.ceiling - 19) ≤ 1 / 4 * 2 ^ x.scale := by
  have hlt : (x.significand : ℚ) ≤ 2 ^ 53 := by exact_mod_cast x.significand_lt.le
  have hceiling := (ceiling_bounds h hx).2
  have hsplit : (10 : ℚ) ^ (x.ceiling - 19) = 10 ^ (x.ceiling - 1) / 10 ^ 18 := by
    rw [show x.ceiling - 19 = x.ceiling - 1 - (18 : Nat) by omega, zpow_sub₀ (by norm_num),
      zpow_natCast]
  rw [hsplit, div_le_iff₀ (by positivity)]
  calc (10 : ℚ) ^ (x.ceiling - 1) ≤ 4 * (x.significand * 2 ^ x.scale) := hceiling
    _ ≤ 4 * (2 ^ 53 * 2 ^ x.scale) := by gcongr
    _ = 4 * 2 ^ 53 * 2 ^ x.scale := (mul_assoc _ _ _).symm
    _ ≤ 1 / 4 * 10 ^ 18 * 2 ^ x.scale := mul_le_mul_of_nonneg_right (by norm_num) (by positivity)
    _ = 1 / 4 * 2 ^ x.scale * 10 ^ 18 := by ring

/-- Above the first grid no decimal is rounded to the number. -/
theorem exponent_le_ceiling (h : x.isFinite = true) (hx : x.significand ≠ 0)
    (hdigits : e.digits ≠ 0) (he : x.Attracts e.value) : e.exponent ≤ x.ceiling := by
  by_contra hmore
  have hone : (1 : ℚ) ≤ x.significand := Nat.one_le_cast.mpr (Nat.pos_of_ne_zero hx)
  have hlower : (10 : ℚ) ^ e.exponent ≤ e.value := by
    refine (zpow_le_zpow_right₀ (by norm_num) ?_).trans (Decimal.value_bounds hdigits).1
    have := e.width_pos
    have := e.leading_eq
    omega
  have hupper : x.upper ≤ 2 * x.magnitude := by
    unfold upper magnitude
    rw [← mul_assoc]
    gcongr
    linarith
  have hpower : 10 * (10 : ℚ) ^ x.ceiling ≤ 10 ^ e.exponent := by
    rw [← zpow_one_add₀ (by norm_num)]
    exact zpow_le_zpow_right₀ (by norm_num) (by omega)
  have hceiling := (ceiling_bounds h hx).1
  have hbelow := he.below.le
  have hpos : (0 : ℚ) < 10 ^ x.ceiling := by positivity
  linarith

/-- On the coarsest grid with a step in the interval no step has a trailing zero. -/
theorem IsCoarsest.normalized_eq (h : IsCoarsest tie x d) : d.normalized = d := by
  have hplain : ¬(d.digits ≠ 0 ∧ d.digits % 10 = 0) := by
    rintro ⟨hdigits, hzero⟩
    have hvalue : Decimal.value ⟨d.digits / 10, d.exponent + 1⟩ = d.value := by
      have hcast : (d.digits : ℚ) = 10 * (d.digits / 10 : Nat) := by
        exact_mod_cast (Nat.mul_div_cancel' (Nat.dvd_of_mod_eq_zero hzero)).symm
      rw [Decimal.value, Decimal.value, hcast, zpow_add_one₀ (by norm_num)]
      ring
    have hcoarser := h.finer ⟨d.digits / 10, d.exponent + 1⟩ (by simp only; omega)
      (hvalue ▸ h.isNearest.attracts)
    simp only at hcoarser
    omega
  unfold Decimal.normalized
  cases d.digits.log2 with
  | zero => rfl
  | succ n => rw [Decimal.stripZeros, if_neg hplain]

/-- What is found is on the coarsest grid. -/
theorem isCoarsest_shortest (h : x.isFinite = true) (hx : x.significand ≠ 0) (tie : Tie) :
    IsCoarsest tie x (x.shortest tie) := by
  let HasStep (k : Nat) : Prop := ∃ n : Nat, n ≠ 0 ∧ x.Attracts (n * 10 ^ (x.ceiling - (k : Nat)))
  have hexists : ∃ k, HasStep k := ⟨19, exists_step hx (last_grid h hx)⟩
  classical
  set k := Nat.find hexists with hk
  have hlast : k ≤ 19 := Nat.find_min' hexists (exists_step hx (last_grid h hx))
  have hnone (j : Nat) (hj : j < k) : x.onGrid tie (x.ceiling - j) = none := by
    rcases onGrid_cases hx tie (x.ceiling - j) with ⟨hnone, -⟩ | ⟨d, -, hnearest⟩
    · exact hnone
    · refine absurd ⟨d.digits, hnearest.digits, ?_⟩ (Nat.find_min hexists hj)
      rw [← hnearest.exponent]
      exact hnearest.attracts
  rcases onGrid_cases hx tie (x.ceiling - k) with ⟨-, hnot⟩ | ⟨d, hsome, hnearest⟩
  · obtain ⟨n, hn, hattracts⟩ := Nat.find_spec hexists
    exact absurd hattracts (hnot n hn)
  have hcoarsest : IsCoarsest tie x d := by
    refine ⟨hnearest.exponent.symm ▸ hnearest, fun e hdigits he => ?_⟩
    have hceiling := exponent_le_ceiling h hx hdigits he
    obtain ⟨j, hj⟩ := Int.le.dest hceiling
    have hgrid : x.ceiling - j = e.exponent := by omega
    have hfirst : k ≤ j := Nat.find_min' hexists ⟨e.digits, hdigits, by rw [hgrid]; exact he⟩
    rw [hnearest.exponent]
    omega
  have hfound := findSome?_range (f := fun n : Nat => x.onGrid tie (x.ceiling - n))
    (Nat.lt_succ_of_le hlast) hsome hnone
  rw [shortest, if_neg hx, hfound]
  simp only [Option.getD_some, hcoarsest.normalized_eq]
  exact hcoarsest

/-! ### The shortest decimal -/

/-- A decimal that is rounded to a finite number, with the fewest digits of all that are, and of
those with as few digits the one that comes first. -/
structure IsShortest (tie : Tie) (x : Binary64) (d : Decimal) : Prop where
  readsBack : d.toBinary64 x.negative = x
  fewest : ∀ e : Decimal, e.toBinary64 x.negative = x → d.width ≤ e.width
  nearest : ∀ e : Decimal, e.toBinary64 x.negative = x → e.width ≤ d.width →
    Prefers tie x d.value e.value

/-- All shortest decimals of a number denote one number. -/
theorem IsShortest.sameNumber (hd : IsShortest .up x d) (he : IsShortest .up x e) :
    d.SameNumber e := by
  rw [Decimal.sameNumber_iff]
  have hde := hd.nearest e he.readsBack (he.fewest d hd.readsBack)
  have hed := he.nearest d hd.readsBack (hd.fewest e he.readsBack)
  rcases hde with hless | ⟨hsame, hle⟩
  · rcases hed with hless' | ⟨hsame, -⟩
    · exact absurd hless' (lt_asymm hless)
    · exact absurd hsame hless.ne'
  · rcases hed with hless | ⟨-, hge⟩
    · exact absurd hsame hless.ne'
    · exact le_antisymm (hge rfl) (hle rfl)

/-- **Shortest decimals.** For every finite number the decimal that is found is rounded to the
number, no decimal with fewer digits is, and none with as few digits is nearer. -/
theorem isShortest_shortest (h : x.isFinite = true) (tie : Tie) :
    IsShortest tie x (x.shortest tie) := by
  by_cases hx : x.significand = 0
  · have hshortest : x.shortest tie = ⟨0, 0⟩ := if_pos hx
    have hmagnitude : x.magnitude = 0 := by rw [magnitude, hx, Nat.cast_zero, zero_mul]
    rw [hshortest]
    refine ⟨(ofIndex_eq_iff h 0).mpr (index_eq_zero_iff.mpr hx).symm, fun e _ => e.width_pos,
      fun e _ _ => ?_⟩
    have hvalue : Decimal.value ⟨0, 0⟩ = x.magnitude :=
      (Decimal.value_eq_zero_iff.mpr rfl).trans hmagnitude.symm
    refine .of_ge_of_ge hvalue.ge ?_
    rw [hvalue, hmagnitude]
    exact e.value_nonneg
  · have hcoarsest := isCoarsest_shortest h hx tie
    refine ⟨(toBinary64_eq_iff h hx _).mpr hcoarsest.isNearest.attracts, fun e he => ?_,
      fun e he hwidth => ?_⟩
    · have hattracts := (toBinary64_eq_iff h hx e).mp he
      exact hcoarsest.width_le (hattracts.digits_ne_zero hx) hattracts
    · have hattracts := (toBinary64_eq_iff h hx e).mp he
      exact hcoarsest.prefers hx (hattracts.digits_ne_zero hx) hattracts hwidth

/-- What denotes the number of the shortest decimal is rounded as that is. -/
theorem toBinary64_of_sameNumber (h : x.isFinite = true) (hd : d.SameNumber (x.shortest tie)) :
    d.toBinary64 x.negative = x := by
  have hread := (isShortest_shortest h tie).readsBack
  rw [Decimal.sameNumber_iff] at hd
  by_cases hx : x.significand = 0
  · have hshortest : x.shortest tie = ⟨0, 0⟩ := if_pos hx
    have hdigits : d.digits = 0 := by
      rw [← Decimal.value_eq_zero_iff, hd, hshortest, Decimal.value_eq_zero_iff]
    rw [Decimal.toBinary64, if_pos hdigits, ofIndex_eq_iff h, index_eq_zero_iff.mpr hx]
  · rwa [toBinary64_eq_iff h hx, hd, ← toBinary64_eq_iff h hx]

end Binary64

end Scriptorium
