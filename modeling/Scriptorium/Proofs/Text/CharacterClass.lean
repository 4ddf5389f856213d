/-
How the classes of characters lie to each other: no blank belongs to a word, every ASCII letter or
digit does, and what starts a name may also stand in one.

The tables above ASCII are compared range by range; inside ASCII the classes are intervals.
-/

import Scriptorium.Text.Blank
import Scriptorium.Text.NamePart
import Scriptorium.Text.Numeric
import Mathlib.Data.List.TakeWhile

namespace Scriptorium.Text

/-! ### Intervals inside ASCII -/

theorem isDigit_iff {c : Char} : c.isDigit = true ↔ 0x30 ≤ c.toNat ∧ c.toNat ≤ 0x39 :=
  Char.isDigit_iff_toNat

theorem isAlpha_iff {c : Char} :
    c.isAlpha = true ↔
      (0x41 ≤ c.toNat ∧ c.toNat ≤ 0x5A) ∨ (0x61 ≤ c.toNat ∧ c.toNat ≤ 0x7A) := by
  have hcases : c.isAlpha = (decide ('A'.val ≤ c.val ∧ c.val ≤ 'Z'.val) ||
      (decide ('a'.val ≤ c.val) && decide (c.val ≤ 'z'.val))) := rfl
  rw [hcases]
  simp only [Bool.or_eq_true, Bool.and_eq_true, decide_eq_true_eq, UInt32.le_iff_toNat_le]
  exact Iff.rfl

theorem isAlphanum_iff {c : Char} :
    c.isAlphanum = true ↔ c.isAlpha = true ∨ c.isDigit = true := by
  simp [Char.isAlphanum]

theorem toNat_lt_of_isAlphanum {c : Char} (h : c.isAlphanum = true) : c.toNat < 0x80 := by
  rw [isAlphanum_iff, isAlpha_iff, isDigit_iff] at h
  omega

theorem isWordChar_of_isAlphanum {c : Char} (h : c.isAlphanum = true) : isWordChar c = true := by
  simp [isWordChar, isAlphanumeric_of_ascii (toNat_lt_of_isAlphanum h), h]

theorem isWordChar_of_isDigit {c : Char} (h : c.isDigit = true) : isWordChar c = true :=
  isWordChar_of_isAlphanum (isAlphanum_iff.mpr (Or.inr h))

theorem isWordChar_of_isAlpha {c : Char} (h : c.isAlpha = true) : isWordChar c = true :=
  isWordChar_of_isAlphanum (isAlphanum_iff.mpr (Or.inl h))

/-- An ASCII digit is no letter. -/
theorem isLetter_eq_false_of_isDigit {c : Char} (h : c.isDigit = true) : isLetter c = false := by
  rw [isLetter_of_ascii (toNat_lt_of_isAlphanum (isAlphanum_iff.mpr (Or.inr h))),
    Bool.eq_false_iff]
  intro halpha
  rw [isDigit_iff] at h
  rw [isAlpha_iff] at halpha
  omega

/-! ### Tables -/

/-- Whether no code point lies in ranges of both tables. -/
def apart (a b : List (Nat × Nat)) : Bool :=
  a.all fun r => b.all fun q => decide (r.2 < q.1) || decide (q.2 < r.1)

theorem inRanges_eq_false_of_apart {a b : List (Nat × Nat)} {n : Nat} (h : apart a b = true)
    (hn : inRanges a n = true) : inRanges b n = false := by
  obtain ⟨r, hr, hlow, hhigh⟩ := inRanges_iff.mp hn
  rw [Bool.eq_false_iff]
  intro hb
  obtain ⟨q, hq, hqlow, hqhigh⟩ := inRanges_iff.mp hb
  have := List.all_eq_true.mp (List.all_eq_true.mp h r hr) q hq
  simp only [Bool.or_eq_true, decide_eq_true_eq] at this
  omega

theorem apart_blank_alphabetic : apart blankRanges alphabeticRanges = true := by decide +kernel

theorem apart_blank_numeric : apart blankRanges numericRanges = true := by decide +kernel

/-- Whether a range lies inside another. -/
def inside (q r : Nat × Nat) : Bool :=
  decide (q.1 ≤ r.1) && decide (r.2 ≤ q.2)

/-- Whether the ranges of one ascending table lie in those of another. -/
def within (a : List (Nat × Nat)) : List (Nat × Nat) → Bool
  | [] => a.isEmpty
  | q :: b => within (a.dropWhile (inside q)) b

theorem inRanges_of_within {a b : List (Nat × Nat)} {n : Nat} (h : within a b = true)
    (hn : inRanges a n = true) : inRanges b n = true := by
  induction b generalizing a with
  | nil =>
    rw [within, List.isEmpty_iff] at h
    subst h
    exact hn
  | cons q b ih =>
    obtain ⟨r, hr, hlow, hhigh⟩ := inRanges_iff.mp hn
    rw [← List.takeWhile_append_dropWhile (p := inside q) (l := a), List.mem_append] at hr
    rcases hr with hr | hr
    · have hinside := List.mem_takeWhile_imp hr
      simp only [inside, Bool.and_eq_true, decide_eq_true_eq] at hinside
      exact inRanges_iff.mpr ⟨q, List.mem_cons_self, by omega⟩
    · obtain ⟨q', hq', hlies⟩ := inRanges_iff.mp (ih h (inRanges_iff.mpr ⟨r, hr, hlow, hhigh⟩))
      exact inRanges_iff.mpr ⟨q', List.mem_cons_of_mem _ hq', hlies⟩

theorem within_nameStart_namePart : within nameStartRanges namePartRanges = true := by
  decide +kernel

/-! ### Names -/

/-- What starts a name may stand in one. -/
theorem isNamePart_of_isNameStart {c : Char} (h : isNameStart c = true) : isNamePart c = true := by
  rw [isNameStart] at h
  rw [isNamePart]
  by_cases hascii : c.toNat < 0x80
  · rw [if_pos hascii] at h ⊢
    rw [Char.isAlphanum, Bool.or_right_comm, h, Bool.true_or]
  · rw [if_neg hascii] at h ⊢
    exact inRanges_of_within within_nameStart_namePart h

/-! ### Blanks -/

theorem isAlphanum_eq_false_of_isBlank {c : Char} (h : isBlank c = true) :
    c.isAlphanum = false := by
  obtain ⟨r, hr, hlow, hhigh⟩ := inRanges_iff.mp h
  rw [Bool.eq_false_iff]
  intro halnum
  rw [isAlphanum_iff, isAlpha_iff, isDigit_iff] at halnum
  simp only [blankRanges, List.mem_cons, List.not_mem_nil, or_false] at hr
  rcases hr with rfl | rfl | rfl | rfl | rfl | rfl | rfl | rfl | rfl | rfl <;>
    simp only at hlow hhigh <;> omega

/-- No blank belongs to a word. -/
theorem isWordChar_eq_false_of_isBlank {c : Char} (h : isBlank c = true) :
    isWordChar c = false := by
  have halnum := isAlphanum_eq_false_of_isBlank h
  have hne : (c == '_') = false := by
    rw [beq_eq_false_iff_ne]
    rintro rfl
    exact absurd h (by decide)
  simp only [isWordChar, hne, Bool.or_false]
  by_cases hascii : c.toNat < 0x80
  · rw [isAlphanumeric_of_ascii hascii, halnum]
  · have hletter := inRanges_eq_false_of_apart apart_blank_alphabetic h
    have hnumber := inRanges_eq_false_of_apart apart_blank_numeric h
    simp [isAlphanumeric, isLetter, isNumeric, hascii, hletter, hnumber]

end Scriptorium.Text
