/-
The form of identifiers: a small ASCII letter or an underscore, and behind it small letters,
underscores and digits.

Lowering leaves no capital of ASCII, also where a letter of another script becomes one of ASCII
(`isUpper_eq_false_of_mem_lower`). Hence what sanitizing leaves is empty or has the form
(`isIdentifier_sanitizeChars`), and a text that has the form is left as it is
(`sanitizeChars_of_isIdentifier`).
-/

import Mathlib
import Scriptorium.Identifier.Allocator
import Scriptorium.Proofs.Text.CharacterClass

namespace Scriptorium

/-! ### Small letters -/

namespace Text

theorem isUpper_iff {c : Char} : c.isUpper = true ↔ 0x41 ≤ c.toNat ∧ c.toNat ≤ 0x5A := by
  simp [Char.isUpper, UInt32.le_iff_toNat_le]

theorem isLower_iff {c : Char} : c.isLower = true ↔ 0x61 ≤ c.toNat ∧ c.toNat ≤ 0x7A := by
  simp [Char.isLower, UInt32.le_iff_toNat_le]

/-- No run of letters above ASCII is moved to the capitals of ASCII or before them. -/
theorem shift_lowerRuns : ∀ r ∈ lowerRuns, 0x5A < r.first + r.shift := by
  decide +kernel

theorem toNat_ofNat_cases (n : Nat) : (Char.ofNat n).toNat = n ∨ (Char.ofNat n).toNat = 0 := by
  rw [Char.toNat_ofNat]
  split
  · exact .inl rfl
  · exact .inr rfl

/-- The small form of a character holds no capital of ASCII. -/
theorem isUpper_eq_false_of_mem_lower {c d : Char} (h : d ∈ lower c) : d.isUpper = false := by
  by_cases hascii : c.toNat < 0x80
  · rw [lower_of_ascii hascii, List.mem_singleton] at h
    rw [h]
    exact Char.isUpper_toLower_eq_false c
  rw [lower, if_neg hascii, mapCase] at h
  rw [Bool.eq_false_iff]
  intro hupper
  rw [isUpper_iff] at hupper
  cases hmany : lowerMany.find? fun e => e.1 == c.toNat with
  | some e =>
    have he : e = (0x130, [0x69, 0x307]) := by
      simpa [lowerMany] using List.mem_of_find?_eq_some hmany
    simp only [hmany, he, List.map_cons, List.map_nil, List.mem_cons, List.not_mem_nil,
      or_false] at h
    rcases h with rfl | rfl
    · exact absurd hupper (by decide)
    · exact absurd hupper (by decide)
  | none =>
    simp only [hmany] at h
    cases hrun : lowerRuns.find? fun r => r.holds c.toNat with
    | none =>
      simp only [hrun, List.mem_singleton] at h
      rw [h] at hupper
      omega
    | some r =>
      have hshift := shift_lowerRuns r (List.mem_of_find?_eq_some hrun)
      have hfirst : r.first ≤ c.toNat := by
        have hholds := List.find?_some hrun
        simp only [CaseRun.holds, Bool.and_eq_true, decide_eq_true_eq] at hholds
        exact hholds.1.1
      simp only [hrun, List.mem_singleton] at h
      subst h
      rcases toNat_ofNat_cases (c.toNat + r.shift).toNat with heq | heq <;> omega

end Text

namespace Identifier

/-! ### The form -/

/-- A character that may begin an identifier. -/
def begins (c : Char) : Bool :=
  c.isLower || c == '_'

/-- A character that may stand behind the first one. -/
def continues (c : Char) : Bool :=
  begins c || c.isDigit

/-- A text of the form `[a-z_][a-z0-9_]*`. -/
inductive IsIdentifier : List Char → Prop where
  | mk {c : Char} {s : List Char} : begins c = true → (∀ d ∈ s, continues d = true) →
      IsIdentifier (c :: s)

theorem continues_of_begins {c : Char} (h : begins c = true) : continues c = true := by
  rw [continues, h, Bool.true_or]

theorem continues_of_isDigit {c : Char} (h : c.isDigit = true) : continues c = true := by
  rw [continues, h, Bool.or_true]

/-- A part of an identifier that is neither a capital nor a digit may begin one. -/
theorem begins_of_isPart {c : Char} (hpart : isPart c = true) (hupper : c.isUpper = false)
    (hdigit : c.isDigit = false) : begins c = true := by
  simpa [isPart, begins, Char.isAlphanum, Char.isAlpha, hupper, hdigit] using hpart

theorem continues_of_isPart {c : Char} (hpart : isPart c = true) (hupper : c.isUpper = false) :
    continues c = true := by
  cases hdigit : c.isDigit with
  | true => exact continues_of_isDigit hdigit
  | false => exact continues_of_begins (begins_of_isPart hpart hupper hdigit)

theorem isPart_of_continues {c : Char} (h : continues c = true) : isPart c = true := by
  simp only [continues, begins, Bool.or_eq_true] at h
  simp only [isPart, Char.isAlphanum, Char.isAlpha, Bool.or_eq_true]
  tauto

theorem isUpper_eq_false_of_continues {c : Char} (h : continues c = true) :
    c.isUpper = false := by
  rw [Bool.eq_false_iff]
  intro hupper
  simp only [continues, begins, Bool.or_eq_true, beq_iff_eq, Text.isLower_iff,
    Text.isDigit_iff] at h
  rw [Text.isUpper_iff] at hupper
  rcases h with (h | rfl) | h
  · omega
  · exact absurd hupper (by decide)
  · omega

theorem toNat_lt_of_continues {c : Char} (h : continues c = true) : c.toNat < 0x80 := by
  have hpart := isPart_of_continues h
  rw [isPart, Bool.or_eq_true, beq_iff_eq] at hpart
  rcases hpart with hpart | rfl
  · exact Text.toNat_lt_of_isAlphanum hpart
  · decide

theorem isDigit_eq_false_of_begins {c : Char} (h : begins c = true) : c.isDigit = false := by
  rw [Bool.eq_false_iff]
  intro hdigit
  rw [begins, Bool.or_eq_true, beq_iff_eq, Text.isLower_iff] at h
  rw [Text.isDigit_iff] at hdigit
  rcases h with h | rfl
  · omega
  · exact absurd hdigit (by decide)

theorem IsIdentifier.continues {s : List Char} (h : IsIdentifier s) :
    ∀ c ∈ s, continues c = true := by
  cases h with
  | mk hc hs => exact List.forall_mem_cons.mpr ⟨continues_of_begins hc, hs⟩

theorem IsIdentifier.append {s t : List Char} (hs : IsIdentifier s)
    (ht : ∀ c ∈ t, Identifier.continues c = true) : IsIdentifier (s ++ t) := by
  cases hs with
  | mk hc hs => exact .mk hc (List.forall_mem_append.mpr ⟨hs, ht⟩)

/-! ### Sanitizing -/

/-- A text of parts without capitals has the form once a leading digit is guarded. -/
theorem isIdentifier_guardDigit {s : List Char} (hne : s ≠ [])
    (hparts : ∀ c ∈ s, isPart c = true ∧ c.isUpper = false) : IsIdentifier (guardDigit s) := by
  have hcontinues : ∀ c ∈ s, continues c = true := fun c hc =>
    continues_of_isPart (hparts c hc).1 (hparts c hc).2
  cases s with
  | nil => exact absurd rfl hne
  | cons c s =>
    rw [guardDigit]
    split
    · exact .mk rfl hcontinues
    · rename_i hdigit
      have hc := hparts c List.mem_cons_self
      refine .mk (begins_of_isPart hc.1 hc.2 (Bool.eq_false_iff.mpr hdigit)) ?_
      exact fun d hd => hcontinues d (List.mem_cons_of_mem c hd)

/-- What sanitizing leaves of a text is empty or an identifier. -/
theorem isIdentifier_sanitizeChars {s : List Char} (h : sanitizeChars s ≠ []) :
    IsIdentifier (sanitizeChars s) := by
  refine isIdentifier_guardDigit (fun hnil => h ?_) fun c hc => ?_
  · rw [sanitizeChars, hnil]
    rfl
  · rw [List.mem_filter, List.mem_map] at hc
    obtain ⟨⟨d, hd, rfl⟩, hpart⟩ := hc
    obtain ⟨a, _, hlower⟩ := List.mem_flatMap.mp hd
    refine ⟨hpart, ?_⟩
    split
    · rfl
    · exact Text.isUpper_eq_false_of_mem_lower hlower

/-- Lowering, replacing blanks and leaving out do nothing to parts without capitals. -/
theorem filter_lower_of_continues {s : List Char} (h : ∀ c ∈ s, continues c = true) :
    (((s.flatMap Text.lower).map fun c => if c = ' ' then '_' else c).filter isPart) = s := by
  induction s with
  | nil => rfl
  | cons c s ih =>
    rw [List.forall_mem_cons] at h
    obtain ⟨hc, hs⟩ := h
    have hlower : Text.lower c = [c] := by
      rw [Text.lower_of_ascii (toNat_lt_of_continues hc),
        Char.toLower_eq_of_not_isUpper (Bool.eq_false_iff.mp (isUpper_eq_false_of_continues hc))]
    have hspace : c ≠ ' ' := by
      rintro rfl
      cases hc
    rw [List.flatMap_cons, hlower, List.singleton_append, List.map_cons, if_neg hspace,
      List.filter_cons_of_pos (isPart_of_continues hc), ih hs]

/-- Identifiers are left as they are. -/
theorem sanitizeChars_of_isIdentifier {s : List Char} (h : IsIdentifier s) :
    sanitizeChars s = s := by
  rw [sanitizeChars, filter_lower_of_continues h.continues]
  cases h with
  | mk hc _ => rw [guardDigit, if_neg (Bool.eq_false_iff.mp (isDigit_eq_false_of_begins hc))]

theorem sanitize_of_isIdentifier {s : String} (h : IsIdentifier s.toList) : sanitize s = s := by
  rw [sanitize, sanitizeChars_of_isIdentifier h, String.ofList_toList]

/-! ### Names before they are claimed -/

/-- A name is claimed as an identifier. -/
theorem isIdentifier_base (name : String) : IsIdentifier (base name).toList := by
  by_cases hempty : sanitize name = ""
  · rw [base, if_pos hempty]
    exact .mk rfl (by simp)
  · rw [base, if_neg hempty, sanitize, String.toList_ofList]
    apply isIdentifier_sanitizeChars
    intro hnil
    exact hempty (by rw [sanitize, hnil, String.ofList_nil])

/-- A number behind an identifier makes another one. -/
theorem isIdentifier_suffixed {base : String} (h : IsIdentifier base.toList) (k : Nat) :
    IsIdentifier (suffixed base k).toList := by
  rw [suffixed, String.toList_append, String.toList_append, List.append_assoc]
  refine h.append (List.forall_mem_append.mpr ⟨?_, fun c hc => ?_⟩)
  · exact List.forall_mem_singleton.mpr rfl
  · rw [String.toList_ofList] at hc
    exact continues_of_isDigit (Nat.isDigit_of_mem_toDigits (by decide) (by decide) hc)

end Identifier

end Scriptorium
