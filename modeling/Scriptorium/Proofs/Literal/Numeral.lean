/-
Integers as a grammar: decimal, hexadecimal, octal and binary numerals with underscores between
the digits, and an optional sign.

A numeral that nothing continues is read as its number (`readNumeral_append`).
-/

import Mathlib.Data.List.Infix
import Scriptorium.Literal.Numeral
import Scriptorium.Proofs.Literal.Trivia
import Scriptorium.Proofs.Text.Cut

namespace Scriptorium.Literal

open Text (hexValue? isDigitOf isWordChar)

/-! ### The grammar -/

/-- Digits of a base with underscores between them, and the number they denote. -/
inductive Digits (base : Nat) : List Char → Nat → Prop where
  | digit {c : Char} {d : Nat} : hexValue? c = some d → d < base → Digits base [c] d
  | next {s : List Char} {n k : Nat} {c : Char} {d : Nat} :
      Digits base s n → hexValue? c = some d → d < base →
      Digits base (s ++ (List.replicate k '_' ++ [c])) (n * base + d)

/-- The letters that mark a base behind a leading zero. -/
def baseMarks : List (Char × Nat) :=
  [('x', 16), ('X', 16), ('o', 8), ('O', 8), ('b', 2), ('B', 2)]

/-- A numeral without a sign, and its number. -/
inductive Numeral : List Char → Nat → Prop where
  | decimal {s : List Char} {n : Nat} : Digits 10 s n → Numeral s n
  /-- Underscores may also stand behind the mark of the base. -/
  | based {c : Char} {base n k : Nat} {s : List Char} :
      (c, base) ∈ baseMarks → Digits base s n →
      Numeral ('0' :: c :: (List.replicate k '_' ++ s)) n

/-- An integer with an optional sign, and trivia behind the sign. The magnitude stays below the
bound also where the sign is negative. -/
inductive Integer : List Char → Int → Prop where
  | plain {s : List Char} {n : Nat} : Numeral s n → n < intBound → Integer s n
  | plus {t s : List Char} {n : Nat} :
      Trivia t → Numeral s n → n < intBound → Integer ('+' :: (t ++ s)) n
  | minus {t s : List Char} {n : Nat} :
      Trivia t → Numeral s n → n < intBound → Integer ('-' :: (t ++ s)) (-n)

/-- An optional sign with the trivia behind it, and whether it makes a number negative. -/
inductive Sign : List Char → Bool → Prop where
  | none : Sign [] false
  | plus {t : List Char} : Trivia t → Sign ('+' :: t) false
  | minus {t : List Char} : Trivia t → Sign ('-' :: t) true

/-- The number with its sign. -/
def signedValue (negative : Bool) (n : Nat) : Int :=
  if negative then -n else n

/-- An integer is a numeral below the bound behind a sign. -/
theorem Integer.exists_sign {u : List Char} {z : Int} (h : Integer u z) :
    ∃ sign negative s n, Sign sign negative ∧ Numeral s n ∧ n < intBound ∧ u = sign ++ s ∧
      z = signedValue negative n := by
  cases h with
  | plain hs hbound => exact ⟨_, _, _, _, .none, hs, hbound, rfl, rfl⟩
  | plus ht hs hbound => exact ⟨_, _, _, _, .plus ht, hs, hbound, rfl, rfl⟩
  | minus ht hs hbound => exact ⟨_, _, _, _, .minus ht, hs, hbound, rfl, rfl⟩

/-! ### Digits -/

theorem isDigitOf_iff {base : Nat} {c : Char} :
    isDigitOf base c = true ↔ ∃ d, hexValue? c = some d ∧ d < base := by
  cases h : hexValue? c <;> simp [isDigitOf, h]

theorem hexValue?_of_isDigit {c : Char} (h : c.isDigit = true) :
    hexValue? c = some (c.toNat - 0x30) := by
  simp [hexValue?, h]

/-- A digit is an ASCII digit or one of the six letters, of either case. -/
theorem hexValue?_eq_some {c : Char} {d : Nat} (h : hexValue? c = some d) :
    (c.isDigit = true ∧ d = c.toNat - 0x30) ∨
      (0x61 ≤ c.toNat ∧ c.toNat ≤ 0x66 ∧ d = c.toNat - 0x57) ∨
      (0x41 ≤ c.toNat ∧ c.toNat ≤ 0x46 ∧ d = c.toNat - 0x37) := by
  unfold hexValue? at h
  split at h
  · cases h
    exact .inl ⟨‹_›, rfl⟩
  split at h
  · rename_i hletter
    cases h
    exact .inr (.inl ⟨hletter.1, hletter.2, rfl⟩)
  split at h
  · rename_i hletter
    cases h
    exact .inr (.inr ⟨hletter.1, hletter.2, rfl⟩)
  · cases h

theorem isDigitOf_ten (c : Char) : isDigitOf 10 c = c.isDigit := by
  rw [Bool.eq_iff_iff, isDigitOf_iff]
  constructor
  · rintro ⟨d, hd, hlt⟩
    rcases hexValue?_eq_some hd with ⟨hdigit, _⟩ | hlower | hupper
    · exact hdigit
    · omega
    · omega
  · intro h
    have := Text.isDigit_iff.mp h
    exact ⟨_, hexValue?_of_isDigit h, by omega⟩

theorem isAlphanum_of_hexValue? {c : Char} {d : Nat} (h : hexValue? c = some d) :
    c.isAlphanum = true := by
  rw [Text.isAlphanum_iff, Text.isAlpha_iff]
  rcases hexValue?_eq_some h with ⟨hdigit, _⟩ | hlower | hupper
  · exact .inr hdigit
  · omega
  · omega

theorem isAlphanum_of_isDigitOf {base : Nat} {c : Char} (h : isDigitOf base c = true) :
    c.isAlphanum = true := by
  obtain ⟨d, hd, _⟩ := isDigitOf_iff.mp h
  exact isAlphanum_of_hexValue? hd

theorem ne_underscore_of_isDigitOf {base : Nat} {c : Char} (h : isDigitOf base c = true) :
    c ≠ '_' := by
  rintro rfl
  exact absurd (isAlphanum_of_isDigitOf h) (by decide)

namespace Digits

variable {base n : Nat} {s : List Char}

theorem mem (h : Digits base s n) : ∀ c ∈ s, isDigitOf base c = true ∨ c = '_' := by
  induction h with
  | digit hd hlt =>
    intro c hc
    rw [List.mem_singleton.mp hc]
    exact Or.inl (isDigitOf_iff.mpr ⟨_, hd, hlt⟩)
  | next _ hd hlt ih =>
    intro c hc
    simp only [List.mem_append, List.mem_replicate, List.mem_singleton] at hc
    rcases hc with hc | hc | rfl
    · exact ih c hc
    · exact Or.inr hc.2
    · exact Or.inl (isDigitOf_iff.mpr ⟨_, hd, hlt⟩)

theorem head (h : Digits base s n) : ∃ c u, s = c :: u ∧ isDigitOf base c = true := by
  induction h with
  | @digit c d hd hlt => exact ⟨c, [], rfl, isDigitOf_iff.mpr ⟨d, hd, hlt⟩⟩
  | next _ _ _ ih =>
    obtain ⟨c, u, rfl, hc⟩ := ih
    exact ⟨c, _, rfl, hc⟩

/-- Without the underscores, the digits denote the number. -/
theorem ofDigits_filter (h : Digits base s n) :
    Text.ofDigits base (s.filter (· != '_')) = n := by
  induction h with
  | @digit c d hd hlt =>
    have hne := ne_underscore_of_isDigitOf (isDigitOf_iff.mpr ⟨d, hd, hlt⟩)
    simp [hne, Text.ofDigits, hd]
  | @next s n k c d _ hd hlt ih =>
    have hne := ne_underscore_of_isDigitOf (isDigitOf_iff.mpr ⟨d, hd, hlt⟩)
    have hline : (List.replicate k '_').filter (· != '_') = [] := by simp
    rw [List.filter_append, List.filter_append, hline, List.nil_append,
      show [c].filter (· != '_') = [c] by simp [hne], Text.ofDigits_append_singleton, ih, hd]
    rfl

end Digits

/-! ### Runs -/

/-- Digits of a base and underscores in any order, with at least one digit. -/
structure IsRun (base : Nat) (s : List Char) : Prop where
  mem : ∀ c ∈ s, isDigitOf base c = true ∨ c = '_'
  exists_digit : ∃ c ∈ s, c ≠ '_'

theorem isDigitPart_iff {c : Char} :
    isDigitPart c = true ↔ isDigitOf 10 c = true ∨ c = '_' := by
  rw [isDigitPart, isDigitOf_ten, Bool.or_eq_true, beq_iff_eq]

namespace IsRun

variable {base : Nat} {s : List Char}

theorem ne_nil (h : IsRun base s) : s ≠ [] := by
  obtain ⟨c, hc, _⟩ := h.exists_digit
  exact List.ne_nil_of_mem hc

theorem isDigitPart (h : IsRun 10 s) : ∀ c ∈ s, isDigitPart c = true := fun c hc =>
  isDigitPart_iff.mpr (h.mem c hc)

/-- Something is left without the underscores, and that is digits. -/
theorem filter_spec (h : IsRun base s) : s.filter (· != '_') ≠ [] ∧
    ∀ c ∈ s.filter (· != '_'), isDigitOf base c = true := by
  constructor
  · obtain ⟨c, hc, hne⟩ := h.exists_digit
    exact List.ne_nil_of_mem (List.mem_filter.mpr ⟨hc, bne_iff_ne.mpr hne⟩)
  · intro c hc
    obtain ⟨hc, hne⟩ := List.mem_filter.mp hc
    exact (h.mem c hc).resolve_right (bne_iff_ne.mp hne)

/-- A text is a run if digits are left of it without the underscores. -/
theorem of_filter (hne : s.filter (· != '_') ≠ [])
    (hall : ∀ c ∈ s.filter (· != '_'), isDigitOf base c = true) : IsRun base s where
  mem c hc := by
    by_cases hline : c = '_'
    · exact .inr hline
    · exact .inl (hall c (List.mem_filter.mpr ⟨hc, bne_iff_ne.mpr hline⟩))
  exists_digit := by
    obtain ⟨c, hc⟩ := List.exists_mem_of_ne_nil _ hne
    obtain ⟨hc, hline⟩ := List.mem_filter.mp hc
    exact ⟨c, hc, bne_iff_ne.mp hline⟩

end IsRun

/-- Digits are a run, also with underscores before them. -/
theorem Digits.isRun {base n : Nat} {s : List Char} (h : Digits base s n) (k : Nat) :
    IsRun base (List.replicate k '_' ++ s) where
  mem := by
    refine List.forall_mem_append.mpr ⟨fun c hc => ?_, h.mem⟩
    exact .inr (List.eq_of_mem_replicate hc)
  exists_digit := by
    obtain ⟨c, u, rfl, hc⟩ := h.head
    exact ⟨c, by simp, ne_underscore_of_isDigitOf hc⟩

/-! ### Extent -/

theorem mem_takeWhile_isDigitPart (s : List Char) :
    ∀ c ∈ s.takeWhile isDigitPart, isDigitPart c = true := fun _ hc => List.mem_takeWhile_imp hc

/-- A point with the digits behind it, or nothing. -/
def IsFraction (s : List Char) : Prop :=
  s = [] ∨ ∃ f, s = '.' :: f ∧ ∀ c ∈ f, isDigitPart c = true

theorem isFraction_fractionOf (s : List Char) : IsFraction (fractionOf s) := by
  unfold fractionOf
  split
  · exact .inr ⟨_, rfl, mem_takeWhile_isDigitPart _⟩
  · exact .inl rfl

theorem isPrefix_fractionOf (s : List Char) : fractionOf s <+: s := by
  unfold fractionOf
  split
  · exact (List.prefix_cons_inj _).mpr (List.takeWhile_prefix _)
  · exact List.nil_prefix

theorem isPrefix_signOf (s : List Char) : signOf s <+: s := by
  cases s with
  | nil => exact List.nil_prefix
  | cons c s =>
    rw [signOf]
    split
    · exact (List.prefix_cons_inj c).mpr List.nil_prefix
    · exact List.nil_prefix

theorem isPrefix_exponentOf (s : List Char) : exponentOf s <+: s := by
  cases s with
  | nil => exact List.nil_prefix
  | cons c s =>
    rw [exponentOf]
    split
    · have hdigits := (List.prefix_append_right_inj (signOf s)).mpr
        (List.takeWhile_prefix (l := s.drop (signOf s).length) isDigitPart)
      rw [List.prefix_iff_eq_append.mp (isPrefix_signOf s)] at hdigits
      exact (List.prefix_cons_inj c).mpr hdigits
    · exact List.nil_prefix

theorem isPrefix_append_drop {s t u : List Char} (hs : t <+: s) (hu : u <+: s.drop t.length) :
    t ++ u <+: s := by
  rw [← List.prefix_iff_eq_append.mp hs]
  exact (List.prefix_append_right_inj t).mpr hu

theorem fractionOf_of_isPrefix {s t : List Char} (hrun : fractionOf s <+: t) (ht : t <+: s) :
    fractionOf t = fractionOf s := by
  cases s with
  | nil => rw [List.prefix_nil.mp ht]
  | cons c s =>
    rcases List.prefix_cons_iff.mp ht with rfl | ⟨u, rfl, hu⟩
    · exact (List.prefix_nil.mp hrun).symm
    · by_cases hc : c = '.'
      · subst hc
        exact congrArg ('.' :: ·)
          (Text.takeWhile_of_isPrefix ((List.prefix_cons_inj '.').mp hrun) hu)
      · have hnone (w : List Char) : fractionOf (c :: w) = [] := by
          unfold fractionOf
          split
          · rename_i heq
            exact absurd (List.cons.inj heq).1 hc
          · rfl
        rw [hnone, hnone]

theorem signOf_of_isPrefix {s t : List Char} (hrun : signOf s <+: t) (ht : t <+: s) :
    signOf t = signOf s := by
  cases s with
  | nil => rw [List.prefix_nil.mp ht]
  | cons c s =>
    rcases List.prefix_cons_iff.mp ht with rfl | ⟨u, rfl, hu⟩
    · exact (List.prefix_nil.mp hrun).symm
    · rfl

theorem exponentOf_of_isPrefix {s t : List Char} (hrun : exponentOf s <+: t) (ht : t <+: s) :
    exponentOf t = exponentOf s := by
  cases s with
  | nil => rw [List.prefix_nil.mp ht]
  | cons c s =>
    rcases List.prefix_cons_iff.mp ht with rfl | ⟨u, rfl, hu⟩
    · exact (List.prefix_nil.mp hrun).symm
    · rw [exponentOf] at hrun ⊢
      rw [exponentOf]
      split
      · rename_i hc
        rw [if_pos hc] at hrun
        have hbehind := (List.prefix_cons_inj c).mp hrun
        have hsign := signOf_of_isPrefix ((List.prefix_append _ _).trans hbehind) hu
        have hdigits := hbehind.drop (signOf s).length
        rw [List.drop_left] at hdigits
        rw [hsign, Text.takeWhile_of_isPrefix hdigits (hu.drop _)]
      · rfl

/-- The parts of a text that a decimal numeral is made of, and what stands behind them. -/
structure DecimalSplit (s whole fraction exponent rest : List Char) : Prop where
  eq : s = whole ++ (fraction ++ (exponent ++ rest))
  whole_eq : s.takeWhile isDigitPart = whole
  fraction_eq : fractionOf (fraction ++ (exponent ++ rest)) = fraction
  exponent_eq : exponentOf (exponent ++ rest) = exponent

theorem exists_decimalSplit (s : List Char) :
    ∃ whole fraction exponent rest, DecimalSplit s whole fraction exponent rest := by
  have hwhole := List.takeWhile_append_dropWhile (l := s) (p := isDigitPart)
  generalize s.dropWhile isDigitPart = t at hwhole
  obtain ⟨u, hu⟩ := isPrefix_fractionOf t
  obtain ⟨rest, hrest⟩ := isPrefix_exponentOf u
  refine ⟨s.takeWhile isDigitPart, fractionOf t, exponentOf u, rest, ?_, rfl, ?_, ?_⟩
  · rw [hrest, hu, hwhole]
  · rw [hrest, hu]
  · rw [hrest]

/-- The parts are the same wherever the text behind them is cut off. -/
theorem DecimalSplit.of_isPrefix {s whole fraction exponent rest u : List Char}
    (h : DecimalSplit s whole fraction exponent rest) (hu : u <+: rest) :
    DecimalSplit (whole ++ (fraction ++ (exponent ++ u))) whole fraction exponent u := by
  have hexponent := (List.prefix_append_right_inj exponent).mpr hu
  have hfraction := (List.prefix_append_right_inj fraction).mpr hexponent
  have hwhole := (List.prefix_append_right_inj whole).mpr hfraction
  rw [← h.eq] at hwhole
  refine ⟨rfl, ?_, ?_, ?_⟩
  · rw [Text.takeWhile_of_isPrefix (h.whole_eq ▸ List.prefix_append _ _) hwhole, h.whole_eq]
  · rw [fractionOf_of_isPrefix (h.fraction_eq.symm ▸ List.prefix_append _ _) hfraction,
      h.fraction_eq]
  · rw [exponentOf_of_isPrefix (h.exponent_eq.symm ▸ List.prefix_append _ _) hexponent,
      h.exponent_eq]

/-! ### Reading numerals -/

theorem intOf_eq_ok_iff {text : List Char} {n : Nat} {v : Literal} :
    intOf text n = .ok v ↔ n < intBound ∧ v = .int (Int64.ofNat n) := by
  unfold intOf
  split
  · rename_i hn
    simp only [hn, true_and, Except.ok.injEq, eq_comm]
  · rename_i hn
    simp only [hn, false_and, reduceCtorEq]

theorem readDecimal_of_split {s whole fraction exponent rest : List Char}
    (h : DecimalSplit s whole fraction exponent rest) :
    readDecimal s =
      if rest.takeWhile isWordChar ≠ [] then
        .error (.invalidNumber (whole ++ fraction ++ exponent ++ rest.takeWhile isWordChar))
      else
        (decimalOf (fraction ++ exponent ≠ []) (whole ++ fraction ++ exponent)).map (·, rest) := by
  obtain ⟨rfl, hwhole, hfraction, hexponent⟩ := h
  have hdrop : (whole ++ (fraction ++ (exponent ++ rest))).drop (whole ++ fraction).length =
      exponent ++ rest := by
    rw [← List.append_assoc, List.drop_left]
  have hrest : (whole ++ (fraction ++ (exponent ++ rest))).drop
      (whole ++ fraction ++ exponent).length = rest := by
    rw [← List.append_assoc, ← List.append_assoc, List.drop_left]
  simp only [readDecimal, hwhole, List.drop_left, hfraction, hdrop, hexponent, hrest]

theorem exists_of_map_eq_ok {α β ε : Type} {x : Except ε α} {f : α → β} {b : β}
    (h : x.map f = .ok b) : ∃ a, x = .ok a ∧ f a = b := by
  cases x with
  | error e => cases h
  | ok a => exact ⟨a, rfl, Except.ok.inj h⟩

/-- A decimal numeral that is read ends where no word goes on. -/
theorem exists_split_of_readDecimal {s rest : List Char} {v : Literal}
    (h : readDecimal s = .ok (v, rest)) :
    ∃ whole fraction exponent, DecimalSplit s whole fraction exponent rest ∧
      rest.takeWhile isWordChar = [] ∧
      decimalOf (fraction ++ exponent ≠ []) (whole ++ fraction ++ exponent) = .ok v := by
  obtain ⟨whole, fraction, exponent, tail, hsplit⟩ := exists_decimalSplit s
  rw [readDecimal_of_split hsplit] at h
  split at h
  · cases h
  rename_i hword
  obtain ⟨w, hvalue, heq⟩ := exists_of_map_eq_ok h
  cases heq
  exact ⟨whole, fraction, exponent, hsplit, not_not.mp hword, hvalue⟩

/-- A numeral with the mark of a base ends with the word behind the mark. -/
theorem basedOf_of_readBased {base : Nat} {mark digits rest : List Char} {v : Literal}
    (h : readBased base mark digits = .ok (v, rest)) :
    ∃ run, digits.takeWhile (fun c => c.isAlphanum || c == '_') = run ∧
      digits.dropWhile (fun c => c.isAlphanum || c == '_') = rest ∧
      basedOf base (mark ++ run) run = .ok v := by
  obtain ⟨w, hvalue, heq⟩ := exists_of_map_eq_ok h
  cases heq
  exact ⟨_, rfl, rfl, hvalue⟩

theorem isWordChar_of_isDigitPart {c : Char} (h : isDigitPart c = true) :
    isWordChar c = true := by
  simp only [isDigitPart, Bool.or_eq_true, beq_iff_eq] at h
  rcases h with h | rfl
  · exact Text.isWordChar_of_isDigit h
  · decide

theorem Severs.isDigitPart_head {rest : List Char} (h : Severs rest) :
    ∀ c ∈ rest.head?, isDigitPart c = false := by
  intro c hc
  rw [Bool.eq_false_iff]
  intro hpart
  have := (h c hc).1
  rw [isWordChar_of_isDigitPart hpart] at this
  cases this

theorem Severs.fractionOf_eq {rest : List Char} (h : Severs rest) : fractionOf rest = [] := by
  cases rest with
  | nil => rfl
  | cons c rest =>
    have hpoint : c ≠ '.' := (severs_cons.mp h).2.1
    unfold fractionOf
    split
    · rename_i heq
      exact absurd (List.cons.inj heq).1 hpoint
    · rfl

theorem Severs.exponentOf_eq {rest : List Char} (h : Severs rest) : exponentOf rest = [] := by
  cases rest with
  | nil => rfl
  | cons c rest =>
    have hword := (severs_cons.mp h).1
    have hmark : ¬(c = 'e' ∨ c = 'E') := by
      rintro (rfl | rfl) <;> exact absurd hword (by decide)
    simp [exponentOf, hmark]

theorem Severs.takeWhile_eq {rest : List Char} (h : Severs rest) :
    rest.takeWhile isWordChar = [] := by
  cases rest with
  | nil => rfl
  | cons c rest => simp [(severs_cons.mp h).1]

/-- A run of decimal digits that nothing continues is read in full. -/
theorem readDecimal_run {s rest : List Char} (h : IsRun 10 s) (hrest : Severs rest) :
    readDecimal (s ++ rest) =
      (intOf s (Text.ofDigits 10 (s.filter (· != '_')))).map (·, rest) := by
  have hnonempty : (s.filter (· != '_')).isEmpty = false := by simpa using h.filter_spec.1
  simp [readDecimal, Text.takeWhile_append h.isDigitPart hrest.isDigitPart_head,
    hrest.fractionOf_eq, hrest.exponentOf_eq, hrest.takeWhile_eq, decimalOf, hnonempty]

/-- The digits of a base that nothing continues are read in full. -/
theorem readBased_run {base : Nat} {mark s rest : List Char} (h : IsRun base s)
    (hrest : Severs rest) :
    readBased base mark (s ++ rest) =
      (intOf (mark ++ s) (Text.ofDigits base (s.filter (· != '_')))).map (·, rest) := by
  have hpart : ∀ c ∈ s, (c.isAlphanum || c == '_') = true := by
    intro c hc
    rcases h.mem c hc with hdigit | rfl
    · simp [isAlphanum_of_isDigitOf hdigit]
    · rfl
  have hstop : ∀ c ∈ rest.head?, (c.isAlphanum || c == '_') = false := by
    intro c hc
    have hword := (hrest c hc).1
    rw [Bool.eq_false_iff]
    intro hc
    simp only [Bool.or_eq_true, beq_iff_eq] at hc
    rcases hc with hc | rfl
    · rw [Text.isWordChar_of_isAlphanum hc] at hword
      cases hword
    · exact absurd hword (by decide)
  obtain ⟨hne, hall⟩ := h.filter_spec
  have hnonempty : (s.filter (· != '_')).isEmpty = false := by simpa using hne
  simp only [readBased, Text.takeWhile_append hpart hstop, Text.dropWhile_append hpart hstop,
    basedOf, List.all_eq_true.mpr hall, hnonempty]
  rfl

theorem baseOf?_of_mem {c : Char} {base : Nat} (h : (c, base) ∈ baseMarks) :
    baseOf? c = some base := by
  simp only [baseMarks, List.mem_cons, Prod.mk.injEq, List.not_mem_nil, or_false] at h
  rcases h with ⟨rfl, rfl⟩ | ⟨rfl, rfl⟩ | ⟨rfl, rfl⟩ | ⟨rfl, rfl⟩ | ⟨rfl, rfl⟩ | ⟨rfl, rfl⟩ <;> rfl

/-- Only a letter marks a base. -/
theorem isAlpha_of_baseOf? {c : Char} {base : Nat} (h : baseOf? c = some base) :
    c.isAlpha = true := by
  unfold baseOf? at h
  split at h <;> first | rfl | cases h

/-- Where no letter behind a zero marks a base, a numeral is a decimal one. -/
theorem readNumeral_of_unmarked {s : List Char}
    (h : ∀ c u, s = '0' :: c :: u → baseOf? c = none) : readNumeral s = readDecimal s := by
  unfold readNumeral
  split
  · rename_i c digits
    rw [h c digits rfl]
  · rfl

theorem baseOf?_of_isDigitPart {c : Char} (h : isDigitPart c = true) : baseOf? c = none := by
  rw [Option.eq_none_iff_forall_ne_some]
  intro base hbase
  have halpha := isAlpha_of_baseOf? hbase
  simp only [isDigitPart, Bool.or_eq_true, beq_iff_eq] at h
  rcases h with hdigit | rfl
  · rw [Text.isDigit_iff] at hdigit
    rw [Text.isAlpha_iff] at halpha
    omega
  · exact absurd halpha (by decide)

theorem Severs.baseOf?_head {rest : List Char} (h : Severs rest) :
    ∀ c ∈ rest.head?, baseOf? c = none := by
  intro c hc
  rw [Option.eq_none_iff_forall_ne_some]
  intro base hbase
  have hword := (h c hc).1
  rw [Text.isWordChar_of_isAlpha (isAlpha_of_baseOf? hbase)] at hword
  cases hword

/-- Digits with no mark of a base behind them are read as a decimal numeral. -/
theorem readNumeral_eq_readDecimal {s t : List Char} (hne : s ≠ [])
    (hs : ∀ c ∈ s, isDigitPart c = true) (ht : ∀ c ∈ t.head?, baseOf? c = none) :
    readNumeral (s ++ t) = readDecimal (s ++ t) := by
  refine readNumeral_of_unmarked fun c u heq => ?_
  match s, hne with
  | [_], _ =>
    rw [List.singleton_append, List.cons.injEq] at heq
    exact ht c (by rw [heq.2]; rfl)
  | _ :: _ :: _, _ =>
    cases heq
    exact baseOf?_of_isDigitPart (hs c (by simp))

/-- A numeral is read as its number, unless that is out of range. -/
theorem readNumeral_append {s rest : List Char} {n : Nat} (h : Numeral s n)
    (hrest : Severs rest) : readNumeral (s ++ rest) = (intOf s n).map (·, rest) := by
  cases h with
  | decimal hdigits =>
    have hrun : IsRun 10 s := hdigits.isRun 0
    rw [readNumeral_eq_readDecimal hrun.ne_nil hrun.isDigitPart hrest.baseOf?_head,
      readDecimal_run hrun hrest, hdigits.ofDigits_filter]
  | @based c base n k s hmark hdigits =>
    have hfilter : (List.replicate k '_' ++ s).filter (· != '_') = s.filter (· != '_') := by simp
    simp only [List.cons_append, readNumeral, baseOf?_of_mem hmark]
    rw [readBased_run (hdigits.isRun k) hrest, hfilter, hdigits.ofDigits_filter]
    rfl

theorem Numeral.head {s : List Char} {n : Nat} (h : Numeral s n) :
    ∃ c u, s = c :: u ∧ c.isDigit = true := by
  cases h with
  | decimal hdigits =>
    obtain ⟨c, u, rfl, hc⟩ := hdigits.head
    exact ⟨c, u, rfl, isDigitOf_ten c ▸ hc⟩
  | based _ _ => exact ⟨_, _, rfl, rfl⟩

theorem skipTrivia_numeral {s : List Char} {n : Nat} (h : Numeral s n) (rest : List Char) :
    skipTrivia (s ++ rest) = s ++ rest := by
  obtain ⟨c, u, rfl, hc⟩ := h.head
  exact skipTrivia_of_solid (isSolid_of_isWordChar (Text.isWordChar_of_isDigit hc)) (u ++ rest)

/-- The sign is applied to a number that was read without it. -/
theorem signed_intOf (negative : Bool) {s : List Char} {n : Nat} (h : n < intBound) :
    (intOf s n).map (fun v => if negative then negated v else v) =
      .ok (.int (Int64.ofInt (signedValue negative n))) := by
  rw [intOf, if_pos h]
  cases negative with
  | false => simp [Except.map, signedValue, Int64.ofInt_eq_ofNat]
  | true => simp [Except.map, signedValue, negated, Int64.ofInt_neg, Int64.ofInt_eq_ofNat]

end Scriptorium.Literal
