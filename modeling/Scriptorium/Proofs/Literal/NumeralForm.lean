/-
The form of the numerals that are read.

Underscores may stand anywhere among the digits, also before and behind them, as long as at least
one digit is left; only the point needs no digit behind it (`NumberText`). A text that begins with a
digit is read in full exactly if it has this form and an integer is in range
(`readNumeral_eq_ok_iff`).
-/

import Scriptorium.Proofs.Decimal.Form
import Scriptorium.Proofs.Literal.Numeral

namespace Scriptorium.Literal

open Decimal (IsDigits ending? ofChars? ofParts)

variable {whole fraction exponent rest s t : List Char} {v : Literal}

/-! ### The form -/

/-- A mark of either case with a sign or none and digits behind it, or nothing. -/
def IsPowerRun (s : List Char) : Prop :=
  s = [] ∨ ∃ mark sign digits, s = mark :: (sign ++ digits) ∧ (mark = 'e' ∨ mark = 'E') ∧
    (sign = [] ∨ sign = ['+'] ∨ sign = ['-']) ∧ IsRun 10 digits

/-- The parts of a numeral with a point or an exponent. -/
structure NumeralForm (whole fraction exponent : List Char) : Prop where
  isRun : IsRun 10 whole
  isFraction : IsFraction fraction
  isPowerRun : IsPowerRun exponent
  fractional : fraction ++ exponent ≠ []

/-- The texts that are numbers without a sign: integers in range, in decimal digits or behind the
mark of a base, and numerals with a point or an exponent. -/
inductive NumberText : List Char → Prop where
  | whole {s : List Char} :
      IsRun 10 s → Text.ofDigits 10 (s.filter (· != '_')) < intBound → NumberText s
  | based {c : Char} {base : Nat} {s : List Char} :
      (c, base) ∈ baseMarks → IsRun base s →
      Text.ofDigits base (s.filter (· != '_')) < intBound → NumberText ('0' :: c :: s)
  | fractional {whole fraction exponent : List Char} :
      NumeralForm whole fraction exponent → NumberText (whole ++ fraction ++ exponent)

/-! ### Extent -/

theorem fractionOf_append (h : IsFraction fraction)
    (ht : ∀ c ∈ t.head?, isDigitPart c = false ∧ c ≠ '.') :
    fractionOf (fraction ++ t) = fraction := by
  rcases h with rfl | ⟨digits, rfl, hdigits⟩
  · rw [List.nil_append]
    unfold fractionOf
    split
    · exact absurd rfl (ht '.' rfl).2
    · rfl
  · rw [List.cons_append, fractionOf, Text.takeWhile_append hdigits fun c hc => (ht c hc).1]

theorem signOf_append {sign digits : List Char}
    (hsign : sign = [] ∨ sign = ['+'] ∨ sign = ['-']) (hdigits : IsRun 10 digits) :
    signOf (sign ++ (digits ++ rest)) = sign := by
  rcases hsign with rfl | rfl | rfl
  · match digits, hdigits.ne_nil with
    | d :: _, _ =>
      have hd := hdigits.isDigitPart d List.mem_cons_self
      have hplain : ¬(d = '+' ∨ d = '-') := by
        rintro (rfl | rfl) <;> exact absurd hd (by decide)
      simp [signOf, hplain]
  · rfl
  · rfl

theorem exponentOf_append (h : IsPowerRun exponent) (hrest : Severs rest) :
    exponentOf (exponent ++ rest) = exponent := by
  rcases h with rfl | ⟨mark, sign, digits, rfl, hmark, hsign, hdigits⟩
  · exact hrest.exponentOf_eq
  · have hread : signOf (sign ++ (digits ++ rest)) = sign := signOf_append hsign hdigits
    have hrun := Text.takeWhile_append hdigits.isDigitPart hrest.isDigitPart_head
    rw [List.cons_append, List.append_assoc, exponentOf, if_pos hmark, hread, List.drop_left, hrun]

theorem IsPowerRun.head (h : IsPowerRun exponent) : ∀ c ∈ exponent.head?, c = 'e' ∨ c = 'E' := by
  rcases h with rfl | ⟨mark, sign, digits, rfl, hmark, _⟩
  · simp
  · simpa using hmark

theorem plain_of_mark {c : Char} (h : c = 'e' ∨ c = 'E') :
    isDigitPart c = false ∧ c ≠ '.' ∧ baseOf? c = none := by
  rcases h with rfl | rfl <;> decide

/-- Neither digits nor a point go on behind the exponent, or behind the place where it would be. -/
theorem head_behind_fraction (h : IsPowerRun exponent) (hrest : Severs rest) :
    ∀ c ∈ (exponent ++ rest).head?, isDigitPart c = false ∧ c ≠ '.' := by
  intro c hc
  cases exponent with
  | nil => exact ⟨hrest.isDigitPart_head c hc, (hrest c hc).2.1⟩
  | cons mark u =>
    obtain ⟨hpart, hpoint, _⟩ := plain_of_mark (h.head c hc)
    exact ⟨hpart, hpoint⟩

/-- The digits before the point end there, and what stands behind them marks no base. -/
theorem NumeralForm.head_behind_whole (h : NumeralForm whole fraction exponent) :
    ∀ c ∈ (fraction ++ (exponent ++ rest)).head?, isDigitPart c = false ∧ baseOf? c = none := by
  intro c hc
  rcases h.isFraction with rfl | ⟨digits, rfl, _⟩
  · have hne : exponent ≠ [] := h.fractional
    rw [List.nil_append, List.head?_append_of_ne_nil _ hne] at hc
    obtain ⟨hpart, _, hbase⟩ := plain_of_mark (h.isPowerRun.head c hc)
    exact ⟨hpart, hbase⟩
  · cases hc
    exact ⟨rfl, rfl⟩

theorem NumeralForm.decimalSplit (h : NumeralForm whole fraction exponent) (hrest : Severs rest) :
    DecimalSplit (whole ++ (fraction ++ (exponent ++ rest))) whole fraction exponent rest where
  eq := rfl
  whole_eq := Text.takeWhile_append h.isRun.isDigitPart fun c hc => (h.head_behind_whole c hc).1
  fraction_eq := fractionOf_append h.isFraction (head_behind_fraction h.isPowerRun hrest)
  exponent_eq := exponentOf_append h.isPowerRun hrest

/-! ### Values -/

theorem isDigit_of_mem_filter (h : ∀ c ∈ s, isDigitPart c = true) :
    ∀ c ∈ s.filter (· != '_'), c.isDigit = true := by
  intro c hc
  obtain ⟨hc, hne⟩ := List.mem_filter.mp hc
  have hpart := h c hc
  simp only [isDigitPart, Bool.or_eq_true, beq_iff_eq] at hpart
  exact hpart.resolve_right (bne_iff_ne.mp hne)

theorem IsRun.isDigits (h : IsRun 10 s) : IsDigits (s.filter (· != '_')) :=
  ⟨h.filter_spec.1, isDigit_of_mem_filter h.isDigitPart⟩

/-- Without underscores, the text of a numeral is read as the decimal of its parts, if the exponent
has a number. -/
theorem ofChars?_filter (hwhole : IsRun 10 whole) (hfraction : IsFraction fraction)
    (hexponent : ∀ c ∈ exponent.head?, c = 'e' ∨ c = 'E') :
    ofChars? ((whole ++ fraction ++ exponent).filter (· != '_')) =
      (ending? (exponent.filter (· != '_'))).map
        (ofParts (whole.filter (· != '_')) (fraction.filter (· != '_'))) := by
  rw [List.filter_append, List.filter_append]
  refine Decimal.ofChars?_append hwhole.isDigits ?_ ?_
  · rcases hfraction with rfl | ⟨digits, rfl, hdigits⟩
    · exact .inl rfl
    · exact .inr ⟨_, rfl, isDigit_of_mem_filter hdigits⟩
  · cases exponent with
    | nil => simp
    | cons mark u =>
      have hmark := hexponent mark rfl
      have hne : mark ≠ '_' := by rcases hmark with rfl | rfl <;> decide
      simpa [hne] using hmark

theorem filter_sign {mark : Char} {sign digits : List Char} (hmark : mark = 'e' ∨ mark = 'E')
    (hsign : sign = [] ∨ sign = ['+'] ∨ sign = ['-']) :
    (mark :: (sign ++ digits)).filter (· != '_') = mark :: (sign ++ digits.filter (· != '_')) := by
  rcases hmark with rfl | rfl <;> rcases hsign with rfl | rfl | rfl <;> rfl

theorem NumeralForm.exists_decimal (h : NumeralForm whole fraction exponent) :
    ∃ d, ofChars? ((whole ++ fraction ++ exponent).filter (· != '_')) = some d := by
  rw [ofChars?_filter h.isRun h.isFraction h.isPowerRun.head]
  rcases h.isPowerRun with rfl | ⟨mark, sign, digits, rfl, hmark, hsign, hdigits⟩
  · exact ⟨_, rfl⟩
  · rw [filter_sign hmark hsign, ending?, if_pos hmark,
      Decimal.exponentValue?_append hsign hdigits.isDigits]
    exact ⟨_, rfl⟩

/-! ### Reading -/

/-- A numeral with a point or an exponent is read as the floating-point number next to it. -/
theorem NumeralForm.readNumeral_eq (h : NumeralForm whole fraction exponent) {d : Decimal}
    (hd : ofChars? ((whole ++ fraction ++ exponent).filter (· != '_')) = some d)
    (hrest : Severs rest) :
    readNumeral (whole ++ fraction ++ exponent ++ rest) =
      .ok (.float (d.toBinary64 false), rest) := by
  have hvalue : decimalOf (fraction ++ exponent ≠ []) (whole ++ fraction ++ exponent) =
      .ok (.float (d.toBinary64 false)) := by
    simp only [decimalOf, h.fractional, hd, ne_eq, not_false_eq_true, decide_true, if_true]
  rw [List.append_assoc, List.append_assoc,
    readNumeral_eq_readDecimal h.isRun.ne_nil h.isRun.isDigitPart
      fun c hc => (h.head_behind_whole c hc).2,
    readDecimal_of_split (h.decimalSplit hrest), hrest.takeWhile_eq, if_neg (by simp), hvalue]
  rfl

/-- What has the form of a number is read in full. -/
theorem NumberText.exists_readNumeral (h : NumberText s) : ∃ v, readNumeral s = .ok (v, []) := by
  cases h with
  | whole hrun hbound =>
    have hread := readDecimal_run hrun severs_nil
    rw [← readNumeral_eq_readDecimal hrun.ne_nil hrun.isDigitPart (by simp), List.append_nil, intOf,
      if_pos hbound] at hread
    exact ⟨_, hread⟩
  | @based c base s hmark hrun hbound =>
    have hnumeral : readNumeral ('0' :: c :: s) = readBased base ['0', c] s := by
      simp only [readNumeral, baseOf?_of_mem hmark]
    have hread := @readBased_run base ['0', c] s [] hrun severs_nil
    rw [List.append_nil, ← hnumeral, intOf, if_pos hbound] at hread
    exact ⟨_, hread⟩
  | fractional hform =>
    obtain ⟨d, hd⟩ := hform.exists_decimal
    have hread := hform.readNumeral_eq hd severs_nil
    rw [List.append_nil] at hread
    exact ⟨_, hread⟩

/-! ### What is read -/

theorem mem_baseMarks_of_baseOf? {c : Char} {base : Nat} (h : baseOf? c = some base) :
    (c, base) ∈ baseMarks := by
  unfold baseOf? at h
  split at h <;> cases h <;> simp [baseMarks]

theorem isRun_of_basedOf {base : Nat} {digits : List Char} (h : basedOf base s digits = .ok v) :
    IsRun base digits ∧ Text.ofDigits base (digits.filter (· != '_')) < intBound := by
  simp only [basedOf] at h
  split at h
  · cases h
  rename_i hdigits
  simp only [Bool.or_eq_true, List.isEmpty_iff, Bool.not_eq_true', not_or,
    Bool.not_eq_false, List.all_eq_true] at hdigits
  exact ⟨.of_filter hdigits.1 hdigits.2, (intOf_eq_ok_iff.mp h).1⟩

theorem signOf_cases (s : List Char) : signOf s = [] ∨ signOf s = ['+'] ∨ signOf s = ['-'] := by
  cases s with
  | nil => exact .inl rfl
  | cons c s =>
    rw [signOf]
    split
    · rename_i hsign
      rcases hsign with rfl | rfl <;> simp
    · exact .inl rfl

/-- What is taken for an exponent has its form if it has a number without underscores. -/
theorem isPowerRun_exponentOf {e : Int}
    (h : ending? ((exponentOf s).filter (· != '_')) = some e) : IsPowerRun (exponentOf s) := by
  cases s with
  | nil => exact .inl rfl
  | cons mark u =>
    rw [exponentOf] at h ⊢
    split
    · rename_i hmark
      have hsign := signOf_cases u
      rw [if_pos hmark, filter_sign hmark hsign, ending?, if_pos hmark] at h
      have hdigits := isDigit_of_mem_filter
        (mem_takeWhile_isDigitPart (u.drop (signOf u).length))
      refine .inr ⟨mark, _, _, rfl, hmark, hsign, .of_filter ?_ fun c hc => ?_⟩
      · intro hnone
        rw [hnone, List.append_nil] at h
        rcases hsign with hsign | hsign | hsign <;> rw [hsign] at h <;> cases h
      · rw [isDigitOf_ten]
        exact hdigits c hc
    · exact .inl rfl

theorem head_exponentOf (s : List Char) : ∀ c ∈ (exponentOf s).head?, c = 'e' ∨ c = 'E' := by
  cases s with
  | nil => simp [exponentOf]
  | cons mark u =>
    rw [exponentOf]
    split
    · simpa
    · simp

/-- The parts that are taken have the form of a numeral if they are a decimal. -/
theorem DecimalSplit.numeralForm {d : Decimal} (h : DecimalSplit s whole fraction exponent rest)
    (hwhole : IsRun 10 whole) (hfractional : fraction ++ exponent ≠ [])
    (hd : ofChars? ((whole ++ fraction ++ exponent).filter (· != '_')) = some d) :
    NumeralForm whole fraction exponent := by
  have hfraction : IsFraction fraction := h.fraction_eq ▸ isFraction_fractionOf _
  have hhead : ∀ c ∈ exponent.head?, c = 'e' ∨ c = 'E' := h.exponent_eq ▸ head_exponentOf _
  rw [ofChars?_filter hwhole hfraction hhead, Option.map_eq_some_iff] at hd
  obtain ⟨e, he, -⟩ := hd
  rw [← h.exponent_eq] at he
  exact ⟨hwhole, hfraction, h.exponent_eq ▸ isPowerRun_exponentOf he, hfractional⟩

theorem numberText_of_readDecimal {c : Char} (hc : c.isDigit = true)
    (h : readDecimal (c :: s) = .ok (v, [])) : NumberText (c :: s) := by
  obtain ⟨whole, fraction, exponent, hsplit, _, hvalue⟩ := exists_split_of_readDecimal h
  have heq : c :: s = whole ++ fraction ++ exponent := by
    rw [hsplit.eq, List.append_nil, List.append_assoc]
  have hwhole : IsRun 10 whole := by
    rw [← hsplit.whole_eq]
    refine ⟨fun a ha => isDigitPart_iff.mp (mem_takeWhile_isDigitPart _ a ha), c, ?_, ?_⟩
    · simp [isDigitPart, hc]
    · rintro rfl
      exact absurd hc (by decide)
  by_cases hfractional : fraction ++ exponent = []
  · rw [List.append_assoc, hfractional, List.append_nil] at heq hvalue
    simp only [decimalOf, ne_eq, not_true, decide_false, Bool.false_eq_true, if_false] at hvalue
    split at hvalue
    · cases hvalue
    · exact heq ▸ .whole hwhole (intOf_eq_ok_iff.mp hvalue).1
  · simp only [decimalOf, hfractional, ne_eq, not_false_eq_true, decide_true, if_true] at hvalue
    split at hvalue
    · rename_i d hd
      exact heq ▸ .fractional (hsplit.numeralForm hwhole hfractional hd)
    · cases hvalue

/-- **The form of numbers.** A text that begins with a digit is read in full as a number exactly if
it has the form of one. -/
theorem readNumeral_eq_ok_iff {c : Char} (hc : c.isDigit = true) :
    (∃ v, readNumeral (c :: s) = .ok (v, [])) ↔ NumberText (c :: s) := by
  refine ⟨fun ⟨v, h⟩ => ?_, NumberText.exists_readNumeral⟩
  unfold readNumeral at h
  split at h
  · rename_i mark digits heq
    split at h
    · rename_i base hbase
      obtain ⟨run, hrun, hdrop, hvalue⟩ := basedOf_of_readBased h
      have hsplit := List.takeWhile_append_dropWhile (p := fun c => c.isAlphanum || c == '_')
        (l := digits)
      rw [hrun, hdrop, List.append_nil] at hsplit
      subst hsplit
      obtain ⟨hrun, hbound⟩ := isRun_of_basedOf hvalue
      exact heq ▸ .based (mem_baseMarks_of_baseOf? hbase) hrun hbound
    · exact numberText_of_readDecimal hc h
  · exact numberText_of_readDecimal hc h

end Scriptorium.Literal
