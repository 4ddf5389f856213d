/-
The floating-point numerals of a source.

They are found without regard to what the source denotes: strings, words, marks and trivia are set
aside, and of the numerals that are left those count that have a point or an exponent. Where the
reader accepts a value without parts, what it has taken holds the numeral of that value and no
other.
-/

import Scriptorium.Proofs.Decimal.Range
import Scriptorium.Proofs.Literal.Names

namespace Scriptorium.Literal

open Text (isWordChar)

/-! ### One numeral -/

/-- The decimal numeral at the beginning of a text. -/
def numeralOf (s : List Char) : List Char :=
  let whole := s.takeWhile isDigitPart
  let fraction := fractionOf (s.drop whole.length)
  whole ++ fraction ++ exponentOf (s.drop (whole ++ fraction).length)

/-- What stands behind the numeral and the digits of another base. -/
def dropNumeral (s : List Char) : List Char :=
  (s.drop (numeralOf s).length).dropWhile isWordChar

/-- The number of a numeral that has a point or an exponent. -/
def float? (numeral : List Char) : Option Decimal :=
  if numeral.all isDigitPart then none else Decimal.ofChars? (numeral.filter (· != '_'))

theorem length_dropNumeral_le (s : List Char) : (dropNumeral s).length ≤ s.length := by
  have hword := (List.dropWhile_sublist (l := s.drop (numeralOf s).length) isWordChar).length_le
  simp only [List.length_drop] at hword
  unfold dropNumeral
  omega

theorem length_dropNumeral_lt {s : List Char} (h : beginsNumeral s = true) :
    (dropNumeral s).length < s.length := by
  have hne : 0 < (numeralOf s).length := by
    cases s with
    | nil => cases h
    | cons c s =>
      by_cases hdigit : c.isDigit = true
      · have hpart : isDigitPart c = true := by simp [isDigitPart, hdigit]
        simp [numeralOf, hpart]
      · have hc : c = '.' := by
          simp only [beginsNumeral, hdigit, Bool.false_or, Bool.and_eq_true, beq_iff_eq] at h
          exact h.1
        subst hc
        have hpart : isDigitPart '.' = false := rfl
        simp [numeralOf, hpart, fractionOf]
  have hword := (List.dropWhile_sublist (l := s.drop (numeralOf s).length) isWordChar).length_le
  have hs : 0 < s.length := by
    cases s with
    | nil => cases h
    | cons c s => simp
  simp only [List.length_drop] at hword
  unfold dropNumeral
  omega

/-- What a numeral without a sign is read as, by the number it has if it is a floating-point one. -/
inductive IsNumber : Option Decimal → Literal → Prop where
  | int {n : Nat} : n < intBound → IsNumber none (.int (Int64.ofNat n))
  | float (d : Decimal) : IsNumber (some d) (.float (d.toBinary64 false))

variable {s rest : List Char} {v : Literal}

theorem isNumber_of_intOf {text : List Char} {n : Nat} (h : intOf text n = .ok v) :
    IsNumber none v := by
  obtain ⟨hn, rfl⟩ := intOf_eq_ok_iff.mp h
  exact .int hn

theorem DecimalSplit.numeralOf_eq {whole fraction exponent : List Char}
    (h : DecimalSplit s whole fraction exponent rest) :
    numeralOf s = whole ++ fraction ++ exponent := by
  obtain ⟨rfl, hwhole, hfraction, hexponent⟩ := h
  have hdrop : (whole ++ (fraction ++ (exponent ++ rest))).drop (whole ++ fraction).length =
      exponent ++ rest := by
    rw [← List.append_assoc, List.drop_left]
  simp only [numeralOf, hwhole, List.drop_left, hfraction, hdrop, hexponent]

/-- Only a numeral without a point and an exponent is made of digits alone. -/
theorem DecimalSplit.all_isDigitPart_iff {whole fraction exponent : List Char}
    (h : DecimalSplit s whole fraction exponent rest) :
    (whole ++ fraction ++ exponent).all isDigitPart = true ↔ fraction ++ exponent = [] := by
  have hwhole : whole.all isDigitPart = true := by
    rw [← h.whole_eq]
    exact List.all_takeWhile
  have hfraction : fraction.all isDigitPart = true ↔ fraction = [] := by
    rcases h.fraction_eq ▸ isFraction_fractionOf _ with rfl | ⟨f, rfl, _⟩
    · simp
    · simp [show isDigitPart '.' = false from rfl]
  have hexponent : exponent.all isDigitPart = true ↔ exponent = [] := by
    rcases h.exponent_eq ▸ isExponent_exponentOf _ with rfl | ⟨e, w, u, he, rfl, _⟩
    · simp
    · rcases he with rfl | rfl
      · simp [show isDigitPart 'e' = false from rfl]
      · simp [show isDigitPart 'E' = false from rfl]
  rw [List.all_append, List.all_append, hwhole, Bool.true_and, Bool.and_eq_true, hfraction,
    hexponent, List.append_eq_nil_iff]

theorem isNumber_of_decimalOf {fractional : Bool} {text : List Char}
    (h : decimalOf fractional text = .ok v) (hall : text.all isDigitPart = !fractional) :
    IsNumber (float? text) v := by
  cases fractional with
  | true =>
    rw [float?, hall, if_neg (by simp)]
    simp only [decimalOf, if_true] at h
    split at h
    · rename_i d hd
      cases h
      rw [hd]
      exact .float d
    · cases h
  | false =>
    rw [float?, hall, if_pos (by simp)]
    simp only [decimalOf, Bool.false_eq_true, if_false] at h
    split at h
    · cases h
    · exact isNumber_of_intOf h

theorem isNumber_of_readDecimal (h : readDecimal s = .ok (v, rest)) :
    dropNumeral s = rest ∧ IsNumber (float? (numeralOf s)) v := by
  obtain ⟨whole, fraction, exponent, hsplit, hword, hvalue⟩ := exists_split_of_readDecimal h
  constructor
  · have hrest := List.takeWhile_append_dropWhile (p := isWordChar) (l := rest)
    rw [hword, List.nil_append] at hrest
    rw [dropNumeral, hsplit.numeralOf_eq, hsplit.eq, ← List.append_assoc, ← List.append_assoc,
      List.drop_left, hrest]
  · rw [hsplit.numeralOf_eq]
    refine isNumber_of_decimalOf hvalue ?_
    rw [Bool.eq_iff_iff, hsplit.all_isDigitPart_iff]
    simp

/-- A numeral with the mark of a base is a zero with word characters behind it. -/
theorem isNumber_of_readBased {base : Nat} {c : Char} {digits : List Char}
    (hc : baseOf? c = some base) (h : readBased base ['0', c] digits = .ok (v, rest))
    (hrest : Severs rest) :
    dropNumeral ('0' :: c :: digits) = rest ∧
      IsNumber (float? (numeralOf ('0' :: c :: digits))) v := by
  have halpha := isAlpha_of_baseOf? hc
  have hnumeral : numeralOf ('0' :: c :: digits) = ['0'] := by
    have hzero : isDigitPart '0' = true := rfl
    have hpart : isDigitPart c = false := by
      unfold baseOf? at hc
      split at hc <;> first | rfl | cases hc
    have hpoint : c ≠ '.' := by
      rintro rfl
      cases hc
    have hmark : ¬(c = 'e' ∨ c = 'E') := by
      rintro (rfl | rfl) <;> cases hc
    simp [numeralOf, hzero, hpart, fractionOf, exponentOf, hpoint, hmark]
  constructor
  · obtain ⟨w, hw, hall⟩ := exists_word_of_readBased hc h
    have hstop : ∀ a ∈ rest.head?, isWordChar a = false := fun a ha => (hrest a ha).1
    rw [dropNumeral, hnumeral, hw]
    exact Text.dropWhile_append hall hstop
  · obtain ⟨run, _, _, hvalue⟩ := basedOf_of_readBased h
    have hfloat : float? ['0'] = none := rfl
    rw [hnumeral, hfloat]
    simp only [basedOf] at hvalue
    split at hvalue
    · cases hvalue
    · exact isNumber_of_intOf hvalue

theorem isNumber_of_readNumeral (h : readNumeral s = .ok (v, rest)) (hrest : Severs rest) :
    dropNumeral s = rest ∧ IsNumber (float? (numeralOf s)) v := by
  unfold readNumeral at h
  split at h
  · split at h
    · exact isNumber_of_readBased ‹_› h hrest
    · exact isNumber_of_readDecimal h
  · exact isNumber_of_readDecimal h

/-! ### The numerals of a source -/

/-- The floating-point numerals of a source, in order, each with whether it is behind a minus
sign. -/
def floatNumerals (s : List Char) : List (Bool × Decimal) :=
  match _hs : skipTrivia s with
  | [] => []
  | c :: rest =>
    if c = '+' ∨ c = '-' then
      let numeral := skipTrivia rest
      ((float? (numeralOf numeral)).map (c == '-', ·)).toList ++ floatNumerals (dropNumeral numeral)
    else if _hnumeral : beginsNumeral (c :: rest) then
      ((float? (numeralOf (c :: rest))).map (false, ·)).toList ++
        floatNumerals (dropNumeral (c :: rest))
    else if atPiece (c :: rest) then floatNumerals (dropPiece (c :: rest))
    else if isWordChar c then floatNumerals (rest.dropWhile isWordChar)
    else floatNumerals rest
termination_by s.length
decreasing_by
  all_goals
    have hskip := length_skipTrivia_le s
    rw [_hs, List.length_cons] at hskip
  · have := length_dropNumeral_le (skipTrivia rest)
    have := length_skipTrivia_le rest
    omega
  · have := length_dropNumeral_lt _hnumeral
    simp only [List.length_cons] at this
    omega
  · have := length_dropPiece_lt (List.cons_ne_nil c rest)
    simp only [List.length_cons] at this
    omega
  · have := (List.dropWhile_sublist (l := rest) isWordChar).length_le
    omega
  · omega

theorem floatNumerals_nil (h : skipTrivia s = []) : floatNumerals s = [] := by
  rw [floatNumerals]
  split
  · rfl
  · rename_i heq
    rw [h] at heq
    cases heq

theorem floatNumerals_cons {c : Char} (h : skipTrivia s = c :: rest) :
    floatNumerals s =
      if c = '+' ∨ c = '-' then
        ((float? (numeralOf (skipTrivia rest))).map (c == '-', ·)).toList ++
          floatNumerals (dropNumeral (skipTrivia rest))
      else if beginsNumeral (c :: rest) then
        ((float? (numeralOf (c :: rest))).map (false, ·)).toList ++
          floatNumerals (dropNumeral (c :: rest))
      else if atPiece (c :: rest) then floatNumerals (dropPiece (c :: rest))
      else if isWordChar c then floatNumerals (rest.dropWhile isWordChar)
      else floatNumerals rest := by
  rw [floatNumerals]
  split
  · rename_i heq
    rw [h] at heq
    cases heq
  · rename_i heq
    rw [h] at heq
    cases heq
    rfl

/-- Trivia hold no numerals. -/
theorem floatNumerals_skipTrivia (s : List Char) :
    floatNumerals (skipTrivia s) = floatNumerals s := by
  cases hs : skipTrivia s with
  | nil => rw [floatNumerals_nil hs, floatNumerals_nil skipTrivia_nil]
  | cons c rest =>
    have hself : skipTrivia (c :: rest) = c :: rest := by rw [← hs, skipTrivia_skipTrivia]
    rw [floatNumerals_cons hs, floatNumerals_cons hself]

/-- Where no numeral begins, a string, a word or a single character is set aside. -/
theorem floatNumerals_of_not_numeral {c : Char} (hs : skipTrivia s = c :: rest)
    (hsign : ¬(c = '+' ∨ c = '-')) (hnumeral : beginsNumeral (c :: rest) = false) :
    floatNumerals s =
      if atPiece (c :: rest) then floatNumerals (dropPiece (c :: rest))
      else if isWordChar c then floatNumerals (rest.dropWhile isWordChar)
      else floatNumerals rest := by
  rw [floatNumerals_cons hs, if_neg hsign, if_neg (by simp [hnumeral])]

theorem beginsNumeral_eq_false {c : Char} (hdigit : c.isDigit = false) (hpoint : c ≠ '.')
    (s : List Char) : beginsNumeral (c :: s) = false := by
  simp [beginsNumeral, hdigit, hpoint]

/-- The marks of displays are no numerals. -/
theorem floatNumerals_mark {c : Char} (h : isDisplayMark c = true) (s : List Char) :
    floatNumerals (c :: s) = floatNumerals s := by
  obtain ⟨hsolid, hword, hquote, hpoint, hsign⟩ := plain_of_isDisplayMark h
  have hdigit : c.isDigit = false := by
    rw [Bool.eq_false_iff]
    intro hdigit
    rw [Text.isWordChar_of_isDigit hdigit] at hword
    cases hword
  have hpiece : atPiece (c :: s) = false :=
    atPiece_word (w := []) (by simp) (breaks_cons.mpr ⟨hword, hquote⟩)
  rw [floatNumerals_of_not_numeral (skipTrivia_of_solid hsolid s) hsign
    (beginsNumeral_eq_false hdigit hpoint s), hpiece, hword]
  rfl

/-! ### Values without parts -/

theorem floatNumerals_piece (h : atPiece s = true) :
    floatNumerals s = floatNumerals (dropPiece s) := by
  cases s with
  | nil => cases h
  | cons c s =>
    have hfacts : isSolid c = true ∧ ¬(c = '+' ∨ c = '-') ∧ c.isDigit = false ∧ c ≠ '.' := by
      rcases isAlpha_or_isQuote_of_atPiece h with halpha | hquote
      · refine ⟨isSolid_of_isWordChar (Text.isWordChar_of_isAlpha halpha), ?_, ?_, ?_⟩
        · rintro (rfl | rfl) <;> exact absurd halpha (by decide)
        · rw [Bool.eq_false_iff]
          intro hdigit
          rw [Text.isDigit_iff] at hdigit
          rw [Text.isAlpha_iff] at halpha
          omega
        · rintro rfl
          exact absurd halpha (by decide)
      · rcases isQuote_iff.mp hquote with rfl | rfl <;> decide
    obtain ⟨hsolid, hsign, hdigit, hpoint⟩ := hfacts
    rw [floatNumerals_of_not_numeral (skipTrivia_of_solid hsolid s) hsign
      (beginsNumeral_eq_false hdigit hpoint s), if_pos h]

/-- Strings hold no numerals. -/
theorem floatNumerals_readPieces {done text : List Char} (hpiece : atPiece s = true)
    (h : readPieces done s = .ok (text, rest)) : floatNumerals s = floatNumerals rest := by
  fun_induction readPieces done s with
  | case1 => cases h
  | case2 done s text rest hread next hnext ih =>
    rw [floatNumerals_piece hpiece, dropPiece_of_readPiece hpiece hread,
      ← floatNumerals_skipTrivia, ih hnext h]
  | case3 done s text tail hread next hnext =>
    cases h
    rw [floatNumerals_piece hpiece, dropPiece_of_readPiece hpiece hread]

theorem null_or_bool_of_constant? {word : List Char} (h : constant? word = some v) :
    v = .null ∨ ∃ b, v = .bool b := by
  rcases constant?_eq_some h with rfl | rfl | rfl <;> cases h <;> simp

/-- The word of a constant is no numeral. -/
theorem floatNumerals_readWord {c : Char} (hs : skipTrivia (c :: s) = c :: s)
    (hsign : ¬(c = '+' ∨ c = '-')) (hnumeral : beginsNumeral (c :: s) = false)
    (hpiece : atPiece (c :: s) = false) (hc : Text.isLetter c = true ∨ c = '_')
    (h : readWord (c :: s) = .ok (v, rest)) :
    floatNumerals (c :: s) = floatNumerals rest ∧ ∀ x, v ≠ .float x := by
  have hword : isWordChar c = true := by
    rcases hc with hletter | rfl
    · simp [isWordChar, Text.isAlphanumeric, hletter]
    · decide
  obtain ⟨hconstant, rfl⟩ := constant?_of_readWord h
  constructor
  · rw [floatNumerals_of_not_numeral hs hsign hnumeral, hpiece, hword,
      List.dropWhile_cons_of_pos hword]
    rfl
  · intro x
    rcases null_or_bool_of_constant? hconstant with rfl | ⟨b, rfl⟩ <;> simp

/-- A number is negated behind a minus sign, and so is its rounding. -/
theorem IsNumber.float_iff {n : Option Decimal} (h : IsNumber n v) (negative : Bool)
    (x : Binary64) :
    (∃ m ∈ (n.map (negative, ·)).toList, m.2.toBinary64 m.1 = x) ↔
      (if negative then negated v else v) = .float x := by
  cases h with
  | int hn => cases negative <;> simp [negated]
  | float d => cases negative <;> simp [negated, Decimal.toBinary64_true]

/-- What is read as a value without parts holds the numeral of that value and no other. -/
theorem floatNumerals_readAtom (hs : skipTrivia s = s) (h : readAtom s = .ok (v, rest))
    (hrest : Severs rest) (x : Binary64) :
    (∃ n ∈ floatNumerals s, n.2.toBinary64 n.1 = x) ↔
      v = .float x ∨ ∃ n ∈ floatNumerals rest, n.2.toBinary64 n.1 = x := by
  have hnone (hfloats : floatNumerals s = floatNumerals rest) (hv : ∀ x, v ≠ .float x) :
      (∃ n ∈ floatNumerals s, n.2.toBinary64 n.1 = x) ↔
        v = .float x ∨ ∃ n ∈ floatNumerals rest, n.2.toBinary64 n.1 = x := by
    rw [hfloats]
    exact (or_iff_right (hv x)).symm
  cases atomForm_of_readAtom h with
  | @signed c s _ _ hsign hsigned =>
    obtain ⟨w, hread, rfl⟩ := exists_of_readSigned hsigned
    obtain ⟨hdrop, hnumber⟩ := isNumber_of_readNumeral hread hrest
    rw [floatNumerals_cons hs, if_pos hsign, hdrop]
    simp only [List.mem_append, or_and_right, exists_or]
    exact or_congr (hnumber.float_iff (c == '-') x) Iff.rfl
  | @numeral c s _ _ hsign hnumeral hread =>
    obtain ⟨hdrop, hnumber⟩ := isNumber_of_readNumeral hread hrest
    have hbegins : beginsNumeral (c :: s) = true := hnumeral
    rw [floatNumerals_cons hs, if_neg hsign, if_pos hbegins, hdrop]
    simp only [List.mem_append, or_and_right, exists_or]
    exact or_congr (hnumber.float_iff false x) Iff.rfl
  | pieces hsign hnumeral hpiece hread =>
    exact hnone (floatNumerals_readPieces hpiece hread) (by simp)
  | word hsign hnumeral hpiece hletter hread =>
    obtain ⟨hfloats, hv⟩ :=
      floatNumerals_readWord hs hsign hnumeral hpiece (by simpa using hletter) hread
    exact hnone hfloats hv

end Scriptorium.Literal
