/-
A source that is read as a literal mentions no name but those of the constants, unless a word that
begins with an underscore stands behind a sign.

The reader takes one lexeme or a few at each step; for each of its parts it is said which ones.
Behind a sign it looks for no digit and drops underscores, so that such a word may be taken for a
number.
-/

import Scriptorium.Proofs.Literal.Lexeme
import Scriptorium.Proofs.Literal.Spelling

namespace Scriptorium.Literal

open Text (isDigitOf isLetter isWordChar)

/-! ### Strings -/

theorem isDigitOf_take_of_readCodePoint {digits s : List Char} {count : Nat} {d : Char}
    (h : readCodePoint digits count s = .ok d) : ∀ a ∈ s.take count, isDigitOf 16 a = true := by
  induction count generalizing digits s with
  | zero => simp
  | succ count ih =>
    cases s with
    | nil => cases h
    | cons c s =>
      by_cases hc : isDigitOf 16 c = true
      · rw [List.take_succ_cons, List.forall_mem_cons]
        exact ⟨hc, ih ((if_pos hc).symm.trans h)⟩
      · cases (if_neg hc).symm.trans h

theorem isDigitOf_sixteen {c : Char} (h : isDigitOf 8 c = true) : isDigitOf 16 c = true := by
  obtain ⟨d, hd, hlt⟩ := isDigitOf_iff.mp h
  exact isDigitOf_iff.mpr ⟨d, hd, by omega⟩

theorem isDigitOf_take_octalRun (s : List Char) :
    ∀ a ∈ s.take (octalRun 2 s).length, isDigitOf 16 a = true := by
  have hrun : s.take (octalRun 2 s).length = octalRun 2 s := by
    have hbegin : octalRun 2 s <+: s :=
      (List.takeWhile_prefix _).trans (List.take_prefix 2 s)
    exact (List.prefix_iff_eq_take.mp hbegin).symm
  rw [hrun]
  intro a ha
  exact isDigitOf_sixteen (List.all_eq_true.mp List.all_takeWhile a ha)

/-- The characters that belong to an escape are digits. -/
theorem isDigitOf_take_of_readEscape {c : Char} {s text : List Char} {used : Nat}
    (h : readEscape c s = .ok (text, used)) : ∀ a ∈ s.take used, isDigitOf 16 a = true := by
  have hcode {count : Nat} (h : (readCodePoint [] count s).map (fun d => ([d], count)) =
      .ok (text, used)) : ∀ a ∈ s.take used, isDigitOf 16 a = true := by
    cases hread : readCodePoint [] count s with
    | error fault =>
      rw [hread] at h
      cases h
    | ok d =>
      rw [hread] at h
      cases h
      exact isDigitOf_take_of_readCodePoint hread
  unfold readEscape at h
  split at h
  case h_12 => exact hcode h
  case h_13 => exact hcode h
  case h_14 => exact hcode h
  case h_15 =>
    split at h
    · cases h
      exact isDigitOf_take_octalRun s
    · cases h
      simp
  all_goals
    cases h
    simp

theorem dropBody_digits {form : PieceForm} (hquote : isQuote form.quote = true) {digits : List Char}
    (hdigits : ∀ a ∈ digits, isDigitOf 16 a = true) (s : List Char) :
    dropBody form (digits ++ s) = dropBody form s := by
  induction digits with
  | nil => rfl
  | cons a digits ih =>
    rw [List.forall_mem_cons] at hdigits
    have hword := Text.isWordChar_of_isAlphanum (isAlphanum_of_isDigitOf hdigits.1)
    have hne : a ≠ form.quote := by
      rintro rfl
      rw [isQuote_eq_false_of_isWordChar hword] at hquote
      cases hquote
    have hslash : a ≠ '\\' := by
      rintro rfl
      exact absurd hword (by decide)
    rw [List.cons_append, dropBody, if_neg hne, if_neg hslash, ih hdigits.2]

/-- The end of a body is found without regard to what the body says. -/
theorem dropBody_of_readBody {form : PieceForm} {done s text rest : List Char}
    (hquote : isQuote form.quote = true) (h : readBody form done s = .ok (text, rest)) :
    dropBody form s = rest := by
  fun_induction readBody form done s with
  | case1 => cases h
  | case2 done s tail hend =>
    cases h
    rw [dropBody, if_pos rfl, hend]
  | case3 done s hend ih =>
    rw [dropBody, if_pos rfl, hend]
    exact ih h
  | case4 => cases h
  | case5 => cases h
  | case6 done d s hraw hslash hend ih =>
    rw [dropBody, if_neg hslash, if_pos rfl]
    exact ih h
  | case7 => cases h
  | case8 done d s hraw piece used hescape hslash hend ih =>
    have hdigits := isDigitOf_take_of_readEscape hescape
    have hskip := dropBody_digits hquote hdigits (s.drop used)
    rw [List.take_append_drop] at hskip
    rw [dropBody, if_neg hslash, if_pos rfl, List.tail_cons, hskip]
    exact ih h
  | case9 done c s hc hend hslash ih =>
    rw [dropBody, if_neg hc, if_neg hslash]
    exact ih h

/-- The mark of a piece does not matter to where the piece ends. -/
theorem dropBody_of_not_raw (raw : Bool) {triple : Bool} {q : Char} (s : List Char) :
    dropBody ⟨raw, q, triple⟩ s = dropBody ⟨false, q, triple⟩ s := by
  fun_induction dropBody ⟨raw, q, triple⟩ s with
  | case1 => rw [dropBody]
  | case2 s rest hend =>
    rw [dropBody, if_pos rfl, show PieceForm.ending? ⟨false, q, triple⟩ s = some rest from hend]
  | case3 s hend ih =>
    rw [dropBody, if_pos rfl, show PieceForm.ending? ⟨false, q, triple⟩ s = none from hend, ih]
  | case4 s hc ih => rw [dropBody, if_neg hc, if_pos rfl, ih]
  | case5 c s hc hslash ih => rw [dropBody, if_neg hc, if_neg hslash, ih]

theorem readForm_of_not_raw {raw : Bool} {s body : List Char} {form : PieceForm}
    (h : readForm raw s = .ok (form, body)) :
    readForm false s = .ok (⟨false, form.quote, form.triple⟩, body) ∧
      s.head? = some form.quote := by
  unfold readForm at h ⊢
  split at h
  · cases h
  · split at h <;> cases h <;> simp_all
  · cases h
    simp

theorem dropPiece_of_readPiece {s text rest : List Char} (hpiece : atPiece s = true)
    (h : readPiece s = .ok (text, rest)) : dropPiece s = rest := by
  simp only [readPiece] at h
  split at h
  · split at h
    · cases h
    · rename_i form body hform
      obtain ⟨hread, hhead⟩ := readForm_of_not_raw hform
      have hquote : isQuote form.quote = true := by
        simp only [atPiece, hhead, Bool.and_eq_true, Option.any_some] at hpiece
        exact hpiece.2
      simp only [dropPiece, hread]
      rw [← dropBody_of_not_raw form.raw]
      exact dropBody_of_readBody hquote h
  · cases h

/-- Nothing but gaps and pieces of strings. -/
def IsString (ls : List Lexeme) : Prop :=
  ∀ l ∈ ls, l = .gap ∨ l = .quoted

theorem IsString.namesFrom_eq_nil {ls : List Lexeme} (h : IsString ls) (b : Before) :
    namesFrom b ls = [] := by
  induction ls generalizing b with
  | nil => rfl
  | cons l ls ih =>
    obtain ⟨hl, hls⟩ := List.forall_mem_cons.mp h
    rcases hl with rfl | rfl
    · exact ih hls _
    · exact ih hls _

theorem lexemes_readPieces {done s text rest : List Char} (hpiece : atPiece s = true)
    (h : readPieces done s = .ok (text, rest)) :
    ∃ ls, lexemes s = ls ++ lexemes rest ∧ IsString ls := by
  fun_induction readPieces done s with
  | case1 => cases h
  | case2 done s text rest hread next hnext ih =>
    obtain ⟨ls, hls, hstring⟩ := ih hnext h
    obtain ⟨n, hn⟩ := lexemes_skipTrivia rest
    refine ⟨.quoted :: (List.replicate n .gap ++ ls), ?_, ?_⟩
    · rw [lexemes_piece hpiece, dropPiece_of_readPiece hpiece hread, hn, hls]
      simp
    · intro l hl
      simp only [List.mem_cons, List.mem_append, List.mem_replicate] at hl
      rcases hl with rfl | ⟨_, rfl⟩ | hl
      · exact .inr rfl
      · exact .inl rfl
      · exact hstring l hl
  | case3 done s text tail hread next hnext =>
    cases h
    refine ⟨[.quoted], ?_, ?_⟩
    · rw [lexemes_piece hpiece, dropPiece_of_readPiece hpiece hread]
      rfl
    · intro l hl
      exact .inr (List.mem_singleton.mp hl)

/-! ### Numerals -/

/-- What a numeral without a sign begins with: a digit, or a point before a digit. -/
def beginsNumeral : List Char → Bool
  | [] => false
  | c :: s => c.isDigit || (c == '.' && s.head?.any Char.isDigit)

/-- Lexemes without names, unless an underscore stands behind a sign. -/
def Nameless (signed : Bool) (b : Before) (ls : List Lexeme) : Prop :=
  signedUnderscoreFrom signed ls = false → namesFrom b ls = []

theorem isDigit_or_of_isDigitPart {c : Char} (h : isDigitPart c = true) :
    c.isDigit = true ∨ c = '_' := by
  simpa [isDigitPart] using h

theorem beginsName_of_isDigit {c : Char} (h : c.isDigit = true) (w : List Char) :
    beginsName (c :: w) = false := by
  have hne : (c == '_') = false := by
    rw [beq_eq_false_iff_ne]
    rintro rfl
    exact absurd h (by decide)
  simp [beginsName, Text.isLetter_eq_false_of_isDigit h, hne]

theorem beginsNumeral_of_isDigitPart {c : Char} (h : isDigitPart c = true) (s : List Char) :
    beginsNumeral (c :: s) = c.isDigit := by
  have hpoint : (c == '.') = false := by
    rw [beq_eq_false_iff_ne]
    rintro rfl
    exact absurd h (by decide)
  simp [beginsNumeral, hpoint]

/-- A sign with the digits behind it, or nothing. -/
def IsSigned (s : List Char) : Prop :=
  s = [] ∨ ∃ c d, s = c :: d ∧ (c = '+' ∨ c = '-') ∧ ∀ a ∈ d, isDigitPart a = true

/-- A stretch of word characters up to a sign, or nothing. -/
def IsExponent (s : List Char) : Prop :=
  s = [] ∨ ∃ e w u, (e = 'e' ∨ e = 'E') ∧ s = e :: (w ++ u) ∧
    (∀ c ∈ w, isDigitPart c = true) ∧ IsSigned u

theorem isExponent_exponentOf (s : List Char) : IsExponent (exponentOf s) := by
  cases s with
  | nil => exact .inl rfl
  | cons c s =>
    rw [exponentOf]
    split
    · refine .inr ?_
      cases s with
      | nil => exact ⟨c, [], [], ‹_›, rfl, by simp, .inl rfl⟩
      | cons a s =>
        by_cases ha : a = '+' ∨ a = '-'
        · refine ⟨c, [], a :: s.takeWhile isDigitPart, ‹_›, ?_, by simp, .inr ⟨a, _, rfl, ha, ?_⟩⟩
          · simp [signOf, ha]
          · exact mem_takeWhile_isDigitPart s
        · refine ⟨c, (a :: s).takeWhile isDigitPart, [], ‹_›, ?_, ?_, .inl rfl⟩
          · simp [signOf, ha]
          · exact mem_takeWhile_isDigitPart _
    · exact .inl rfl

/-- Without digits before the exponent there is no number. -/
theorem decimalOf_of_noDigits {whole fraction exponent : List Char} {v : Literal}
    (h : decimalOf (fraction ++ exponent ≠ []) (whole ++ fraction ++ exponent) = .ok v)
    (hexponent : IsExponent exponent) :
    ¬(whole = [] ∧ (fraction = [] ∨ fraction = ['.'])) := by
  rintro ⟨rfl, hfraction⟩
  have hnone : Decimal.ofChars? ((fraction ++ exponent).filter (· != '_')) = none := by
    rcases hexponent with rfl | ⟨e, w, u, he, rfl, _⟩
    · rcases hfraction with rfl | rfl <;> rfl
    · rcases hfraction with rfl | rfl <;> rcases he with rfl | rfl <;>
        simp [Decimal.ofChars?, Decimal.digitRun, Decimal.fractionRun]
  simp only [decimalOf, List.nil_append] at h
  split at h
  · rw [hnone] at h
    cases h
  · rename_i hfractional
    rw [decide_eq_true_eq, Decidable.not_not] at hfractional
    rw [hfractional] at h
    cases h

/-- A decimal numeral has digits before its exponent and ends where no word goes on. -/
theorem parts_of_readDecimal {s rest : List Char} {v : Literal}
    (h : readDecimal s = .ok (v, rest)) :
    ∃ whole fraction exponent, s = whole ++ (fraction ++ (exponent ++ rest)) ∧
      (∀ c ∈ whole, isDigitPart c = true) ∧ IsFraction fraction ∧ IsExponent exponent ∧
      ¬(whole = [] ∧ (fraction = [] ∨ fraction = ['.'])) := by
  obtain ⟨whole, fraction, exponent, hsplit, _, hvalue⟩ := exists_split_of_readDecimal h
  have hexponent := isExponent_exponentOf (exponent ++ rest)
  rw [hsplit.exponent_eq] at hexponent
  refine ⟨whole, fraction, exponent, hsplit.eq, ?_, ?_, hexponent,
    decimalOf_of_noDigits hvalue hexponent⟩
  · rw [← hsplit.whole_eq]
    exact mem_takeWhile_isDigitPart s
  · rw [← hsplit.fraction_eq]
    exact isFraction_fractionOf _

theorem Nameless.append {signed : Bool} {b : Before} {ls ms : List Lexeme}
    (hls : Nameless signed b ls) (hms : ∀ b, Nameless false b ms) :
    Nameless signed b (ls ++ ms) := by
  intro h
  obtain ⟨hleft, hright⟩ := signedUnderscoreFrom_append h
  rw [namesFrom_append, hls hleft, hms _ hright]
  rfl

/-- A stretch of digits and underscores that is not taken for a name begins with a digit. -/
theorem isDigit_of_signedUnderscoreFrom {signed : Bool} {c : Char} {w : List Char}
    {ls : List Lexeme} (hc : isDigitPart c = true)
    (h : signedUnderscoreFrom signed (.word (c :: w) :: ls) = false)
    (hs : signed = true ∨ c.isDigit = true) : c.isDigit = true := by
  rcases isDigit_or_of_isDigitPart hc with hdigit | rfl
  · exact hdigit
  · rcases hs with rfl | hdigit
    · simp [signedUnderscoreFrom] at h
    · exact hdigit

/-- A sign is a lexeme of its own. -/
theorem lexemes_sign {c : Char} (hc : c = '+' ∨ c = '-') (s : List Char) :
    Breaks (c :: s) ∧ lexemes (c :: s) = .mark c :: lexemes s := by
  have hbreaks : Breaks (c :: s) := by
    rw [breaks_cons]
    rcases hc with rfl | rfl <;> decide
  have hsolid : isSolid c = true := by
    rcases hc with rfl | rfl <;> decide
  exact ⟨hbreaks, lexemes_mark hsolid hbreaks⟩

theorem signedUnderscoreFrom_sign {c : Char} (hc : c = '+' ∨ c = '-') (signed : Bool)
    (ls : List Lexeme) :
    signedUnderscoreFrom signed (.mark c :: ls) = signedUnderscoreFrom true ls := by
  rcases hc with rfl | rfl <;> rfl

theorem lexemes_signed {u rest : List Char} (h : IsSigned u) (hrest : Severs rest) :
    Breaks (u ++ rest) ∧
      ∃ ls, lexemes (u ++ rest) = ls ++ lexemes rest ∧ ∀ b, Nameless false b ls := by
  rcases h with rfl | ⟨c, d, rfl, hc, hd⟩
  · exact ⟨hrest.breaks, [], rfl, fun b _ => rfl⟩
  · have hword : ∀ a ∈ d, isWordChar a = true := fun a ha => isWordChar_of_isDigitPart (hd a ha)
    obtain ⟨hbreaks, hsign⟩ := lexemes_sign hc (d ++ rest)
    refine ⟨hbreaks, .mark c :: wordOf d, ?_, fun b hsigned => ?_⟩
    · rw [List.cons_append, hsign, lexemes_word hword hrest.breaks]
      rfl
    · cases d with
      | nil => rfl
      | cons a d =>
        rw [signedUnderscoreFrom_sign hc] at hsigned
        have ha := isDigit_of_signedUnderscoreFrom (hd a List.mem_cons_self) hsigned (.inl rfl)
        simp [namesFrom, wordOf, beginsName_of_isDigit ha]

theorem IsExponent.split {exponent : List Char} (h : IsExponent exponent) :
    ∃ w u, exponent = w ++ u ∧ (∀ c ∈ w, isWordChar c = true) ∧ IsSigned u := by
  rcases h with rfl | ⟨e, w, u, he, rfl, hw, hu⟩
  · exact ⟨[], [], rfl, by simp, .inl rfl⟩
  · refine ⟨e :: w, u, rfl, ?_, hu⟩
    rw [List.forall_mem_cons]
    refine ⟨?_, fun c hc => isWordChar_of_isDigitPart (hw c hc)⟩
    rcases he with rfl | rfl <;> decide

theorem isDigit_head_of_beginsNumeral {whole s : List Char}
    (hwhole : ∀ c ∈ whole, isDigitPart c = true) (hne : whole ≠ [])
    (h : beginsNumeral (whole ++ s) = true) : whole.head?.any Char.isDigit = true := by
  cases whole with
  | nil => exact absurd rfl hne
  | cons c whole =>
    rw [List.cons_append, beginsNumeral_of_isDigitPart (hwhole c List.mem_cons_self)] at h
    exact h

/-- The first digit of a numeral stands before its point or right behind it. -/
theorem isDigit_head_of_beginsNumeral_point {whole f s : List Char}
    (hwhole : ∀ c ∈ whole, isDigitPart c = true) (hne : ¬(whole = [] ∧ f = []))
    (h : beginsNumeral (whole ++ '.' :: (f ++ s)) = true) :
    (whole ++ f).head?.any Char.isDigit = true := by
  cases whole with
  | nil =>
    cases f with
    | nil => exact absurd ⟨rfl, rfl⟩ hne
    | cons c f => simpa [beginsNumeral] using h
  | cons c whole =>
    have hhead := isDigit_head_of_beginsNumeral hwhole (List.cons_ne_nil c whole) h
    exact hhead

/-- A whole part is no name, whatever goes on behind it. -/
theorem nameless_whole {signed : Bool} {whole : List Char} (w : List Char)
    (hwhole : ∀ c ∈ whole, isDigitPart c = true) (hne : whole ≠ [])
    (hs : signed = true ∨ whole.head?.any Char.isDigit = true) :
    Nameless signed .other (wordOf (whole ++ w)) := by
  intro h
  cases whole with
  | nil => exact absurd rfl hne
  | cons c whole =>
    have hdigit := isDigit_of_signedUnderscoreFrom (hwhole c List.mem_cons_self) h hs
    simp [wordOf, namesFrom, beginsName_of_isDigit hdigit]

/-- The whole part of a decimal numeral and its fraction hold no name. -/
theorem nameless_fraction {signed : Bool} {whole f : List Char} (w : List Char)
    (hwhole : ∀ c ∈ whole, isDigitPart c = true) (hf : ∀ c ∈ f, isDigitPart c = true)
    (hne : ¬(whole = [] ∧ f = []))
    (hs : signed = true ∨ (whole ++ f).head?.any Char.isDigit = true) :
    Nameless signed .other (wordOf whole ++ .mark '.' :: wordOf (f ++ w)) := by
  intro h
  cases whole with
  | nil =>
    cases f with
    | nil => exact absurd ⟨rfl, rfl⟩ hne
    | cons c f =>
      have hsigned : signedUnderscoreFrom signed [.word (c :: (f ++ w))] = false := by
        simpa [wordOf, signedUnderscoreFrom] using h
      have hdigit := isDigit_of_signedUnderscoreFrom (hf c List.mem_cons_self) hsigned hs
      simp [wordOf, namesFrom, beginsName_of_isDigit hdigit]
  | cons c whole =>
    have hdigit := isDigit_of_signedUnderscoreFrom (hwhole c List.mem_cons_self) h hs
    have hall : isWhole (c :: whole) = true := by
      simpa [isWhole, hdigit] using hwhole
    cases hword : f ++ w with
    | nil => simp [wordOf, namesFrom, beginsName_of_isDigit hdigit]
    | cons a more =>
      simp [wordOf, namesFrom, Before.next, beginsName_of_isDigit hdigit, hall]

/-- A decimal numeral holds no name, behind a sign or where it begins a value. -/
theorem lexemes_decimal {whole fraction exponent rest : List Char}
    (hwhole : ∀ c ∈ whole, isDigitPart c = true) (hfraction : IsFraction fraction)
    (hexponent : IsExponent exponent)
    (hdigits : ¬(whole = [] ∧ (fraction = [] ∨ fraction = ['.']))) (hrest : Severs rest)
    {signed : Bool}
    (hs : signed = true ∨ beginsNumeral (whole ++ (fraction ++ (exponent ++ rest))) = true) :
    ∃ ls, lexemes (whole ++ (fraction ++ (exponent ++ rest))) = ls ++ lexemes rest ∧
      Nameless signed .other ls := by
  obtain ⟨w, u, rfl, hw, hu⟩ := hexponent.split
  obtain ⟨hbreaks, tail, htail, hnameless⟩ := lexemes_signed hu hrest
  have hall {d : List Char} (hd : ∀ c ∈ d, isDigitPart c = true) :
      ∀ c ∈ d ++ w, isWordChar c = true := by
    intro c hc
    rcases List.mem_append.mp hc with hc | hc
    · exact isWordChar_of_isDigitPart (hd c hc)
    · exact hw c hc
  rcases hfraction with rfl | ⟨f, rfl, hf⟩
  · have hne : whole ≠ [] := fun hnil => hdigits ⟨hnil, .inl rfl⟩
    have hnumeral := nameless_whole w hwhole hne
      (hs.imp_right (isDigit_head_of_beginsNumeral hwhole hne))
    refine ⟨wordOf (whole ++ w) ++ tail, ?_, hnumeral.append hnameless⟩
    rw [List.append_assoc, List.nil_append, List.append_assoc, ← htail,
      ← lexemes_word (hall hwhole) hbreaks, List.append_assoc]
  · have hne : ¬(whole = [] ∧ f = []) := by
      rintro ⟨rfl, rfl⟩
      exact hdigits ⟨rfl, .inr rfl⟩
    have hnumeral := nameless_fraction w hwhole hf hne
      (hs.imp_right (isDigit_head_of_beginsNumeral_point hwhole hne))
    refine ⟨(wordOf whole ++ .mark '.' :: wordOf (f ++ w)) ++ tail, ?_, hnumeral.append hnameless⟩
    have hpoint : Breaks ('.' :: ((f ++ w) ++ (u ++ rest))) := breaks_cons.mpr (by decide)
    have htext : whole ++ ('.' :: f ++ (w ++ u ++ rest)) =
        whole ++ '.' :: ((f ++ w) ++ (u ++ rest)) := by simp
    rw [htext, lexemes_word (fun c hc => isWordChar_of_isDigitPart (hwhole c hc)) hpoint,
      lexemes_mark (by decide) hpoint, lexemes_word (hall hf) hbreaks, htail]
    simp

/-- What is read behind the mark of a base goes on with word characters. -/
theorem exists_word_of_readBased {base : Nat} {c : Char} {digits rest : List Char} {v : Literal}
    (hc : baseOf? c = some base) (h : readBased base ['0', c] digits = .ok (v, rest)) :
    ∃ w, c :: digits = w ++ rest ∧ ∀ a ∈ w, isWordChar a = true := by
  obtain ⟨run, rfl, rfl, _⟩ := basedOf_of_readBased h
  generalize hpart : (fun (c : Char) => c.isAlphanum || c == '_') = isPart
  refine ⟨c :: digits.takeWhile isPart, by simp, List.forall_mem_cons.mpr ⟨?_, ?_⟩⟩
  · exact Text.isWordChar_of_isAlpha (isAlpha_of_baseOf? hc)
  · intro a ha
    have hmem := List.all_eq_true.mp List.all_takeWhile a ha
    simp only [← hpart, Bool.or_eq_true, beq_iff_eq] at hmem
    rcases hmem with halnum | rfl
    · exact Text.isWordChar_of_isAlphanum halnum
    · decide

/-- A numeral with the mark of a base is one word. -/
theorem lexemes_readBased {base : Nat} {c : Char} {digits rest : List Char} {v : Literal}
    (hc : baseOf? c = some base) (h : readBased base ['0', c] digits = .ok (v, rest))
    (hrest : Severs rest) (signed : Bool) :
    ∃ ls, lexemes ('0' :: c :: digits) = ls ++ lexemes rest ∧ Nameless signed .other ls := by
  obtain ⟨w, hw, hall⟩ := exists_word_of_readBased hc h
  have hword : ∀ a ∈ '0' :: w, isWordChar a = true :=
    List.forall_mem_cons.mpr ⟨by decide, hall⟩
  refine ⟨wordOf ('0' :: w), ?_, fun _ => ?_⟩
  · rw [hw, ← lexemes_word hword hrest.breaks]
    rfl
  · simp [wordOf, namesFrom, beginsName_of_isDigit (c := '0') (by decide)]

theorem lexemes_readNumeral (signed : Bool) {s rest : List Char} {v : Literal}
    (h : readNumeral s = .ok (v, rest)) (hrest : Severs rest)
    (hs : signed = true ∨ beginsNumeral s = true) :
    ∃ ls, lexemes s = ls ++ lexemes rest ∧ Nameless signed .other ls := by
  have hdecimal (h : readDecimal s = .ok (v, rest)) :
      ∃ ls, lexemes s = ls ++ lexemes rest ∧ Nameless signed .other ls := by
    obtain ⟨whole, fraction, exponent, rfl, hwhole, hfraction, hexponent, hdigits⟩ :=
      parts_of_readDecimal h
    exact lexemes_decimal hwhole hfraction hexponent hdigits hrest hs
  unfold readNumeral at h
  split at h
  · split at h
    · exact lexemes_readBased ‹_› h hrest signed
    · exact hdecimal h
  · exact hdecimal h

/-! ### Values without parts -/

/-- Names of constants only, unless an underscore stands behind a sign. -/
def Sound (ls : List Lexeme) : Prop :=
  signedUnderscoreFrom false ls = false → ∀ w ∈ namesFrom .other ls, w ∈ constantNames

theorem Nameless.sound {ls : List Lexeme} (h : Nameless false .other ls) : Sound ls := by
  intro hsigned w hw
  rw [h hsigned] at hw
  cases hw

theorem lexemes_readWord {c : Char} {s rest : List Char} {v : Literal}
    (hpiece : atPiece (c :: s) = false) (hc : isLetter c = true ∨ c = '_')
    (h : readWord (c :: s) = .ok (v, rest)) :
    ∃ ls, lexemes (c :: s) = ls ++ lexemes rest ∧ Sound ls := by
  have hword : isWordChar c = true := by
    rcases hc with hletter | rfl
    · simp [isWordChar, Text.isAlphanumeric, hletter]
    · decide
  obtain ⟨hconstant, rfl⟩ := constant?_of_readWord h
  refine ⟨[.word ((c :: s).takeWhile isWordChar)], ?_, fun _ u hu => ?_⟩
  · rw [lexemes_solid (isSolid_of_isWordChar hword), hpiece, hword]
    rfl
  · generalize (c :: s).takeWhile isWordChar = word at hconstant hu
    have hmem : word ∈ constantNames := by
      simpa [constantNames] using constant?_eq_some hconstant
    simp only [namesFrom] at hu
    split at hu
    · rwa [List.mem_singleton.mp hu]
    · cases hu

theorem lexemes_readSigned {c : Char} {s rest : List Char} {v : Literal} {negative : Bool}
    (hc : c = '+' ∨ c = '-') (h : readSigned negative s = .ok (v, rest)) (hrest : Severs rest) :
    ∃ ls, lexemes (c :: s) = ls ++ lexemes rest ∧ Sound ls := by
  have hpoint : c ≠ '.' := by
    rcases hc with rfl | rfl <;> decide
  obtain ⟨w, hread, rfl⟩ := exists_of_readSigned h
  obtain ⟨n, hgaps⟩ := lexemes_skipTrivia s
  obtain ⟨ls, hls, hnameless⟩ := lexemes_readNumeral true hread hrest (.inl rfl)
  refine ⟨.mark c :: (List.replicate n .gap ++ ls), ?_, Nameless.sound fun hsigned => ?_⟩
  · rw [(lexemes_sign hc s).2, hgaps, hls]
    simp
  · rw [signedUnderscoreFrom_sign hc, signedUnderscoreFrom_gaps] at hsigned
    rw [namesFrom_cons]
    simp only [namesFrom, Before.next, if_pos hpoint, List.nil_append, namesFrom_gaps]
    exact hnameless hsigned

theorem lexemes_readAtom {s rest : List Char} {v : Literal} (h : readAtom s = .ok (v, rest))
    (hrest : Severs rest) : ∃ ls, lexemes s = ls ++ lexemes rest ∧ Sound ls := by
  cases atomForm_of_readAtom h with
  | signed hsign hread => exact lexemes_readSigned hsign hread hrest
  | numeral hsign hnumber hread =>
    obtain ⟨ls, hls, hnameless⟩ := lexemes_readNumeral false hread hrest (.inr hnumber)
    exact ⟨ls, hls, hnameless.sound⟩
  | pieces hsign hnumber hpiece hread =>
    obtain ⟨ls, hls, hstring⟩ := lexemes_readPieces hpiece hread
    exact ⟨ls, hls, Nameless.sound fun _ => hstring.namesFrom_eq_nil _⟩
  | word hsign hnumber hpiece hletter hread =>
    exact lexemes_readWord hpiece (by simpa using hletter) hread

/-! ### Whole sources -/

theorem Sound.append {ls : List Lexeme} {rest : List Char} (hls : Sound ls)
    (hrest : Sound (lexemes rest)) (hsevers : Severs rest) : Sound (ls ++ lexemes rest) := by
  intro h
  obtain ⟨hleft, hright⟩ := signedUnderscoreFrom_append h
  rw [namesFrom_append, namesFrom_of_severs hsevers]
  intro w hw
  rcases List.mem_append.mp hw with hw | hw
  · exact hls hleft w hw
  · exact hrest hright w hw

theorem Sound.of_skipTrivia {s : List Char} (h : Sound (lexemes (skipTrivia s))) :
    Sound (lexemes s) := by
  obtain ⟨n, hn⟩ := lexemes_skipTrivia s
  intro hsigned
  rw [hn, signedUnderscoreFrom_gaps] at hsigned
  rw [hn, namesFrom_gaps]
  exact h hsigned

/-- The marks of displays. -/
def isDisplayMark (c : Char) : Bool :=
  isPunctuation c || c == '[' || c == '(' || c == '\x7b'

/-- A mark of a display begins nothing else. -/
theorem plain_of_isDisplayMark {c : Char} (h : isDisplayMark c = true) :
    isSolid c = true ∧ isWordChar c = false ∧ isQuote c = false ∧ c ≠ '.' ∧
      ¬(c = '+' ∨ c = '-') := by
  simp only [isDisplayMark, Bool.or_eq_true, isPunctuation_iff, beq_iff_eq] at h
  rcases h with ((h | rfl) | rfl) | rfl
  · rcases h with rfl | rfl | rfl | rfl | rfl <;> decide
  all_goals decide

theorem Sound.mark {c : Char} {s : List Char} (hc : isDisplayMark c = true)
    (h : Sound (lexemes s)) : Sound (lexemes (c :: s)) := by
  obtain ⟨hsolid, hword, hquote, hpoint, _⟩ := plain_of_isDisplayMark hc
  rw [lexemes_mark hsolid (breaks_cons.mpr ⟨hword, hquote⟩)]
  intro hsigned
  have hsplit : signedUnderscoreFrom false ([.mark c] ++ lexemes s) = false := hsigned
  have htail := (signedUnderscoreFrom_append hsplit).2
  simpa [namesFrom, Before.next, hpoint] using h htail

/-- No token goes on where a mark of a display follows behind trivia. -/
theorem severs_of_stops {s : List Char} (h : Stops (skipTrivia s)) : Severs s := by
  cases s with
  | nil => exact severs_nil
  | cons c s =>
    by_cases hsolid : isSolid c = true
    · rw [skipTrivia_of_solid hsolid] at h
      exact (h.severs .nil).1
    · have hc : Text.isBlank c = true ∨ c = '#' ∨ c = '\\' := by
        simp only [isSolid, Bool.and_eq_true, Bool.not_eq_true', bne_iff_ne] at hsolid
        grind
      rcases hc with hblank | rfl | rfl
      · exact (Trivia.blank hblank .nil).severs_append (s := s) (by simp)
      · exact severs_cons.mpr (by decide)
      · exact severs_cons.mpr (by decide)

theorem isPunctuation_of_closing? {c : Char} {frames outer : List Frame} {v : Literal}
    (h : closing? c frames = some (v, outer)) : isPunctuation c = true := by
  have hc : c = ']' ∨ c = ')' ∨ c = '\x7d' := by
    cases frames with
    | nil => cases h
    | cons frame frames =>
      cases frame <;> simp only [closing?, Frame.closed?] at h <;> grind
  rcases hc with rfl | rfl | rfl <;> rfl

theorem isPunctuation_of_after {frame : Frame} {v : Literal} {c : Char}
    (h : frame.after v c ≠ .refuse) : isPunctuation c = true := by
  have hc : c = ',' ∨ c = ':' ∨ c = ']' ∨ c = ')' ∨ c = '\x7d' := by
    cases frame <;> simp only [Frame.after] at h <;> grind
  rcases hc with rfl | rfl | rfl | rfl | rfl <;> rfl

theorem isDisplayMark_of_opened? {c : Char} {frame : Frame} (h : Frame.opened? c = some frame) :
    isDisplayMark c = true := by
  unfold Frame.opened? at h
  split at h <;> first | rfl | cases h

theorem isDisplayMark_of_isPunctuation {c : Char} (h : isPunctuation c = true) :
    isDisplayMark c = true := by
  simp [isDisplayMark, h]

/-- A mark behind a value, with trivia before it, is no name and goes on with no token. -/
theorem Sound.behind {c : Char} {s rest : List Char} (h : Sound (lexemes rest))
    (hs : skipTrivia s = c :: rest) (hc : isPunctuation c = true) :
    Sound (lexemes s) ∧ Severs s := by
  constructor
  · refine .of_skipTrivia ?_
    rw [hs]
    exact h.mark (isDisplayMark_of_isPunctuation hc)
  · refine severs_of_stops ?_
    rw [hs]
    exact stops_cons hc

/-- What is accepted, at any stage and in any displays, is sound; behind a value no token goes
on. -/
theorem sound_of_run {stage : Stage} {frames : List Frame} {s rest : List Char} {v : Literal}
    (h : run stage frames s = .ok (v, rest)) (hrest : skipTrivia rest = []) :
    Sound (lexemes s) ∧ (stage ≠ .expect → Severs s) := by
  fun_induction run stage frames s with
  | case1 => cases h
  | case2 s frames c rest hs w outer hclosing ih =>
    refine ⟨.of_skipTrivia ?_, by simp⟩
    rw [hs]
    exact (ih h).1.mark (isDisplayMark_of_isPunctuation (isPunctuation_of_closing? hclosing))
  | case3 s frames c rest hs _ frame hopen ih =>
    refine ⟨.of_skipTrivia ?_, by simp⟩
    rw [hs]
    exact (ih h).1.mark (isDisplayMark_of_opened? hopen)
  | case4 => cases h
  | case5 s frames c rest hs _ _ w tail hatom ih =>
    obtain ⟨hsound, hsevers⟩ := ih h
    obtain ⟨ls, hls, hatom⟩ := lexemes_readAtom hatom (hsevers (by simp))
    refine ⟨.of_skipTrivia ?_, by simp⟩
    rw [hs, hls]
    exact hatom.append hsound (hsevers (by simp))
  | case6 s w =>
    cases h
    refine ⟨.of_skipTrivia ?_, fun _ => severs_of_stops ?_⟩
    · rw [hrest, lexemes_nil]
      intro _ w hw
      cases hw
    · simp [hrest, Stops]
  | case7 => cases h
  | case8 s w frame frames c rest hs closed hafter ih =>
    have hturn : frame.after w c ≠ .refuse := by simp [hafter]
    obtain ⟨hsound, hsevers⟩ := (ih h).1.behind hs (isPunctuation_of_after hturn)
    exact ⟨hsound, fun _ => hsevers⟩
  | case9 s w frame frames c rest hs next hafter ih =>
    have hturn : frame.after w c ≠ .refuse := by simp [hafter]
    obtain ⟨hsound, hsevers⟩ := (ih h).1.behind hs (isPunctuation_of_after hturn)
    exact ⟨hsound, fun _ => hsevers⟩
  | case10 => cases h

/-- **Names in accepted sources.** A source that is read as a literal mentions no names but those
of the constants, exactly if no word that begins with an underscore stands behind a sign. -/
theorem names_of_parse {source : String} {v : Literal} (h : parse source = .ok v) :
    (∀ w ∈ names source, w ∈ constantNames) ↔ signedUnderscore source = false := by
  constructor
  · intro hnames
    rw [Bool.eq_false_iff]
    intro hsigned
    obtain ⟨w, hw, hhead⟩ := exists_name_of_signedUnderscoreFrom (b := .other) hsigned (by simp)
    have hconstant := hnames w hw
    simp only [constantNames, List.mem_cons, List.not_mem_nil, or_false] at hconstant
    rcases hconstant with rfl | rfl | rfl <;> exact absurd hhead (by decide)
  · intro hsigned
    rw [parse] at h
    cases hrun : run .expect [] source.toList with
    | error fault =>
      simp [hrun] at h
    | ok found =>
      obtain ⟨w, rest⟩ := found
      simp only [hrun] at h
      cases hrest : skipTrivia rest with
      | nil => exact (sound_of_run hrun hrest).1 hsigned
      | cons c tail => simp [hrest] at h

theorem names_of_parse_list :
    parse "[None, 1]" = .ok (.list [.null, .int 1]) ∧
      ((∀ w ∈ names "[None, 1]", w ∈ constantNames) ↔ signedUnderscore "[None, 1]" = false) := by
  have hone : Spells (.value (.int 1)) ['1'] :=
    .int (.plain (.decimal (.digit (c := '1') (d := 1) (by decide) (by decide))) (by decide))
  have hlist : Spells (.value (.list [.null, .int 1])) "[None, 1]".toList :=
    .display (d := .list) Spells.null.bare (.item hone.spaced .noItems) (by simp)
  have hparse := parse_of_reads (reads_of_spells hlist.bare)
  exact ⟨hparse, names_of_parse hparse⟩

/-- Underscores behind a sign are dropped before the number is read. -/
theorem names_of_minus_underscore :
    parse "-_5" = .ok (.int (-5)) ∧ ∃ w ∈ names "-_5", w ∉ constantNames := by
  have hatom : readAtom ['-', '_', '5'] = .ok (.int (-5), []) := rfl
  have hrun : run .expect [] "-_5".toList = .ok (.int (-5), []) :=
    (run_expect_atom (c := '-') rfl rfl rfl hatom).trans run_got_nil
  have hsign : lexemes "-_5".toList = .mark '-' :: lexemes ['_', '5'] :=
    (lexemes_sign (.inr rfl) _).2
  have hword : lexemes (['_', '5'] ++ []) = [.word ['_', '5']] ++ lexemes [] :=
    lexemes_word (List.all_eq_true.mp rfl) (by simp [Breaks])
  rw [lexemes_nil] at hword
  refine ⟨parse_of_run hrun rfl, ['_', '5'], ?_, by decide⟩
  rw [names, hsign]
  exact hword ▸ List.mem_singleton_self _

end Scriptorium.Literal
