/-
Words without quotation marks, alone and between brackets.

No numeral and no word reaches over a line feed, so a word that stands before one is read as it is
read alone (`readAtom_append_feed`). A list with one such word is a list of one literal, or no list
at all (`parse_of_parseStrings_bareWord`).
-/

import Scriptorium.Proofs.Literal.Names
import Scriptorium.Proofs.Literal.NumeralForm
import Scriptorium.Proofs.Literal.Spelling
import Scriptorium.Literal.Strings

namespace Scriptorium.Literal

open Text (isLetter isWordChar)

variable {c : Char} {s t u w rest word : List Char} {v list : Literal} {items : List String}

/-! ### Numerals before a line feed -/

theorem isDigitPart_feed : isDigitPart '\n' = false := by decide

theorem isWordChar_feed : isWordChar '\n' = false := by decide

theorem fractionOf_append_feed (s t : List Char) : fractionOf (s ++ '\n' :: t) = fractionOf s := by
  cases s with
  | nil => rfl
  | cons c s =>
    by_cases hc : c = '.'
    · subst hc
      simp only [List.cons_append, fractionOf, Text.takeWhile_append_cons isDigitPart_feed]
    · simp [fractionOf, hc]

theorem signOf_append_feed (s t : List Char) : signOf (s ++ '\n' :: t) = signOf s := by
  cases s with
  | nil => simp [signOf]
  | cons c s => rfl

theorem exponentOf_append_feed (s t : List Char) : exponentOf (s ++ '\n' :: t) = exponentOf s := by
  cases s with
  | nil => simp [exponentOf]
  | cons c s =>
    have hdrop : (s ++ '\n' :: t).drop (signOf s).length =
        s.drop (signOf s).length ++ '\n' :: t :=
      List.drop_append_of_le_length (isPrefix_signOf s).length_le
    simp only [List.cons_append, exponentOf, signOf_append_feed, hdrop,
      Text.takeWhile_append_cons isDigitPart_feed]

theorem readDecimal_append_feed (s t : List Char) :
    readDecimal (s ++ '\n' :: t) =
      (readDecimal s).map fun (v, rest) => (v, rest ++ '\n' :: t) := by
  have hdrop {u : List Char} (hu : u <+: s) :
      (s ++ '\n' :: t).drop u.length = s.drop u.length ++ '\n' :: t :=
    List.drop_append_of_le_length hu.length_le
  have hwhole : s.takeWhile isDigitPart <+: s := List.takeWhile_prefix _
  have hfraction := isPrefix_append_drop hwhole (isPrefix_fractionOf _)
  have hexponent := isPrefix_append_drop hfraction (isPrefix_exponentOf _)
  simp only [readDecimal, Text.takeWhile_append_cons isDigitPart_feed, hdrop hwhole,
    fractionOf_append_feed, hdrop hfraction, exponentOf_append_feed, hdrop hexponent,
    Text.takeWhile_append_cons isWordChar_feed]
  split
  · rfl
  · cases decimalOf _ _ <;> rfl

theorem readBased_append_feed (base : Nat) (mark s t : List Char) :
    readBased base mark (s ++ '\n' :: t) =
      (readBased base mark s).map fun (v, rest) => (v, rest ++ '\n' :: t) := by
  have hfeed : (Char.isAlphanum '\n' || '\n' == '_') = false := by decide
  simp only [readBased, Text.takeWhile_append_cons (p := fun c => c.isAlphanum || c == '_') hfeed,
    Text.dropWhile_append_cons (p := fun c => c.isAlphanum || c == '_') hfeed]
  cases basedOf base _ _ <;> rfl

/-- A numeral ends before a line feed. -/
theorem readNumeral_append_feed (s t : List Char) :
    readNumeral (s ++ '\n' :: t) =
      (readNumeral s).map fun (v, rest) => (v, rest ++ '\n' :: t) := by
  have hdecimal := readDecimal_append_feed s t
  match s with
  | [] => exact hdecimal
  | [c] =>
    by_cases hc : c = '0'
    · subst hc
      exact hdecimal
    · simpa [readNumeral, hc] using hdecimal
  | c :: d :: digits =>
    by_cases hc : c = '0'
    · subst hc
      simp only [List.cons_append, readNumeral]
      cases baseOf? d with
      | none => exact hdecimal
      | some base => exact readBased_append_feed base _ digits t
    · simpa [readNumeral, hc] using hdecimal

/-! ### What is read of a numeral -/

theorem itemText_of_intOf {n : Nat} (h : intOf s n = .ok v) : itemText v = .ok v.text := by
  obtain ⟨_, rfl⟩ := intOf_eq_ok_iff.mp h
  rfl

theorem itemText_of_decimalOf {fractional : Bool} (h : decimalOf fractional s = .ok v) :
    itemText v = .ok v.text := by
  simp only [decimalOf] at h
  split at h
  · split at h <;> cases h
    rfl
  split at h
  · cases h
  · exact itemText_of_intOf h

theorem itemText_of_basedOf {base : Nat} {digits : List Char}
    (h : basedOf base s digits = .ok v) : itemText v = .ok v.text := by
  simp only [basedOf] at h
  split at h
  · cases h
  · exact itemText_of_intOf h

theorem itemText_of_readDecimal (h : readDecimal s = .ok (v, rest)) :
    itemText v = .ok v.text ∧ rest <:+ s := by
  obtain ⟨whole, fraction, exponent, hsplit, _, hvalue⟩ := exists_split_of_readDecimal h
  refine ⟨itemText_of_decimalOf hvalue, whole ++ fraction ++ exponent, ?_⟩
  rw [hsplit.eq, List.append_assoc, List.append_assoc]

theorem itemText_of_readBased {base : Nat} {mark digits : List Char}
    (h : readBased base mark digits = .ok (v, rest)) :
    itemText v = .ok v.text ∧ rest <:+ digits := by
  obtain ⟨run, _, rfl, hvalue⟩ := basedOf_of_readBased h
  exact ⟨itemText_of_basedOf hvalue, List.dropWhile_suffix _⟩

/-- A number is no string, so as an item it is taken in its source form. -/
theorem itemText_of_readNumeral (h : readNumeral s = .ok (v, rest)) :
    itemText v = .ok v.text ∧ rest <:+ s := by
  unfold readNumeral at h
  split at h
  · split at h
    · obtain ⟨hitem, hrest⟩ := itemText_of_readBased h
      exact ⟨hitem, hrest.trans (List.suffix_append ['0', _] _)⟩
    · exact itemText_of_readDecimal h
  · exact itemText_of_readDecimal h

/-! ### Words -/

/-- A character of a word without quotation marks: it is no blank, and neither sets a remark, a
string or another item apart. -/
def isBareChar (c : Char) : Bool :=
  isSolid c && !isQuote c && c != ','

/-- A text that stands for itself in a list: it begins like a word or a number, and it has no
blanks, quotation marks, commas, number signs or backslashes. -/
structure IsBareWord (w : List Char) : Prop where
  head : w.head?.any isWordChar = true
  bare : w.all isBareChar = true

theorem isBareChar_iff :
    isBareChar c = true ↔ isSolid c = true ∧ isQuote c = false ∧ c ≠ ',' := by
  simp [isBareChar, and_assoc]

theorem IsBareWord.exists_cons (h : IsBareWord w) : ∃ c u, w = c :: u ∧ isWordChar c = true := by
  obtain ⟨head, _⟩ := h
  cases w with
  | nil => cases head
  | cons c u => exact ⟨c, u, rfl, head⟩

theorem IsBareWord.ne_nil (h : IsBareWord w) : w ≠ [] := by
  obtain ⟨c, u, rfl, _⟩ := h.exists_cons
  exact List.cons_ne_nil c u

theorem IsBareWord.isBareChar (h : IsBareWord w) (hc : c ∈ w) : isBareChar c = true :=
  List.all_eq_true.mp h.bare c hc

theorem IsBareWord.isSolid (h : IsBareWord w) (hc : c ∈ w) : isSolid c = true :=
  (isBareChar_iff.mp (h.isBareChar hc)).1

theorem IsBareWord.isQuote (h : IsBareWord w) (hc : c ∈ w) : isQuote c = false :=
  (isBareChar_iff.mp (h.isBareChar hc)).2.1

/-- Nothing is skipped at the end of a bare word, or at any place in it. -/
theorem IsBareWord.skipTrivia_eq (h : IsBareWord w) (hs : s <:+ w) : skipTrivia s = s := by
  cases s with
  | nil => rfl
  | cons c s => exact skipTrivia_of_solid (h.isSolid (hs.subset List.mem_cons_self)) s

theorem atPiece_of_no_quote (h : ∀ c ∈ s, isQuote c = false) : atPiece s = false := by
  have hhead : (s.dropWhile Char.isAlpha).head?.any isQuote = false := by
    rw [Option.any_eq_false]
    intro c hc
    simp [h c ((List.dropWhile_suffix _).subset (List.mem_of_mem_head? hc))]
  simp only [atPiece, hhead, Bool.and_false]

/-- A word character without quotation marks behind it begins a numeral or a word, if anything. -/
theorem readAtom_of_no_quote (hc : isWordChar c = true) (h : ∀ d ∈ c :: s, isQuote d = false) :
    readAtom (c :: s) =
      if c.isDigit then readNumeral (c :: s)
      else if isLetter c || c == '_' then readWord (c :: s)
      else .error (.unexpected (c :: s)) := by
  have hne {d : Char} (hd : isWordChar d = false) : c ≠ d := by
    rintro rfl
    rw [hc] at hd
    cases hd
  have hsign : ¬(c = '+' ∨ c = '-') := not_or.mpr ⟨hne (by decide), hne (by decide)⟩
  have hpoint : (c == '.') = false := beq_eq_false_iff_ne.mpr (hne (by decide))
  simp only [readAtom, if_neg hsign, hpoint, Bool.false_and, Bool.or_false, atPiece_of_no_quote h,
    Bool.false_eq_true, if_false]

theorem text_of_constant? (h : constant? word = some v) :
    itemText v = .ok v.text ∧ v.text = String.ofList word := by
  unfold constant? at h
  split at h
  · cases h
    subst word
    exact ⟨rfl, rfl⟩
  split at h
  · cases h
    subst word
    exact ⟨rfl, rfl⟩
  split at h <;> cases h
  subst word
  exact ⟨rfl, rfl⟩

theorem readWord_append_feed (h : readWord (s ++ '\n' :: t) = .ok (v, rest)) :
    ∃ r, rest = r ++ '\n' :: t ∧ readWord s = .ok (v, r) := by
  simp only [readWord, Text.takeWhile_append_cons isWordChar_feed,
    Text.dropWhile_append_cons isWordChar_feed] at h ⊢
  cases hword : constant? (s.takeWhile isWordChar) with
  | none => simp [hword] at h
  | some w =>
    simp only [hword, Except.ok.injEq, Prod.mk.injEq] at h ⊢
    obtain ⟨rfl, rfl⟩ := h
    exact ⟨_, rfl, rfl, rfl⟩

theorem text_of_readWord (h : readWord s = .ok (v, rest)) :
    itemText v = .ok v.text ∧ s = v.text.toList ++ rest := by
  obtain ⟨hconstant, rfl⟩ := constant?_of_readWord h
  obtain ⟨hitem, htext⟩ := text_of_constant? hconstant
  refine ⟨hitem, ?_⟩
  rw [htext, String.toList_ofList, List.takeWhile_append_dropWhile]

/-! ### Bare words -/

/-- A bare word before a line feed is read as it is read alone. -/
theorem readAtom_append_feed (hw : IsBareWord w) (ht : ∀ d ∈ t, isQuote d = false)
    (h : readAtom (w ++ '\n' :: t) = .ok (v, rest)) :
    ∃ r, rest = r ++ '\n' :: t ∧ readAtom w = .ok (v, r) := by
  obtain ⟨c, u, rfl, hc⟩ := hw.exists_cons
  have hword : ∀ d ∈ c :: u, isQuote d = false := fun d hd => hw.isQuote hd
  have hquote : ∀ d ∈ c :: (u ++ '\n' :: t), isQuote d = false := by
    rw [← List.cons_append, List.forall_mem_append, List.forall_mem_cons (a := '\n')]
    exact ⟨hword, by decide, ht⟩
  rw [List.cons_append, readAtom_of_no_quote hc hquote, ← List.cons_append] at h
  rw [readAtom_of_no_quote hc hword]
  by_cases hdigit : c.isDigit = true
  · rw [if_pos hdigit, readNumeral_append_feed] at h
    rw [if_pos hdigit]
    cases hread : readNumeral (c :: u) with
    | error fault =>
      rw [hread] at h
      cases h
    | ok found =>
      rw [hread] at h
      cases h
      exact ⟨_, rfl, rfl⟩
  rw [if_neg hdigit] at h ⊢
  by_cases hletter : (isLetter c || c == '_') = true
  · rw [if_pos hletter] at h ⊢
    exact readWord_append_feed h
  · rw [if_neg hletter] at h
    cases h

/-- What is read of a bare word is taken in its source form; what is left of the word is an end
of it. -/
theorem itemText_of_readAtom (hw : IsBareWord w) (h : readAtom w = .ok (v, rest)) :
    itemText v = .ok v.text ∧ rest <:+ w := by
  obtain ⟨c, u, rfl, hc⟩ := hw.exists_cons
  rw [readAtom_of_no_quote hc fun d hd => hw.isQuote hd] at h
  split at h
  · exact itemText_of_readNumeral h
  split at h
  · obtain ⟨hitem, hsplit⟩ := text_of_readWord h
    exact ⟨hitem, hsplit ▸ List.suffix_append _ _⟩
  · cases h

theorem IsBareWord.beginsAtom (hw : IsBareWord w) : ∀ c ∈ w.head?, beginsAtom c = true := by
  intro d hd
  obtain ⟨c, u, rfl, hc⟩ := hw.exists_cons
  obtain rfl : c = d := Option.some.inj hd
  refine beginsAtom_iff.mpr ⟨isSolid_of_isWordChar hc, ?_⟩
  refine ⟨?_, ?_, ?_, ?_, ?_, ?_⟩
  all_goals
    rintro rfl
    exact absurd hc (by decide)

/-- Where a value is expected, a bare word is read as a value without parts. -/
theorem run_expect_bareWord (hw : IsBareWord w) (frames : List Frame) (t : List Char) :
    run .expect frames (w ++ t) =
      match readAtom (w ++ t) with
      | .error fault => .error fault
      | .ok (v, rest) => run (.got v) frames rest := by
  obtain ⟨c, u, rfl, hc⟩ := hw.exists_cons
  have hskip := skipTrivia_of_solid (isSolid_of_isWordChar hc) (u ++ t)
  have hclose := closing?_of_beginsAtom (hw.beginsAtom c rfl) frames
  have hopen := opened?_of_beginsAtom (hw.beginsAtom c rfl)
  rw [List.cons_append]
  cases hread : readAtom (c :: (u ++ t)) with
  | error fault => exact run_expect_fault hskip hclose hopen hread
  | ok found => exact run_expect_atom hskip hclose hopen hread

/-- A bare word is a literal if the whole of it is read. -/
theorem parse_bareWord_iff (hw : IsBareWord w) :
    parse (String.ofList w) = .ok v ↔ readAtom w = .ok (v, []) := by
  have hrun := run_expect_bareWord hw [] []
  rw [List.append_nil] at hrun
  rw [parse_eq_ok_iff, String.toList_ofList, hrun]
  cases hread : readAtom w with
  | error fault => simp
  | ok found =>
    obtain ⟨u, rest⟩ := found
    have hrest := hw.skipTrivia_eq (itemText_of_readAtom hw hread).2
    simp only [run_got_nil, Except.ok.injEq, Prod.mk.injEq]
    constructor
    · rintro ⟨_, ⟨rfl, rfl⟩, hend⟩
      exact ⟨rfl, hrest.symm.trans hend⟩
    · rintro ⟨rfl, rfl⟩
      exact ⟨[], ⟨rfl, rfl⟩, rfl⟩

/-- A bare word that begins with a digit is read as a numeral. -/
theorem parse_bareNumber_iff (hw : IsBareWord w) (hdigit : w.head?.any Char.isDigit = true) :
    parse (String.ofList w) = .ok v ↔ readNumeral w = .ok (v, []) := by
  obtain ⟨c, u, rfl, hc⟩ := hw.exists_cons
  have hdigit : c.isDigit = true := hdigit
  rw [parse_bareWord_iff hw, readAtom_of_no_quote hc fun d hd => hw.isQuote hd, if_pos hdigit]

/-- A bare word that begins with a digit is a literal exactly if it has the form of a number. -/
theorem exists_parse_bareNumber_iff (hw : IsBareWord w)
    (hdigit : w.head?.any Char.isDigit = true) :
    (∃ v, parse (String.ofList w) = .ok v) ↔ NumberText w := by
  simp only [parse_bareNumber_iff hw hdigit]
  obtain ⟨c, u, rfl, _⟩ := hw.exists_cons
  exact readNumeral_eq_ok_iff hdigit

/-- A bare word that does not begin with a digit is its own source form if it is a literal. -/
theorem text_of_parse_bareWord (hw : IsBareWord w) (hdigit : w.head?.any Char.isDigit = false)
    (h : parse (String.ofList w) = .ok v) : v.text = String.ofList w := by
  rw [parse_bareWord_iff hw] at h
  obtain ⟨c, u, rfl, hc⟩ := hw.exists_cons
  have hdigit : c.isDigit = false := hdigit
  rw [readAtom_of_no_quote hc fun d hd => hw.isQuote hd, hdigit, if_neg Bool.false_ne_true] at h
  split at h
  · have hsplit := (text_of_readWord h).2
    rw [hsplit, List.append_nil, String.ofList_toList]
  · cases h

/-! ### Between brackets -/

/-- Behind a value, the reader ends with the list only if nothing of the word is left. -/
theorem run_got_bareWord (hw : IsBareWord w) (hs : s <:+ w)
    (h : run (.got v) [.list []] (s ++ ['\n', ']']) = .ok (list, rest))
    (hrest : skipTrivia rest = []) : s = [] ∧ list = .list [v] := by
  cases s with
  | nil =>
    rw [List.nil_append, run_got_close (c := ']') rfl rfl, run_got_nil] at h
    cases h
    exact ⟨rfl, rfl⟩
  | cons d s =>
    have hd := isBareChar_iff.mp (hw.isBareChar (hs.subset List.mem_cons_self))
    have hskip := skipTrivia_of_solid hd.1 (s ++ ['\n', ']'])
    by_cases hclose : d = ']'
    · subst hclose
      rw [List.cons_append, run_got_close hskip rfl, run_got_nil] at h
      cases h
      -- The list is closed inside the word, and the added bracket is left.
      have hs : s <:+ w := (List.suffix_cons _ s).trans hs
      cases s with
      | nil => exact absurd hrest (by decide)
      | cons e s =>
        rw [List.cons_append, skipTrivia_of_solid (hw.isSolid (hs.subset List.mem_cons_self))]
          at hrest
        cases hrest
    · rw [List.cons_append, run_got_cons hskip, Frame.after, if_neg hd.2.2, if_neg hclose] at h
      cases h

/-- **A list of one bare word.** If it can be read, the word is a literal, and the item is its
source form. -/
theorem parse_of_parseStrings_bareWord (hw : IsBareWord w)
    (h : parseStrings (String.ofList ('[' :: (w ++ ['\n', ']']))) = .ok items) :
    ∃ v, parse (String.ofList w) = .ok v ∧ items = [v.text] := by
  rw [parseStrings] at h
  cases hlist : parse (String.ofList ('[' :: (w ++ ['\n', ']']))) with
  | error error =>
    rw [hlist] at h
    cases h
  | ok list =>
    obtain ⟨tail, hrun, htail⟩ := parse_eq_ok_iff.mp hlist
    rw [String.toList_ofList, run_expect_open (skipTrivia_of_solid (by decide) _) rfl rfl,
      run_expect_bareWord hw] at hrun
    split at hrun
    · cases hrun
    rename_i v rest hread
    obtain ⟨s, rfl, hword⟩ := readAtom_append_feed hw (by simp; decide) hread
    obtain ⟨hitem, hs⟩ := itemText_of_readAtom hw hword
    obtain ⟨rfl, rfl⟩ := run_got_bareWord hw hs hrun htail
    refine ⟨v, (parse_bareWord_iff hw).mpr hword, ?_⟩
    have hitems : strings (.list [v]) = .ok items := by
      rw [hlist] at h
      exact h
    have hone : strings (.list [v]) = .ok [v.text] := by
      simp only [strings, List.mapM_cons, List.mapM_nil, hitem]
      rfl
    exact Except.ok.inj (hitems.symm.trans hone)

end Scriptorium.Literal
