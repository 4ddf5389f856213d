/-
Where a source is faulty: an error that names a place names the right one.

A reader that finds an unexpected character has an end of the text left that begins with it
(`Fault.Within`). When something stands behind a literal, what was read before it is a literal of
its own, since readers are not swayed by what they leave.
-/

import Scriptorium.Proofs.Literal.Extent
import Scriptorium.Proofs.Literal.Spelling

namespace Scriptorium.Literal

variable {s t rest : List Char} {fault : Fault}

/-! ### Faults -/

/-- A fault that has a place lies in the text. -/
def Fault.Within (s : List Char) : Fault → Prop
  | .unexpected rest => rest <:+ s
  | _ => True

theorem Fault.Within.mono (h : fault.Within s) (hs : s <:+ t) : fault.Within t := by
  cases fault with
  | unexpected rest => exact h.trans hs
  | _ => trivial

theorem within_readCodePoint {digits : List Char} {count : Nat}
    (h : readCodePoint digits count s = .error fault) : fault.Within s := by
  induction count generalizing digits s with
  | zero =>
    rw [readCodePoint_end] at h
    by_cases hvalid : (Text.ofDigits 16 digits).isValidChar
    · rw [dif_pos hvalid] at h
      cases h
    · rw [dif_neg hvalid] at h
      cases h
      trivial
  | succ count ih =>
    cases s with
    | nil =>
      cases h
      exact List.suffix_refl []
    | cons c s =>
      rw [readCodePoint_cons] at h
      split at h
      · exact (ih h).mono (List.suffix_cons c s)
      · cases h
        exact List.suffix_refl _

theorem within_readEscape {c : Char} (h : readEscape c s = .error fault) : fault.Within s := by
  have hcode {count : Nat} (h : (readCodePoint [] count s).map (fun d => ([d], count)) =
      .error fault) : fault.Within s := by
    cases hread : readCodePoint [] count s with
    | error found =>
      rw [hread] at h
      cases h
      exact within_readCodePoint hread
    | ok d =>
      rw [hread] at h
      cases h
  unfold readEscape at h
  split at h
  case h_12 => exact hcode h
  case h_13 => exact hcode h
  case h_14 => exact hcode h
  case h_15 => split at h <;> cases h
  all_goals cases h

theorem within_readBody {form : PieceForm} {done : List Char}
    (h : readBody form done s = .error fault) : fault.Within s := by
  fun_induction readBody form done s with
  | case1 =>
    cases h
    trivial
  | case2 => cases h
  | case3 done s hend ih => exact (ih h).mono (List.suffix_cons _ s)
  | case4 =>
    cases h
    trivial
  | case5 =>
    cases h
    trivial
  | case6 done d s hraw hslash hline ih => exact (ih h).mono (List.suffix_append ['\\', d] s)
  | case7 done d s hraw found hescape hslash hline =>
    cases h
    exact (within_readEscape hescape).mono (List.suffix_append ['\\', d] s)
  | case8 done d s hraw piece used hescape hslash hline ih =>
    exact (ih h).mono ((List.drop_suffix used s).trans (List.suffix_append ['\\', d] s))
  | case9 done c s hquote hline hslash ih => exact (ih h).mono (List.suffix_cons c s)

theorem within_readForm {raw : Bool} (h : readForm raw s = .error fault) : fault.Within s := by
  cases s with
  | nil =>
    cases h
    exact List.suffix_refl []
  | cons q s =>
    rw [readForm_cons] at h
    split at h <;> cases h

theorem within_readPiece (h : readPiece s = .error fault) : fault.Within s := by
  have hmark := List.dropWhile_suffix (l := s) Char.isAlpha
  simp only [readPiece] at h
  split at h
  · split at h
    · rename_i hform
      cases h
      exact (within_readForm hform).mono hmark
    · rename_i form body hform
      exact (within_readBody h).mono ((takes_readForm hform).isSuffix.trans hmark)
  · cases h
    trivial

theorem within_readPieces {done : List Char} (h : readPieces done s = .error fault) :
    fault.Within s := by
  fun_induction readPieces done s with
  | case1 done s found hread =>
    cases h
    exact within_readPiece hread
  | case2 done s piece tail hread next hnext ih =>
    exact (ih h).mono ((isSuffix_skipTrivia tail).trans (takes_readPiece hread).isSuffix)
  | case3 => cases h

theorem within_intOf {text : List Char} {n : Nat} (h : intOf text n = .error fault)
    (t : List Char) : fault.Within t := by
  unfold intOf at h
  split at h <;> cases h
  trivial

theorem within_decimalOf {fractional : Bool} {text : List Char}
    (h : decimalOf fractional text = .error fault) (t : List Char) : fault.Within t := by
  simp only [decimalOf] at h
  split at h
  · split at h <;> cases h
    trivial
  split at h
  · cases h
    trivial
  · exact within_intOf h t

theorem within_basedOf {base : Nat} {text digits : List Char}
    (h : basedOf base text digits = .error fault) (t : List Char) : fault.Within t := by
  simp only [basedOf] at h
  split at h
  · cases h
    trivial
  · exact within_intOf h t

theorem within_readDecimal (h : readDecimal s = .error fault) (t : List Char) :
    fault.Within t := by
  simp only [readDecimal] at h
  split at h
  · cases h
    trivial
  generalize hvalue : decimalOf _ _ = value at h
  cases value with
  | error found =>
    cases h
    exact within_decimalOf hvalue t
  | ok w => cases h

theorem within_readBased {base : Nat} {mark : List Char} (h : readBased base mark s = .error fault)
    (t : List Char) : fault.Within t := by
  simp only [readBased] at h
  generalize hvalue : basedOf base _ _ = value at h
  cases value with
  | error found =>
    cases h
    exact within_basedOf hvalue t
  | ok w => cases h

/-- The faults of a numeral name it and have no place. -/
theorem within_readNumeral (h : readNumeral s = .error fault) (t : List Char) :
    fault.Within t := by
  unfold readNumeral at h
  split at h
  · split at h
    · exact within_readBased h t
    · exact within_readDecimal h t
  · exact within_readDecimal h t

theorem within_readSigned {negative : Bool} (h : readSigned negative s = .error fault)
    (t : List Char) : fault.Within t := by
  rw [readSigned] at h
  cases hread : readNumeral (skipTrivia s) with
  | error found =>
    rw [hread] at h
    cases h
    exact within_readNumeral hread t
  | ok found =>
    rw [hread] at h
    cases h

theorem within_readWord (h : readWord s = .error fault) (t : List Char) : fault.Within t := by
  simp only [readWord] at h
  split at h <;> cases h
  trivial

theorem within_readAtom (h : readAtom s = .error fault) : fault.Within s := by
  unfold readAtom at h
  split at h
  · cases h
    exact List.suffix_refl []
  · rename_i c tail
    split at h
    · exact within_readSigned h _
    split at h
    · exact within_readNumeral h _
    split at h
    · cases hread : readPieces [] (c :: tail) with
      | error found =>
        rw [hread] at h
        cases h
        exact within_readPieces hread
      | ok found =>
        rw [hread] at h
        cases h
    split at h
    · exact within_readWord h _
    · cases h
      exact List.suffix_refl _

theorem isSuffix_of_skipTrivia {c : Char} {tail : List Char} (h : skipTrivia s = c :: tail) :
    c :: tail <:+ s :=
  h ▸ isSuffix_skipTrivia s

/-- The reader is stopped at a place in the text, if at one. -/
theorem within_run {stage : Stage} {frames : List Frame}
    (h : run stage frames s = .error fault) : fault.Within s := by
  fun_induction run stage frames s with
  | case1 =>
    cases h
    exact List.nil_suffix
  | case2 s frames c tail hs w outer hclosing ih =>
    exact (ih h).mono ((List.suffix_cons c tail).trans (isSuffix_of_skipTrivia hs))
  | case3 s frames c tail hs hclosing frame hopen ih =>
    exact (ih h).mono ((List.suffix_cons c tail).trans (isSuffix_of_skipTrivia hs))
  | case4 s frames c tail hs hclosing hopen found hatom =>
    cases h
    exact (within_readAtom hatom).mono (isSuffix_of_skipTrivia hs)
  | case5 s frames c tail hs hclosing hopen w middle hatom ih =>
    exact (ih h).mono ((takes_readAtom hatom).isSuffix.trans (isSuffix_of_skipTrivia hs))
  | case6 => cases h
  | case7 =>
    cases h
    exact List.nil_suffix
  | case8 s w frame frames c tail hs closed hafter ih =>
    exact (ih h).mono ((List.suffix_cons c tail).trans (isSuffix_of_skipTrivia hs))
  | case9 s w frame frames c tail hs next hafter ih =>
    exact (ih h).mono ((List.suffix_cons c tail).trans (isSuffix_of_skipTrivia hs))
  | case10 s w frame frames c tail hs hafter =>
    cases h
    exact isSuffix_of_skipTrivia hs

/-! ### Places -/

theorem utf8ByteSize_ofList (s : List Char) : (String.ofList s).utf8ByteSize = Text.byteSize s := by
  induction s with
  | nil => rfl
  | cons c s ih => simp [String.ofList_cons, ih]

/-- The offset of what is left is the size of what stands before it. -/
theorem offsetOf_append (s rest : List Char) :
    offsetOf (s ++ rest) rest = (String.ofList s).utf8ByteSize := by
  rw [offsetOf, Text.byteSize_append, utf8ByteSize_ofList, Nat.add_sub_cancel]

theorem exists_rest_of_locate {c : Char} {offset : Nat}
    (h : fault.locate s = .unexpectedChar c offset) :
    ∃ rest, fault = .unexpected (c :: rest) ∧ offset = offsetOf s (c :: rest) := by
  unfold Fault.locate at h
  split at h <;> cases h
  exact ⟨_, rfl, rfl⟩

theorem run_of_parse_unexpectedChar {source : String} {c : Char} {offset : Nat}
    (h : parse source = .error (.unexpectedChar c offset)) :
    ∃ rest, run .expect [] source.toList = .error (.unexpected (c :: rest)) ∧
      offset = offsetOf source.toList (c :: rest) := by
  simp only [parse] at h
  split at h
  · rename_i fault hrun
    obtain ⟨rest, rfl, hoffset⟩ := exists_rest_of_locate (Except.error.inj h)
    exact ⟨rest, hrun, hoffset⟩
  · split at h <;> cases h

theorem run_of_parse_trailingInput {source : String} {offset : Nat}
    (h : parse source = .error (.trailingInput offset)) :
    ∃ v rest, run .expect [] source.toList = .ok (v, rest) ∧ skipTrivia rest ≠ [] ∧
      offset = offsetOf source.toList (skipTrivia rest) := by
  simp only [parse] at h
  split at h
  · rename_i fault hrun
    unfold Fault.locate at h
    split at h <;> cases h
  · rename_i v rest hrun
    split at h
    · cases h
    · rename_i hne
      cases h
      exact ⟨v, rest, hrun, hne, rfl⟩

/-- **Places of errors.** An unexpected character stands at the offset that is named. Where
something is left behind a literal, the offset is that of the first character that is neither part
of the literal nor trivia, and the source before it is a literal by itself. -/
theorem parse_error_place (source : String) :
    (∀ c offset, parse source = .error (.unexpectedChar c offset) →
      ∃ before after, source.toList = before ++ c :: after ∧
        (String.ofList before).utf8ByteSize = offset) ∧
    ∀ offset, parse source = .error (.trailingInput offset) →
      ∃ before after, source.toList = before ++ after ∧
        (String.ofList before).utf8ByteSize = offset ∧ after ≠ [] ∧
        beginsTrivia after = false ∧ ∃ v, parse (String.ofList before) = .ok v := by
  constructor
  · intro c offset h
    obtain ⟨rest, hrun, rfl⟩ := run_of_parse_unexpectedChar h
    obtain ⟨before, hbefore⟩ := within_run hrun
    refine ⟨before, rest, hbefore.symm, ?_⟩
    rw [← hbefore, offsetOf_append]
  · intro offset h
    obtain ⟨v, rest, hrun, hne, rfl⟩ := run_of_parse_trailingInput h
    obtain ⟨t, hsource, ht⟩ := takes_run hrun
    obtain ⟨x, hx, hrest⟩ := exists_trivia_append hne
    have hsplit : source.toList = (t ++ x) ++ skipTrivia rest := by
      rw [List.append_assoc, ← hrest, hsource]
    refine ⟨t ++ x, skipTrivia rest, hsplit, ?_, hne, beginsTrivia_skipTrivia rest, v, ?_⟩
    · rw [hsplit, offsetOf_append]
    · have hcut : x <+: rest := ⟨_, hrest.symm⟩
      refine parse_of_run ?_ (skipTrivia_eq_nil hx)
      rw [String.toList_ofList, ht x hcut]

/-- The letter takes two bytes, so the offsets are greater by one than the counts of characters. -/
theorem parse_error_place_of_wide :
    parse "['é' @]" = .error (.unexpectedChar '@' 6) ∧
      parse "'é'  1" = .error (.trailingInput 6) ∧
      (∃ before after, "['é' @]".toList = before ++ '@' :: after ∧
        (String.ofList before).utf8ByteSize = 6) ∧
      ∃ before after, "'é'  1".toList = before ++ after ∧
        (String.ofList before).utf8ByteSize = 6 ∧ after ≠ [] ∧ beginsTrivia after = false ∧
        ∃ v, parse (String.ofList before) = .ok v := by
  have hpieces : Pieces ['\'', 'é', '\''] ['é'] := by
    refine .last (@Piece.mk [] ['é'] ['é'] ⟨false, '\'', false⟩ (by decide) rfl ?_)
    exact .plain (by decide) (by decide) (by simp) .nil
  have hspace (s : List Char) : Severs (' ' :: s) := severs_cons.mpr (by decide)
  have hunexpected : parse "['é' @]" = .error (.unexpectedChar '@' 6) := by
    have hatom := readAtom_string hpieces (hspace ['@', ']']) rfl
    have hrun : run .expect [] "['é' @]".toList = .error (.unexpected "@]".toList) := by
      rw [run_expect_open (c := '[') rfl rfl rfl, run_expect_atom rfl rfl rfl hatom,
        run_got_cons rfl]
      rfl
    rw [parse, hrun]
    rfl
  have htrailing : parse "'é'  1" = .error (.trailingInput 6) := by
    have hatom := readAtom_string hpieces (hspace [' ', '1']) rfl
    rw [parse, run_expect_atom rfl rfl rfl hatom, run_got_nil]
    rfl
  exact ⟨hunexpected, htrailing, (parse_error_place _).1 _ _ hunexpected,
    (parse_error_place _).2 _ htrailing⟩

end Scriptorium.Literal
