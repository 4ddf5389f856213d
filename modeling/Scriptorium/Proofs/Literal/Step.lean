/-
What one step of the reader does, one statement for each of its turns.

Only the text behind the trivia matters to a step; a value is handed back at once when no display
is open. A value without parts has been read in one of four ways (`AtomForm`).
-/

import Scriptorium.Literal.Reader
import Scriptorium.Proofs.Literal.Numeral

namespace Scriptorium.Literal

variable {frames : List Frame} {frame : Frame} {s rest : List Char} {c : Char} {v w : Literal}

/-! ### Values without parts -/

theorem readAtom_sign (h : c = '+' ∨ c = '-') : readAtom (c :: s) = readSigned (c = '-') s := by
  simp only [readAtom, if_pos h]

theorem readAtom_number (hsign : ¬(c = '+' ∨ c = '-'))
    (h : (c.isDigit || (c == '.' && s.head?.any Char.isDigit)) = true) :
    readAtom (c :: s) = readNumeral (c :: s) := by
  simp only [readAtom, if_neg hsign, if_pos h]

theorem readAtom_digit (h : c.isDigit = true) : readAtom (c :: s) = readNumeral (c :: s) := by
  refine readAtom_number ?_ (by simp [h])
  rintro (rfl | rfl) <;> exact absurd h (by decide)

theorem readAtom_pieces (hsign : ¬(c = '+' ∨ c = '-'))
    (hnumber : (c.isDigit || (c == '.' && s.head?.any Char.isDigit)) = false)
    (h : atPiece (c :: s) = true) :
    readAtom (c :: s) =
      (readPieces [] (c :: s)).map fun (text, rest) => (.str (String.ofList text), rest) := by
  simp only [readAtom, if_neg hsign, hnumber, if_pos h, Bool.false_eq_true, if_false]

theorem readAtom_word (hsign : ¬(c = '+' ∨ c = '-'))
    (hnumber : (c.isDigit || (c == '.' && s.head?.any Char.isDigit)) = false)
    (hpiece : atPiece (c :: s) = false) (h : (Text.isLetter c || c == '_') = true) :
    readAtom (c :: s) = readWord (c :: s) := by
  simp only [readAtom, if_neg hsign, hnumber, hpiece, if_pos h, Bool.false_eq_true, if_false]

theorem exists_of_readSigned {negative : Bool} (h : readSigned negative s = .ok (v, rest)) :
    ∃ w, readNumeral (skipTrivia s) = .ok (w, rest) ∧ (if negative then negated w else w) = v := by
  obtain ⟨⟨w, tail⟩, hread, heq⟩ := exists_of_map_eq_ok h
  cases heq
  exact ⟨w, hread, rfl⟩

theorem constant?_of_readWord (h : readWord s = .ok (v, rest)) :
    constant? (s.takeWhile Text.isWordChar) = some v ∧ s.dropWhile Text.isWordChar = rest := by
  simp only [readWord] at h
  split at h
  · rename_i w hconstant
    cases h
    exact ⟨hconstant, rfl⟩
  · cases h

/-- How a text is read as a value without parts. -/
inductive AtomForm : List Char → Literal → List Char → Prop where
  | signed {c : Char} {s rest : List Char} {v : Literal} : c = '+' ∨ c = '-' →
      readSigned (c = '-') s = .ok (v, rest) → AtomForm (c :: s) v rest
  | numeral {c : Char} {s rest : List Char} {v : Literal} : ¬(c = '+' ∨ c = '-') →
      (c.isDigit || (c == '.' && s.head?.any Char.isDigit)) = true →
      readNumeral (c :: s) = .ok (v, rest) → AtomForm (c :: s) v rest
  | pieces {c : Char} {s rest text : List Char} : ¬(c = '+' ∨ c = '-') →
      (c.isDigit || (c == '.' && s.head?.any Char.isDigit)) = false → atPiece (c :: s) = true →
      readPieces [] (c :: s) = .ok (text, rest) →
      AtomForm (c :: s) (.str (String.ofList text)) rest
  | word {c : Char} {s rest : List Char} {v : Literal} : ¬(c = '+' ∨ c = '-') →
      (c.isDigit || (c == '.' && s.head?.any Char.isDigit)) = false → atPiece (c :: s) = false →
      (Text.isLetter c || c == '_') = true → readWord (c :: s) = .ok (v, rest) →
      AtomForm (c :: s) v rest

theorem atomForm_of_readAtom (h : readAtom s = .ok (v, rest)) : AtomForm s v rest := by
  cases s with
  | nil => cases h
  | cons c s =>
    rw [readAtom] at h
    split at h
    · exact .signed ‹_› h
    rename_i hsign
    split at h
    · exact .numeral hsign ‹_› h
    rename_i hnumber
    rw [Bool.not_eq_true] at hnumber
    split at h
    · rename_i hpiece
      obtain ⟨⟨text, tail⟩, hread, heq⟩ := exists_of_map_eq_ok h
      cases heq
      exact .pieces hsign hnumber hpiece hread
    rename_i hpiece
    split at h
    · exact .word hsign hnumber (Bool.eq_false_iff.mpr hpiece) ‹_› h
    · cases h

theorem constant?_eq_some {word : List Char} (h : constant? word = some v) :
    word = "None".toList ∨ word = "True".toList ∨ word = "False".toList := by
  unfold constant? at h
  split at h
  · exact Or.inl ‹_›
  split at h
  · exact Or.inr (Or.inl ‹_›)
  split at h
  · exact Or.inr (Or.inr ‹_›)
  · cases h

/-! ### Where a value is expected -/

theorem run_expect_nil (h : skipTrivia s = []) :
    run .expect frames s = .error (.unexpected []) := by
  rw [run]
  split
  · rfl
  · rename_i heq
    rw [h] at heq
    cases heq

theorem run_expect_cons (h : skipTrivia s = c :: rest) :
    run .expect frames s =
      match closing? c frames with
      | some (v, frames) => run (.got v) frames rest
      | none =>
        match Frame.opened? c with
        | some frame => run .expect (frame :: frames) rest
        | none =>
          match readAtom (c :: rest) with
          | .error fault => .error fault
          | .ok (v, rest) => run (.got v) frames rest := by
  rw [run]
  split
  · rename_i heq
    rw [h] at heq
    cases heq
  · rename_i heq
    rw [h] at heq
    cases heq
    cases closing? c frames with
    | some found => rfl
    | none =>
      cases Frame.opened? c with
      | some frame => rfl
      | none =>
        simp only
        split <;> rename_i hatom <;> rw [hatom]

theorem run_expect_close {outer : List Frame} (h : skipTrivia s = c :: rest)
    (hclose : closing? c frames = some (v, outer)) :
    run .expect frames s = run (.got v) outer rest := by
  rw [run_expect_cons h, hclose]

theorem run_expect_open (h : skipTrivia s = c :: rest) (hclose : closing? c frames = none)
    (hopen : Frame.opened? c = some frame) :
    run .expect frames s = run .expect (frame :: frames) rest := by
  rw [run_expect_cons h, hclose, hopen]

theorem run_expect_atom {tail : List Char} (h : skipTrivia s = c :: rest)
    (hclose : closing? c frames = none) (hopen : Frame.opened? c = none)
    (hatom : readAtom (c :: rest) = .ok (v, tail)) :
    run .expect frames s = run (.got v) frames tail := by
  rw [run_expect_cons h, hclose, hopen, hatom]

theorem run_expect_fault {fault : Fault} (h : skipTrivia s = c :: rest)
    (hclose : closing? c frames = none) (hopen : Frame.opened? c = none)
    (hatom : readAtom (c :: rest) = .error fault) :
    run .expect frames s = .error fault := by
  rw [run_expect_cons h, hclose, hopen, hatom]

/-! ### Behind a value -/

theorem run_got_nil : run (.got v) [] s = .ok (v, s) := by
  rw [run]

theorem run_got_end (h : skipTrivia s = []) :
    run (.got v) (frame :: frames) s = .error (.unexpected []) := by
  rw [run]
  split
  · rfl
  · rename_i heq
    rw [h] at heq
    cases heq

theorem run_got_cons (h : skipTrivia s = c :: rest) :
    run (.got v) (frame :: frames) s =
      match frame.after v c with
      | .close w => run (.got w) frames rest
      | .next frame => run .expect (frame :: frames) rest
      | .refuse => .error (.unexpected (c :: rest)) := by
  rw [run]
  split
  · rename_i heq
    rw [h] at heq
    cases heq
  · rename_i heq
    rw [h] at heq
    cases heq
    rfl

theorem run_got_close (h : skipTrivia s = c :: rest) (hafter : frame.after v c = .close w) :
    run (.got v) (frame :: frames) s = run (.got w) frames rest := by
  rw [run_got_cons h, hafter]

theorem run_got_next {next : Frame} (h : skipTrivia s = c :: rest)
    (hafter : frame.after v c = .next next) :
    run (.got v) (frame :: frames) s = run .expect (next :: frames) rest := by
  rw [run_got_cons h, hafter]

/-! ### Trivia -/

/-- Only the text behind the trivia matters where a value is expected. -/
theorem run_expect_congr {t : List Char} (h : skipTrivia s = skipTrivia t) :
    run .expect frames s = run .expect frames t := by
  cases ht : skipTrivia t with
  | nil => rw [run_expect_nil ht, run_expect_nil (h.trans ht)]
  | cons c rest => rw [run_expect_cons ht, run_expect_cons (h.trans ht)]

/-- Only the text behind the trivia matters behind a value of an open display. -/
theorem run_got_congr {t : List Char} (h : skipTrivia s = skipTrivia t) :
    run (.got v) (frame :: frames) s = run (.got v) (frame :: frames) t := by
  cases ht : skipTrivia t with
  | nil => rw [run_got_end ht, run_got_end (h.trans ht)]
  | cons c rest => rw [run_got_cons ht, run_got_cons (h.trans ht)]

end Scriptorium.Literal
