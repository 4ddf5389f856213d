/-
The solid characters of a text: those that are not blank.

What trims a text, cuts it into lines or joins pieces of it by blanks moves blanks only, so that the
solid characters and their order are a measure of what such a change keeps.
-/

import Scriptorium.Proofs.Text.Line

namespace Scriptorium.Text

variable {s t : List Char}

/-- The characters that are not blank, in order. -/
def solid (s : List Char) : List Char :=
  s.filter fun c => !isBlank c

@[simp] theorem solid_nil : solid [] = [] := rfl

@[simp] theorem solid_append (s t : List Char) : solid (s ++ t) = solid s ++ solid t :=
  List.filter_append s t

theorem solid_cons_of_isBlank {c : Char} (h : isBlank c = true) (s : List Char) :
    solid (c :: s) = solid s :=
  List.filter_cons_of_neg (by simp [h])

theorem solid_cons_of_not_blank {c : Char} (h : isBlank c = false) (s : List Char) :
    solid (c :: s) = c :: solid s :=
  List.filter_cons_of_pos (by simp [h])

theorem solid_eq_nil_iff : solid s = [] ↔ ∀ c ∈ s, isBlank c = true := by
  simp [solid]

/-! ### Trimming -/

theorem solid_trimLeft (s : List Char) : solid (trimLeft s) = solid s := by
  have hblank : solid (s.takeWhile isBlank) = [] :=
    solid_eq_nil_iff.mpr fun c hc => List.mem_takeWhile_imp hc
  conv_rhs => rw [← List.takeWhile_append_dropWhile (p := isBlank) (l := s), solid_append, hblank]
  rfl

theorem solid_trimRight (s : List Char) : solid (trimRight s) = solid s := by
  have hleft := solid_trimLeft s.reverse
  simp only [solid, List.filter_reverse] at hleft ⊢
  rw [trimRight, dropRightWhile, List.filter_reverse, ← trimLeft, hleft, List.reverse_reverse]

theorem solid_trim (s : List Char) : solid (trim s) = solid s :=
  (solid_trimRight (trimLeft s)).trans (solid_trimLeft s)

/-- A text is blank exactly if nothing of it is left when it is trimmed. -/
theorem trim_eq_nil_iff : trim s = [] ↔ solid s = [] := by
  constructor
  · intro h
    rw [← solid_trim, h, solid_nil]
  · intro h
    cases htrim : trim s with
    | nil => rfl
    | cons c rest =>
      have hc : isBlank c = false := head_trimWhile s c (by rw [← trim, htrim]; rfl)
      rw [← solid_trim, htrim, solid_cons_of_not_blank hc] at h
      cases h

theorem trim_eq_nil_iff_forall : trim s = [] ↔ ∀ c ∈ s, isBlank c = true :=
  trim_eq_nil_iff.trans solid_eq_nil_iff

/-! ### Pieces and lines -/

theorem solid_intercalate {sep : Char} (h : isBlank sep = true) (pieces : List (List Char)) :
    solid ([sep].intercalate pieces) = pieces.flatMap solid := by
  induction pieces with
  | nil => rfl
  | cons piece pieces ih =>
    cases pieces with
    | nil => simp
    | cons next pieces =>
      rw [List.flatMap_cons, ← ih, List.intercalate_cons_cons, solid_append, solid_append,
        solid_cons_of_isBlank h, solid_nil, List.append_nil]

theorem solid_dropReturn (s : List Char) : solid (dropReturn s) = solid s := by
  rw [← solid_trim, trim_dropReturn, solid_trim]

theorem flatMap_solid_linesOfPieces (pieces : List (List Char)) :
    (linesOfPieces pieces).flatMap solid = pieces.flatMap solid := by
  induction pieces with
  | nil => rfl
  | cons piece pieces ih =>
    cases pieces with
    | nil =>
      rw [linesOfPieces]
      split
      · rename_i hempty
        rw [List.isEmpty_iff.mp hempty]
        rfl
      · rfl
    | cons next pieces =>
      rw [linesOfPieces_cons piece (List.cons_ne_nil next pieces), List.flatMap_cons,
        List.flatMap_cons, solid_dropReturn, ih]

/-- Cutting a text into lines loses nothing but blanks. -/
theorem flatMap_solid_lines (s : List Char) : (lines s).flatMap solid = solid s := by
  have hfeed : isBlank '\n' = true := by decide
  rw [lines, flatMap_solid_linesOfPieces, ← solid_intercalate hfeed, ← separated_eq,
    separated_splitAt]

end Scriptorium.Text
