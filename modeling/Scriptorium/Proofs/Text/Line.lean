/-
Lines that are joined by line feeds are found again.

The trimmed lines of a text are its pieces between line feeds, trimmed (`rows`); blanks around the
text bring only empty rows at its ends (`map_trim_lines_trim`).
-/

import Scriptorium.Proofs.Text.Cut
import Scriptorium.Text.Line

namespace Scriptorium.Text

variable {sep : Char} {s rest : List Char}

theorem isPrefixOf_eq (mark s : List Char) : mark.isPrefixOf s = (dropStart? mark s).isSome := by
  rw [Bool.eq_iff_iff, List.isPrefixOf_iff_prefix, Option.isSome_iff_exists]
  constructor
  · rintro ⟨rest, rfl⟩
    exact ⟨rest, dropStart?_eq_some_iff.mpr rfl⟩
  · rintro ⟨rest, hrest⟩
    exact ⟨rest, (dropStart?_eq_some_iff.mp hrest).symm⟩

/-! ### Pieces -/

theorem splitAt_of_not_mem (h : sep ∉ s) : splitAt sep s = [s] := by
  induction s with
  | nil => rfl
  | cons c s ih =>
    simp only [List.mem_cons, not_or] at h
    simp [splitAt, Ne.symm h.1, ih h.2]

/-- A text is cut at a mark in it, and its parts on either side are cut alone. -/
theorem splitAt_append_sep (sep : Char) (s t : List Char) :
    splitAt sep (s ++ sep :: t) = splitAt sep s ++ splitAt sep t := by
  induction s with
  | nil => simp [splitAt]
  | cons a s ih =>
    rw [List.cons_append, splitAt, splitAt, ih]
    split
    · rfl
    · cases h : splitAt sep s with
      | nil => exact absurd h (splitAt_ne_nil sep s)
      | cons piece pieces => rfl

theorem splitAt_append (h : sep ∉ s) : splitAt sep (s ++ sep :: rest) = s :: splitAt sep rest := by
  rw [splitAt_append_sep, splitAt_of_not_mem h, List.singleton_append]

theorem not_mem_of_mem_splitAt {piece : List Char} (h : piece ∈ splitAt sep s) : sep ∉ piece := by
  induction s generalizing piece with
  | nil =>
    rw [List.mem_singleton.mp h]
    exact List.not_mem_nil
  | cons c s ih =>
    rw [splitAt] at h
    split at h
    · rcases List.mem_cons.mp h with rfl | h
      · exact List.not_mem_nil
      · exact ih h
    · rename_i hc
      cases hs : splitAt sep s with
      | nil => exact absurd hs (splitAt_ne_nil sep s)
      | cons first pieces =>
        rw [hs] at h ih
        rcases List.mem_cons.mp h with rfl | h
        · rw [List.mem_cons, not_or]
          exact ⟨Ne.symm hc, ih List.mem_cons_self⟩
        · exact ih (List.mem_cons_of_mem first h)

/-- Cutting loses nothing but the mark. -/
theorem mem_splitAt {c : Char} (h : c ∈ s) :
    c = sep ∨ ∃ piece ∈ splitAt sep s, c ∈ piece := by
  induction s with
  | nil => cases h
  | cons a s ih =>
    rw [splitAt]
    split
    · rename_i ha
      rcases List.mem_cons.mp h with rfl | h
      · exact .inl ha
      · obtain hsep | ⟨piece, hpiece, hc⟩ := ih h
        · exact .inl hsep
        · exact .inr ⟨piece, List.mem_cons_of_mem [] hpiece, hc⟩
    · cases hs : splitAt sep s with
      | nil => exact absurd hs (splitAt_ne_nil sep s)
      | cons first pieces =>
        rw [hs] at ih
        rcases List.mem_cons.mp h with rfl | h
        · exact .inr ⟨c :: first, List.mem_cons_self, List.mem_cons_self⟩
        · obtain hsep | ⟨piece, hpiece, hc⟩ := ih h
          · exact .inl hsep
          · rcases List.mem_cons.mp hpiece with rfl | hpiece
            · exact .inr ⟨a :: piece, List.mem_cons_self, List.mem_cons_of_mem a hc⟩
            · exact .inr ⟨piece, List.mem_cons_of_mem (a :: first) hpiece, hc⟩

/-- The pieces between the marks, joined by the mark, are the text. -/
theorem intercalate_splitAt (sep : Char) (s : List Char) :
    [sep].intercalate (splitAt sep s) = s := by
  induction s with
  | nil => rfl
  | cons c s ih =>
    obtain ⟨piece, pieces, hs⟩ := List.exists_cons_of_ne_nil (splitAt_ne_nil sep s)
    rw [splitAt, hs]
    rw [hs] at ih
    split
    · rename_i hc
      rw [List.intercalate_cons_cons, ih, hc]
      rfl
    · cases pieces with
      | nil => rw [List.intercalate_singleton] at ih ⊢; rw [ih]
      | cons next pieces =>
        rw [List.intercalate_cons_cons] at ih ⊢
        rw [List.cons_append, List.cons_append, ih]

/-- Pieces without the mark are found again where they are joined by it. -/
theorem splitAt_intercalate {pieces : List (List Char)} (hne : pieces ≠ [])
    (h : ∀ piece ∈ pieces, sep ∉ piece) : splitAt sep ([sep].intercalate pieces) = pieces := by
  induction pieces with
  | nil => exact absurd rfl hne
  | cons piece pieces ih =>
    rw [List.forall_mem_cons] at h
    cases pieces with
    | nil => rw [List.intercalate_singleton, splitAt_of_not_mem h.1]
    | cons next pieces =>
      have hmore := ih (List.cons_ne_nil next pieces) h.2
      rw [List.intercalate_cons_cons, List.append_assoc, List.singleton_append,
        splitAt_append h.1, hmore]

/-! ### Lines -/

/-- A line that begins and ends with characters that are not blank. -/
structure IsLine (s : List Char) : Prop where
  no_feed : '\n' ∉ s
  ne_nil : s ≠ []
  head : ∀ c ∈ s.head?, isBlank c = false
  last : ∀ c ∈ s.getLast?, isBlank c = false

theorem IsLine.trim_eq (h : IsLine s) : trim s = s :=
  trimWhile_of_ends h.head h.last

theorem IsLine.dropReturn_eq (h : IsLine s) : dropReturn s = s := by
  have hnone : dropEnd? ['\r'] s = none := by
    rw [Option.eq_none_iff_forall_ne_some]
    intro front hfront
    have hlast : s.getLast? = some '\r' := by
      rw [dropEnd?_eq_some_iff.mp hfront, List.getLast?_concat]
    exact absurd (h.last '\r' hlast) (by decide)
  rw [dropReturn, hnone, Option.getD_none]

theorem linesOfPieces_cons (piece : List Char) {pieces : List (List Char)} (h : pieces ≠ []) :
    linesOfPieces (piece :: pieces) = dropReturn piece :: linesOfPieces pieces := by
  cases pieces with
  | nil => exact absurd rfl h
  | cons next pieces => rfl

/-- Lines with a line feed between neighbours. -/
def separated : List (List Char) → List Char
  | [] => []
  | [l] => l
  | l :: ls => l ++ '\n' :: separated ls

theorem separated_cons (l : List Char) {ls : List (List Char)} (h : ls ≠ []) :
    separated (l :: ls) = l ++ '\n' :: separated ls := by
  cases ls with
  | nil => exact absurd rfl h
  | cons m ls => rfl

theorem separated_eq (ls : List (List Char)) : separated ls = ['\n'].intercalate ls := by
  induction ls with
  | nil => rfl
  | cons l ls ih =>
    cases ls with
    | nil => rw [separated, List.intercalate_singleton]
    | cons m ls =>
      rw [separated_cons l (List.cons_ne_nil m ls), ih, List.intercalate_cons_cons,
        List.append_assoc, List.singleton_append]

/-- The pieces between line feeds make up the text again. -/
theorem separated_splitAt (s : List Char) : separated (splitAt '\n' s) = s := by
  rw [separated_eq, intercalate_splitAt]

theorem isInfix_separated {l : List Char} {ls : List (List Char)} (h : l ∈ ls) :
    l <:+: separated ls := by
  induction ls with
  | nil => cases h
  | cons m ls ih =>
    cases ls with
    | nil =>
      rw [List.mem_singleton.mp h]
      exact List.infix_refl m
    | cons n ls =>
      rw [separated_cons m (List.cons_ne_nil n ls)]
      rcases List.mem_cons.mp h with rfl | h
      · exact (List.prefix_append l _).isInfix
      · have hsuffix : separated (n :: ls) <:+ m ++ '\n' :: separated (n :: ls) :=
          ⟨m ++ ['\n'], by simp⟩
        exact (ih h).trans hsuffix.isInfix

/-- Lines with a line feed behind each. -/
def joined (ls : List (List Char)) : List Char :=
  ls.flatMap (· ++ ['\n'])

theorem joined_eq_separated {ls : List (List Char)} (h : ls ≠ []) :
    joined ls = separated ls ++ ['\n'] := by
  induction ls with
  | nil => exact absurd rfl h
  | cons l ls ih =>
    cases ls with
    | nil => simp [joined, separated]
    | cons m ls =>
      have hmore := ih (List.cons_ne_nil m ls)
      simp only [joined, List.flatMap_cons, separated] at hmore ⊢
      rw [hmore]
      simp

theorem lines_separated {ls : List (List Char)} (h : ∀ l ∈ ls, IsLine l) :
    lines (separated ls) = ls := by
  induction ls with
  | nil => rfl
  | cons l ls ih =>
    rw [List.forall_mem_cons] at h
    obtain ⟨hl, hls⟩ := h
    cases ls with
    | nil =>
      have hempty : l.isEmpty = false := by simpa using hl.ne_nil
      rw [separated, lines, splitAt_of_not_mem hl.no_feed, linesOfPieces, hempty]
      rfl
    | cons m ls =>
      have hmore := ih hls
      rw [lines] at hmore ⊢
      rw [separated_cons l (List.cons_ne_nil m ls), splitAt_append hl.no_feed,
        linesOfPieces_cons l (splitAt_ne_nil _ _), hl.dropReturn_eq, hmore]

theorem head_separated {ls : List (List Char)} (h : ∀ l ∈ ls, IsLine l) :
    ∀ c ∈ (separated ls).head?, isBlank c = false := by
  cases ls with
  | nil => simp [separated]
  | cons l ls =>
    have hl := h l List.mem_cons_self
    cases l with
    | nil => exact absurd rfl hl.ne_nil
    | cons c l => cases ls <;> exact hl.head

theorem last_separated {ls : List (List Char)} (h : ∀ l ∈ ls, IsLine l) :
    ∀ c ∈ (separated ls).getLast?, isBlank c = false := by
  induction ls with
  | nil => simp [separated]
  | cons l ls ih =>
    rw [List.forall_mem_cons] at h
    cases ls with
    | nil => exact h.1.last
    | cons m ls =>
      have hmore := ih h.2
      have hne : separated (m :: ls) ≠ [] := by
        have hm := (h.2 m List.mem_cons_self).ne_nil
        cases ls <;> simp [separated, hm]
      obtain ⟨c, hc⟩ := Option.isSome_iff_exists.mp (List.getLast?_isSome.mpr hne)
      rw [separated_cons l (List.cons_ne_nil m ls), List.getLast?_append, List.getLast?_cons, hc]
      rwa [hc] at hmore

/-- Lines are found again where they are written one by one and the text is trimmed. -/
theorem lines_trim_joined {ls : List (List Char)} (h : ∀ l ∈ ls, IsLine l) :
    lines (trim (joined ls)) = ls := by
  cases ls with
  | nil => rfl
  | cons l ls =>
    have htrim : trim ([] ++ (separated (l :: ls) ++ ['\n'])) = separated (l :: ls) := by
      refine trimWhile_append (by simp) ?_ (head_separated h) (last_separated h)
      intro c hc
      rw [List.mem_singleton.mp hc]
      decide
    rw [joined_eq_separated (List.cons_ne_nil l ls), ← List.nil_append (separated _ ++ _), htrim,
      lines_separated h]

/-! ### Rows -/

/-- A character at the end goes to the last piece. -/
theorem exists_splitAt_concat {c : Char} (h : c ≠ sep) (s : List Char) :
    ∃ pieces last, splitAt sep s = pieces ++ [last] ∧
      splitAt sep (s ++ [c]) = pieces ++ [last ++ [c]] := by
  induction s with
  | nil => exact ⟨[], [], rfl, by simp [splitAt, h]⟩
  | cons a s ih =>
    obtain ⟨pieces, last, hs, hc⟩ := ih
    rw [List.cons_append, splitAt, splitAt, hs, hc]
    split
    · exact ⟨[] :: pieces, last, rfl, rfl⟩
    · cases pieces with
      | nil => exact ⟨[], a :: last, rfl, rfl⟩
      | cons piece pieces => exact ⟨(a :: piece) :: pieces, last, rfl, rfl⟩

/-- The pieces between line feeds, trimmed. -/
def rows (s : List Char) : List (List Char) :=
  (splitAt '\n' s).map trim

theorem rows_separated {ls : List (List Char)} (hne : ls ≠ []) (h : ∀ l ∈ ls, '\n' ∉ l) :
    rows (separated ls) = ls.map trim := by
  rw [rows, separated_eq, splitAt_intercalate hne h]

theorem dropWhile_rows_cons {c : Char} (h : isBlank c = true) (s : List Char) :
    (rows (c :: s)).dropWhile List.isEmpty = (rows s).dropWhile List.isEmpty := by
  rw [rows, rows, splitAt]
  split
  · rfl
  · cases hs : splitAt '\n' s with
    | nil => exact absurd hs (splitAt_ne_nil _ s)
    | cons piece pieces =>
      rw [List.map_cons, List.map_cons, trim_cons_of_isBlank h]

theorem rdropWhile_rows_concat {c : Char} (h : isBlank c = true) (s : List Char) :
    (rows (s ++ [c])).rdropWhile List.isEmpty = (rows s).rdropWhile List.isEmpty := by
  by_cases hc : c = '\n'
  · subst hc
    rw [rows, rows, splitAt_append_sep, List.map_append]
    exact List.rdropWhile_concat_pos _ _ _ rfl
  · obtain ⟨pieces, last, hs, hconcat⟩ := exists_splitAt_concat hc s
    rw [rows, rows, hs, hconcat, List.map_append, List.map_append, List.map_singleton,
      List.map_singleton, trim_concat_of_isBlank h]

theorem dropWhile_rows_trimLeft (s : List Char) :
    (rows (trimLeft s)).dropWhile List.isEmpty = (rows s).dropWhile List.isEmpty := by
  induction s with
  | nil => rfl
  | cons c s ih =>
    by_cases h : isBlank c = true
    · rw [dropWhile_rows_cons h, ← ih, trimLeft, List.dropWhile_cons_of_pos h, trimLeft]
    · rw [trimLeft, List.dropWhile_cons_of_neg h]

theorem rdropWhile_rows_trimRight (s : List Char) :
    (rows (trimRight s)).rdropWhile List.isEmpty = (rows s).rdropWhile List.isEmpty := by
  rw [trimRight, dropRightWhile_eq]
  induction s using List.reverseRecOn with
  | nil => rfl
  | append_singleton s c ih =>
    by_cases h : isBlank c = true
    · rw [rdropWhile_rows_concat h, ← ih, List.rdropWhile_concat_pos _ _ _ h]
    · rw [List.rdropWhile_concat_neg _ _ _ h]

theorem trim_dropReturn (s : List Char) : trim (dropReturn s) = trim s := by
  rw [dropReturn]
  cases hend : dropEnd? ['\r'] s with
  | none => rfl
  | some front =>
    rw [dropEnd?_eq_some_iff.mp hend]
    exact (trim_concat_of_isBlank (by decide) front).symm

theorem map_trim_linesOfPieces (pieces : List (List Char)) (last : List Char) :
    (linesOfPieces (pieces ++ [last])).map trim =
      pieces.map trim ++ if last.isEmpty then [] else [trim last] := by
  induction pieces with
  | nil =>
    rw [List.nil_append, linesOfPieces]
    split <;> rfl
  | cons piece pieces ih =>
    rw [List.cons_append, linesOfPieces_cons _ (by simp), List.map_cons, trim_dropReturn, ih]
    rfl

/-- The trimmed lines of a text that does not end with a blank are its rows. -/
theorem map_trim_lines (h : ∀ c ∈ s.getLast?, isBlank c = false) :
    (lines s).map trim = (rows s).rdropWhile List.isEmpty := by
  rcases List.eq_nil_or_concat s with rfl | ⟨front, c, rfl⟩
  · rfl
  · rw [List.concat_eq_append] at h ⊢
    have hblank : isBlank c = false := h c (by simp)
    have hc : c ≠ '\n' := by
      rintro rfl
      exact absurd hblank (by decide)
    obtain ⟨pieces, last, _, hconcat⟩ := exists_splitAt_concat hc front
    have hlast : trim (last ++ [c]) ≠ [] := by
      rw [trim_append_cons hblank]
      simp
    rw [lines, rows, hconcat, map_trim_linesOfPieces, List.map_append, List.map_singleton,
      List.rdropWhile_concat_neg _ _ _ (by simpa using hlast), if_neg (by simp)]

/-- The lines of a trimmed text are its rows, up to empty ones at both ends. -/
theorem map_trim_lines_trim (s : List Char) :
    ((lines (trim s)).map trim).dropWhile List.isEmpty =
      ((rows s).rdropWhile List.isEmpty).dropWhile List.isEmpty := by
  have hlines : (lines (trim s)).map trim = (rows (trimLeft s)).rdropWhile List.isEmpty :=
    (map_trim_lines (last_trimWhile s)).trans (rdropWhile_rows_trimRight (trimLeft s))
  rw [hlines, dropWhile_rdropWhile, dropWhile_rows_trimLeft, dropWhile_rdropWhile]

end Scriptorium.Text
