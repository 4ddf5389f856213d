/-
The line ends of a script do not matter: with a carriage return before every line feed a manifest is
read as before.

The marks of a block hold neither of the two characters, so the block is found at the same place
(`block?_withReturns`). In the block a carriage return stands at the end of a piece between line
feeds, where trimming drops it; the rows of the block are the same (`rows_withReturns`), and so is
all that is read from them.
-/

import Mathlib.Data.List.Forall2
import Scriptorium.Proofs.Manifest.Run

namespace Scriptorium

namespace Text

variable {c : Char} {s mark : List Char}

/-! ### Carriage returns -/

/-- A text with a carriage return before every line feed. -/
def withReturns (s : List Char) : List Char :=
  replaceChar '\n' ['\r', '\n'] s

@[simp] theorem withReturns_nil : withReturns [] = [] := rfl

@[simp] theorem withReturns_feed (s : List Char) :
    withReturns ('\n' :: s) = '\r' :: '\n' :: withReturns s := rfl

theorem withReturns_cons (h : c ≠ '\n') (s : List Char) :
    withReturns (c :: s) = c :: withReturns s := by
  rw [withReturns, replaceChar, List.flatMap_cons, if_neg h]
  rfl

/-- A mark on one line is found in front of the same texts. -/
theorem dropStart?_withReturns (hfeed : '\n' ∉ mark) (hreturn : '\r' ∉ mark) (s : List Char) :
    dropStart? mark (withReturns s) = (dropStart? mark s).map withReturns := by
  induction mark generalizing s with
  | nil => rfl
  | cons a mark ih =>
    rw [List.mem_cons, not_or] at hfeed hreturn
    cases s with
    | nil => rfl
    | cons c s =>
      by_cases hc : c = '\n'
      · subst hc
        rw [withReturns_feed, dropStart?, dropStart?, if_neg (Ne.symm hreturn.1),
          if_neg (Ne.symm hfeed.1)]
        rfl
      · rw [withReturns_cons hc, dropStart?, dropStart?]
        split
        · exact ih hfeed.2 hreturn.2 s
        · rfl

theorem isPrefixOf_withReturns (hfeed : '\n' ∉ mark) (hreturn : '\r' ∉ mark) (s : List Char) :
    mark.isPrefixOf (withReturns s) = mark.isPrefixOf s := by
  rw [isPrefixOf_eq, isPrefixOf_eq, dropStart?_withReturns hfeed hreturn, Option.isSome_map]

/-! ### Rows -/

/-- A piece between line feeds may have got a carriage return at its end. -/
theorem splitAt_withReturns (s : List Char) :
    List.Forall₂ (fun piece old => piece = old ∨ piece = old ++ ['\r'])
      (splitAt '\n' (withReturns s)) (splitAt '\n' s) := by
  induction s with
  | nil => exact .cons (.inl rfl) .nil
  | cons c s ih =>
    by_cases hc : c = '\n'
    · subst hc
      have hpieces : splitAt '\n' (withReturns ('\n' :: s)) =
          ['\r'] :: splitAt '\n' (withReturns s) :=
        splitAt_append (s := ['\r']) (by decide)
      rw [hpieces, splitAt, if_pos rfl]
      exact .cons (.inr rfl) ih
    · rw [withReturns_cons hc, splitAt, splitAt, if_neg hc, if_neg hc]
      generalize splitAt '\n' (withReturns s) = pieces at ih
      generalize splitAt '\n' s = olds at ih
      -- The character goes in front of the first pieces, which differ at most at their ends.
      cases ih with
      | nil => exact .cons (.inl rfl) .nil
      | cons hpiece hrest =>
        refine .cons ?_ hrest
        rcases hpiece with rfl | rfl
        · exact .inl rfl
        · exact .inr rfl

theorem rows_withReturns (s : List Char) : rows (withReturns s) = rows s := by
  rw [rows, rows, ← List.forall₂_eq_eq_eq, List.forall₂_map_left_iff, List.forall₂_map_right_iff]
  refine (splitAt_withReturns s).imp ?_
  rintro piece old (rfl | rfl)
  · rfl
  · exact trim_concat_of_isBlank (by decide) old

end Text

namespace Manifest

open Text (withReturns)

variable {c : Char} {s : List Char} {text : String}

/-! ### The block -/

theorem dropLineEnd?_withReturns (h : '\r' ∉ s) :
    dropLineEnd? (withReturns s) = (dropLineEnd? s).map withReturns := by
  cases s with
  | nil => rfl
  | cons c s =>
    by_cases hc : c = '\n'
    · subst hc
      rfl
    · have hnone (t : List Char) : dropLineEnd? (c :: t) = none := by
        rw [Option.eq_none_iff_forall_ne_some]
        intro rest hrest
        rcases dropLineEnd?_eq_some_iff.mp hrest with heq | heq
        · exact hc (List.cons.inj heq).1
        · exact h (by rw [(List.cons.inj heq).1]; exact List.mem_cons_self)
      rw [Text.withReturns_cons hc, hnone, hnone]
      rfl

theorem dropOpening?_withReturns (h : '\r' ∉ s) :
    dropOpening? (withReturns s) = (dropOpening? s).map withReturns := by
  rw [dropOpening?, dropOpening?, Text.dropStart?_withReturns (by decide) (by decide)]
  cases hrest : Text.dropStart? openingMark s with
  | none => rfl
  | some rest =>
    have hreturn : '\r' ∉ rest := by
      rw [Text.dropStart?_eq_some_iff.mp hrest, List.mem_append, not_or] at h
      exact h.2
    exact dropLineEnd?_withReturns hreturn

/-- A block begins only with the first character of its mark. -/
theorem dropOpening?_cons (h : c ≠ '#') (s : List Char) : dropOpening? (c :: s) = none := by
  have hmark : openingMark = '#' :: " /// script".toList := rfl
  rw [dropOpening?, hmark, Text.dropStart?, if_neg (Ne.symm h)]
  rfl

theorem afterOpening?_withReturns (h : '\r' ∉ s) :
    afterOpening? (withReturns s) = (afterOpening? s).map withReturns := by
  induction s with
  | nil => rfl
  | cons c s ih =>
    have hmore := ih fun hmem => h (List.mem_cons_of_mem c hmem)
    by_cases hc : c = '\n'
    · subst hc
      rw [Text.withReturns_feed, afterOpening?, dropOpening?_cons (by decide), afterOpening?,
        dropOpening?_cons (by decide), afterOpening?, dropOpening?_cons (by decide), hmore]
      rfl
    · have hopening := dropOpening?_withReturns h
      rw [Text.withReturns_cons hc] at hopening ⊢
      rw [afterOpening?, afterOpening?, hopening, hmore]
      cases dropOpening? (c :: s) with
      | none => rfl
      | some rest => rfl

theorem before?_withReturns {mark : List Char} (hfeed : '\n' ∉ mark) (hreturn : '\r' ∉ mark)
    (hne : mark ≠ []) (s : List Char) :
    before? mark (withReturns s) = (before? mark s).map withReturns := by
  have hnone {c : Char} (hc : c ∉ mark) (t : List Char) : mark.isPrefixOf (c :: t) = false := by
    cases mark with
    | nil => exact absurd rfl hne
    | cons a mark =>
      rw [List.mem_cons, not_or] at hc
      rw [List.isPrefixOf, beq_false_of_ne (Ne.symm hc.1), Bool.false_and]
  induction s with
  | nil =>
    rw [Text.withReturns_nil, before?]
    split <;> rfl
  | cons c s ih =>
    by_cases hc : c = '\n'
    · subst hc
      rw [Text.withReturns_feed, before?, before?, before?, hnone hreturn, hnone hfeed, hnone hfeed,
        ih]
      cases before? mark s with
      | none => rfl
      | some front => rfl
    · have hmarked := Text.isPrefixOf_withReturns hfeed hreturn (c :: s)
      rw [Text.withReturns_cons hc] at hmarked ⊢
      rw [before?, before?, hmarked, ih]
      split
      · rfl
      · cases before? mark s with
        | none => rfl
        | some front => simp [Text.withReturns_cons hc]

/-- The block of a text with carriage returns is the block of the text, with carriage returns. -/
theorem block?_withReturns (h : '\r' ∉ s) :
    block? (withReturns s) = (block? s).map withReturns := by
  rw [block?, block?, afterOpening?_withReturns h]
  cases afterOpening? s with
  | none => rfl
  | some rest => exact before?_withReturns (by decide) (by decide) (by decide) rest

/-! ### What is read -/

theorem eventsOf_withReturns (block : List Char) :
    eventsOf (withReturns block) = eventsOf block := by
  rw [eventsOf_eq, eventsOf_eq, Text.rows_withReturns]

/-- **Line ends do not matter.** With a carriage return before every line feed a script has the same
manifest, with the same warnings. -/
theorem read_withReturns (h : '\r' ∉ text.toList) :
    read (String.ofList (withReturns text.toList)) = read text := by
  have hblock : block? (String.ofList (withReturns text.toList)).toList =
      (block? text.toList).map withReturns := by
    rw [String.toList_ofList, block?_withReturns h]
  cases hfound : block? text.toList with
  | none =>
    rw [hfound] at hblock
    rw [read, read, hblock, hfound]
    rfl
  | some block =>
    rw [hfound] at hblock
    rw [read_of_block hblock, read_of_block hfound, eventsOf_withReturns]

theorem read_withReturns_of_open_list :
    let text := "run()\n# /// script\n# a = 'x'\n\n# tags = ['b',\n# 'c' ]\n# url = [\n#\td# ///\n"
    '\r' ∉ text.toList ∧
      read (String.ofList (withReturns text.toList)) = read text ∧
      (read text).manifest.entries.toList =
        [("a", .scalar "x"), ("tags", .list ["b", "c"]), ("url", .list ["d"])] ∧
      (read text).warnings = [.scalarCut "a" "", .unclosedList "url"] := by
  intro text
  have hreturn : '\r' ∉ text.toList := by decide
  exact ⟨hreturn, read_withReturns hreturn, by decide +kernel, by decide +kernel⟩

end Manifest

end Scriptorium
