/-
Lines: a line ends at a line feed, with or without a carriage return before it.

`splitAt` cuts at every occurrence of a character; `lines` drops the empty rest after a final
line feed.
-/

import Scriptorium.Text.CodePoint

namespace Scriptorium.Text

/-! ### Pieces -/

/-- Cuts a text at every `sep`. There is always at least one piece. -/
def splitAt (sep : Char) : List Char → List (List Char)
  | [] => [[]]
  | c :: s =>
    if c = sep then [] :: splitAt sep s
    else
      match splitAt sep s with
      | [] => [[c]]
      | piece :: rest => (c :: piece) :: rest

theorem splitAt_ne_nil (sep : Char) (s : List Char) : splitAt sep s ≠ [] := by
  cases s with
  | nil => simp [splitAt]
  | cons c s =>
    simp only [splitAt]
    split
    · simp
    · split <;> simp

/-- The text before the first `sep` and the text after it. -/
def cutAt (sep : Char) : List Char → Option (List Char × List Char)
  | [] => none
  | c :: s =>
    if c = sep then some ([], s)
    else (cutAt sep s).map fun (before, after) => (c :: before, after)

/-- A cut is made at the first `sep`, and nothing but it is lost. -/
theorem cutAt_eq_some_iff {sep : Char} {s before after : List Char} :
    cutAt sep s = some (before, after) ↔ s = before ++ sep :: after ∧ sep ∉ before := by
  induction s generalizing before with
  | nil => simp [cutAt]
  | cons c s ih =>
    by_cases h : c = sep
    · subst h
      cases before with
      | nil => simp [cutAt]
      | cons b before => simp +contextual [cutAt]
    · simp only [cutAt, h, if_false, Option.map_eq_some_iff, Prod.exists, Prod.mk.injEq]
      constructor
      · rintro ⟨front, after', hcut, rfl, rfl⟩
        obtain ⟨rfl, hfront⟩ := ih.mp hcut
        exact ⟨rfl, by simp [Ne.symm h, hfront]⟩
      · rintro ⟨heq, hbefore⟩
        cases before with
        | nil => exact absurd (List.cons.inj heq).1 h
        | cons b front =>
          obtain ⟨rfl, rfl⟩ := List.cons.inj heq
          have hcut := ih.mpr ⟨rfl, fun hm => hbefore (List.mem_cons_of_mem _ hm)⟩
          exact ⟨front, after, hcut, rfl, rfl⟩

/-- The text before the last `sep` and the text after it. -/
def cutAtLast (sep : Char) (s : List Char) : Option (List Char × List Char) :=
  (cutAt sep s.reverse).map fun (before, after) => (after.reverse, before.reverse)

/-- The text after a given beginning. -/
def dropStart? : List Char → List Char → Option (List Char)
  | [], s => some s
  | _ :: _, [] => none
  | p :: ps, c :: s => if p = c then dropStart? ps s else none

theorem dropStart?_eq_some_iff {p s r : List Char} : dropStart? p s = some r ↔ s = p ++ r := by
  induction p generalizing s with
  | nil => simp [dropStart?]
  | cons a p ih =>
    cases s with
    | nil => simp [dropStart?]
    | cons c s =>
      by_cases h : a = c
      · subst h
        simp [dropStart?, ih]
      · simp [dropStart?, h, Ne.symm h]

/-- The text before a given ending. -/
def dropEnd? (ending s : List Char) : Option (List Char) :=
  (dropStart? ending.reverse s.reverse).map List.reverse

theorem dropEnd?_eq_some_iff {ending s front : List Char} :
    dropEnd? ending s = some front ↔ s = front ++ ending := by
  simp only [dropEnd?, Option.map_eq_some_iff, dropStart?_eq_some_iff]
  constructor
  · rintro ⟨t, hs, rfl⟩
    rw [← List.reverse_reverse s, hs, List.reverse_append, List.reverse_reverse]
  · rintro rfl
    exact ⟨front.reverse, List.reverse_append, List.reverse_reverse front⟩

/-! ### Lines -/

/-- Drops one carriage return at the end of a line. -/
def dropReturn (s : List Char) : List Char :=
  (dropEnd? ['\r'] s).getD s

/-- The lines of the pieces between line feeds: each but the last ended with a line feed and may
end with a carriage return; the last is a line only when it is not empty. -/
def linesOfPieces : List (List Char) → List (List Char)
  | [] => []
  | [last] => if last.isEmpty then [] else [last]
  | piece :: rest => dropReturn piece :: linesOfPieces rest

/-- The lines of a text, without their ends. -/
def lines (s : List Char) : List (List Char) :=
  linesOfPieces (splitAt '\n' s)

/-! ### Replacing -/

/-- Replaces every occurrence of a character by a text. -/
def replaceChar (old : Char) (new : List Char) (s : List Char) : List Char :=
  s.flatMap fun c => if c = old then new else [c]

end Scriptorium.Text
