/-
Occurrences of a text in another: where a text is cut at them, and what replaces them.

A text avoids a mark if no occurrence begins in it, whatever stands behind (`Avoids`). Such a text
is passed as it is (`pieces_append`, `replace_append`), so that what has been written with a code
for a character is read back by replacing the code (`replace_flatMap`).
-/

import Mathlib.Data.List.Basic
import Mathlib.Logic.Function.Basic

namespace Scriptorium.Text

variable {mark s t new : List Char}

/-! ### Cutting and replacing -/

/-- Cuts a text at the occurrences of a mark, behind the first `k` characters. -/
def piecesFrom (mark : List Char) : Nat → List Char → List (List Char)
  | _, [] => [[]]
  | k + 1, _ :: s => piecesFrom mark k s
  | 0, c :: s =>
    if mark.isPrefixOf (c :: s) then [] :: piecesFrom mark (mark.length - 1) s
    else (piecesFrom mark 0 s).modifyHead (c :: ·)

/-- Cuts a text at every occurrence of a mark, from left to right. -/
def pieces (mark s : List Char) : List (List Char) :=
  piecesFrom mark 0 s

/-- Puts a text in the place of every occurrence of a mark, from left to right. -/
def replace (mark new s : List Char) : List Char :=
  new.intercalate (pieces mark s)

theorem piecesFrom_ne_nil (mark : List Char) (k : Nat) (s : List Char) :
    piecesFrom mark k s ≠ [] := by
  fun_induction piecesFrom mark k s with
  | case1 => exact List.cons_ne_nil [] []
  | case2 _ _ _ ih => exact ih
  | case3 => exact List.cons_ne_nil [] _
  | case4 _ _ _ ih => exact fun h => ih (List.modifyHead_eq_nil_iff.mp h)

theorem exists_pieces_eq_cons (mark s : List Char) :
    ∃ first rest, pieces mark s = first :: rest :=
  List.exists_cons_of_ne_nil (piecesFrom_ne_nil mark 0 s)

/-- The characters of an occurrence are passed. -/
theorem piecesFrom_append (mark s t : List Char) :
    piecesFrom mark s.length (s ++ t) = pieces mark t := by
  induction s with
  | nil => rfl
  | cons c s ih => exact ih

/-- A text is cut at a mark with which it begins. -/
theorem pieces_mark_append (h : mark ≠ []) (s : List Char) :
    pieces mark (mark ++ s) = [] :: pieces mark s := by
  cases mark with
  | nil => exact absurd rfl h
  | cons c mark =>
    have hbegin : (c :: mark).isPrefixOf (c :: (mark ++ s)) = true :=
      List.isPrefixOf_iff_prefix.mpr ⟨s, rfl⟩
    rw [pieces, List.cons_append, piecesFrom, if_pos hbegin, List.length_cons,
      Nat.add_sub_cancel, piecesFrom_append]

theorem replace_mark_append (h : mark ≠ []) (new s : List Char) :
    replace mark new (mark ++ s) = new ++ replace mark new s := by
  obtain ⟨first, rest, hs⟩ := exists_pieces_eq_cons mark s
  rw [replace, replace, pieces_mark_append h, hs, List.intercalate_cons_cons, List.nil_append]

/-! ### Avoiding a mark -/

/-- A text in which no occurrence of a mark begins, whatever stands behind the text. -/
inductive Avoids (mark : List Char) : List Char → Prop
  | nil : Avoids mark []
  | cons {c : Char} {s : List Char} :
      (∀ rest, ¬mark <+: c :: (s ++ rest)) → Avoids mark s → Avoids mark (c :: s)

/-- No occurrence begins in a text without the first character of the mark. -/
theorem Avoids.of_not_mem {x : Char} {tail : List Char} (h : x ∉ s) : Avoids (x :: tail) s := by
  induction s with
  | nil => exact .nil
  | cons c s ih =>
    rw [List.mem_cons, not_or] at h
    refine .cons (fun rest hbegin => ?_) (ih h.2)
    exact h.1 (List.cons_prefix_cons.mp hbegin).1

/-- Two marks with the same first character, which is not in them again, differ at once if their
second characters do. -/
theorem Avoids.of_second_ne {x a b : Char} {tail : List Char} (hne : a ≠ b) (h : x ∉ b :: s) :
    Avoids (x :: a :: tail) (x :: b :: s) := by
  refine .cons (fun rest hbegin => ?_) (.of_not_mem h)
  obtain ⟨_, hbegin⟩ := List.cons_prefix_cons.mp hbegin
  exact hne (List.cons_prefix_cons.mp hbegin).1

/-- A text that avoids the mark goes to the first piece of what stands behind. -/
theorem pieces_append (h : Avoids mark s) (t : List Char) :
    pieces mark (s ++ t) = (pieces mark t).modifyHead (s ++ ·) := by
  induction h with
  | nil =>
    obtain ⟨first, rest, ht⟩ := exists_pieces_eq_cons mark t
    rw [List.nil_append, ht]
    rfl
  | @cons c s hbegin _ ih =>
    have hpass : ¬mark.isPrefixOf (c :: (s ++ t)) = true := fun hmark =>
      hbegin t (List.isPrefixOf_iff_prefix.mp hmark)
    rw [pieces, List.cons_append, piecesFrom, if_neg hpass]
    change (pieces mark (s ++ t)).modifyHead (c :: ·) = _
    rw [ih, List.modifyHead_modifyHead]
    rfl

theorem replace_append (h : Avoids mark s) (new t : List Char) :
    replace mark new (s ++ t) = s ++ replace mark new t := by
  obtain ⟨first, rest, ht⟩ := exists_pieces_eq_cons mark t
  rw [replace, replace, pieces_append h, ht, List.modifyHead_cons]
  cases rest with
  | nil => rw [List.intercalate_singleton, List.intercalate_singleton]
  | cons next rest =>
    rw [List.intercalate_cons_cons, List.intercalate_cons_cons]
    simp only [List.append_assoc]

/-! ### Codes -/

/-- In a text that is written with a code for each character, the code of one of them is replaced
where it stands for it, if the other codes avoid it. -/
theorem replace_flatMap {code : Char → List Char} {x : Char} (hne : code x ≠ [])
    (h : ∀ c, c ≠ x → Avoids (code x) (code c)) (new s : List Char) :
    replace (code x) new (s.flatMap code) = s.flatMap (Function.update code x new) := by
  induction s with
  | nil =>
    rw [List.flatMap_nil, List.flatMap_nil]
    rfl
  | cons c s ih =>
    rw [List.flatMap_cons, List.flatMap_cons]
    by_cases hc : c = x
    · rw [hc, replace_mark_append hne, ih, Function.update_self]
    · rw [replace_append (h c hc), ih, Function.update_of_ne hc]

end Scriptorium.Text
