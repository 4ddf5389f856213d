/-
What cleaning keeps of a documentation: every line in which a character begins where the common
indentation ends.

The indentation is counted in bytes, and blanks are of different sizes. Where the cut would fall
inside a blank, the line is lost, with all that is written in it (`solid_cleanDocstring_iff`).
-/

import Mathlib.Data.List.Flatten
import Scriptorium.Command.Docstring
import Scriptorium.Proofs.Text.Solid

namespace Scriptorium.Command

open Text

variable {n : Nat} {s rest line : List Char} {lines : List (List Char)}

/-! ### Cutting bytes -/

/-- A character of the text, or its end, is `n` bytes behind its beginning. -/
def CutsAt (n : Nat) (s : List Char) : Prop :=
  ∃ front, front <+: s ∧ byteSize front = n

theorem dropBytes?_append (front rest : List Char) :
    dropBytes? (byteSize front) (front ++ rest) = some rest := by
  induction front with
  | nil => cases rest <;> rfl
  | cons c front ih =>
    have := c.utf8Size_pos
    rw [byteSize_cons, List.cons_append, dropBytes?, if_neg (by omega), if_pos (by omega),
      Nat.add_sub_cancel_left, ih]

theorem dropBytes?_eq_some_iff :
    dropBytes? n s = some rest ↔ ∃ front, s = front ++ rest ∧ byteSize front = n := by
  constructor
  · intro h
    fun_induction dropBytes? n s with
    | case1 | case3 => exact ⟨[], Option.some.inj h, rfl⟩
    | case2 | case5 => cases h
    | case4 n c s hn hle ih =>
      obtain ⟨front, rfl, hsize⟩ := ih h
      refine ⟨c :: front, rfl, ?_⟩
      rw [byteSize_cons, hsize, Nat.add_sub_cancel' hle]
  · rintro ⟨front, rfl, rfl⟩
    exact dropBytes?_append front rest

theorem isSome_dropBytes?_iff : (dropBytes? n s).isSome ↔ CutsAt n s := by
  rw [Option.isSome_iff_exists]
  constructor
  · rintro ⟨rest, h⟩
    obtain ⟨front, rfl, hsize⟩ := dropBytes?_eq_some_iff.mp h
    exact ⟨front, List.prefix_append front rest, hsize⟩
  · rintro ⟨front, ⟨rest, rfl⟩, hsize⟩
    exact ⟨rest, dropBytes?_eq_some_iff.mpr ⟨front, rfl, hsize⟩⟩

instance : Decidable (CutsAt n s) :=
  decidable_of_iff _ isSome_dropBytes?_iff

/-- A beginning of a line that is no larger than its indentation is blank. -/
theorem solid_of_byteSize_le {front : List Char} (h : front <+: line)
    (hsize : byteSize front ≤ indentBytes line) : solid front = [] := by
  rw [solid_eq_nil_iff]
  intro c hc
  rcases List.prefix_or_prefix_of_prefix h (List.takeWhile_prefix (p := isBlank)) with hin | hout
  · exact List.mem_takeWhile_imp (hin.subset hc)
  · obtain ⟨t, rfl⟩ := hout
    have ht : t = [] := by
      cases t with
      | nil => rfl
      | cons d t =>
        have := d.utf8Size_pos
        rw [byteSize_append, byteSize_cons] at hsize
        rw [indentBytes] at hsize
        omega
    rw [ht, List.append_nil] at hc
    exact List.mem_takeWhile_imp hc

/-! ### The lines behind the first -/

theorem commonIndent_le (hmem : line ∈ lines) (h : solid line ≠ []) :
    commonIndent lines ≤ indentBytes line := by
  have hkept : line ∈ lines.filter fun line => !(trim line).isEmpty := by
    rw [List.mem_filter]
    refine ⟨hmem, ?_⟩
    rw [Bool.not_eq_true', List.isEmpty_eq_false_iff, Ne, trim_eq_nil_iff]
    exact h
  have hsize := List.mem_map_of_mem (f := indentBytes) hkept
  rw [commonIndent]
  exact List.min?_getD_le_of_mem hsize

/-- A line is kept if it can be cut at the common indentation, and lost if it cannot. -/
theorem solid_unindent (hmem : line ∈ lines) :
    solid (unindent (commonIndent lines) line) =
      if CutsAt (commonIndent lines) line then solid line else [] := by
  rw [unindent, solid_trimRight]
  cases hcut : dropBytes? (commonIndent lines) line with
  | none =>
    have hnot : ¬CutsAt (commonIndent lines) line := by
      rw [← isSome_dropBytes?_iff, hcut]
      exact Bool.false_ne_true
    rw [if_neg hnot]
    rfl
  | some rest =>
    have hcuts : CutsAt (commonIndent lines) line := by
      rw [← isSome_dropBytes?_iff, hcut]
      rfl
    rw [if_pos hcuts, Option.getD_some]
    obtain ⟨front, hline, hsize⟩ := dropBytes?_eq_some_iff.mp hcut
    by_cases hsolid : solid line = []
    · rw [hline, solid_append, List.append_eq_nil_iff] at hsolid
      rw [hline, solid_append, hsolid.1, List.nil_append]
    · have hle : byteSize front ≤ indentBytes line := hsize ▸ commonIndent_le hmem hsolid
      have hfront : solid front = [] :=
        solid_of_byteSize_le (hline ▸ List.prefix_append front rest) hle
      rw [hline, solid_append, hfront, List.nil_append]

/-! ### The whole documentation -/

theorem flatMap_solid_dropEmptyEnds (ls : List (List Char)) :
    (dropEmptyEnds ls).flatMap solid = ls.flatMap solid := by
  have hfront (ls : List (List Char)) :
      (ls.dropWhile List.isEmpty).flatMap solid = ls.flatMap solid := by
    induction ls with
    | nil => rfl
    | cons l ls ih =>
      cases l with
      | nil => exact ih
      | cons c l => rfl
  have hback (ls : List (List Char)) :
      (ls.rdropWhile List.isEmpty).flatMap solid = ls.flatMap solid := by
    induction ls using List.reverseRecOn with
    | nil => rfl
    | append_singleton ls l ih =>
      cases l with
      | nil => rw [List.rdropWhile_concat_pos _ _ _ rfl, ih, List.flatMap_append]; simp
      | cons c l => rw [List.rdropWhile_concat_neg _ _ _ (by simp)]
  exact (hback _).trans (hfront ls)

/-- The solid characters of a cleaned documentation, line by line. -/
theorem solid_cleanDocstring (s : List Char) :
    solid (cleanDocstring s) = ((Text.lines s).take 1).flatMap solid ++
      (Text.lines s).tail.flatMap fun line =>
        solid (unindent (commonIndent (Text.lines s).tail) line) := by
  rw [cleanDocstring, solid_intercalate (by decide)]
  cases Text.lines s with
  | nil => rfl
  | cons first rest =>
    rw [cleanLines, flatMap_solid_dropEmptyEnds, List.flatMap_cons, solid_trim, List.flatMap_map]
    simp

/-- If of each part something may be lost, and of the whole nothing is, then nothing is of any
part. -/
theorem flatMap_eq_flatMap_iff {α β : Type*} {f g : α → List β} {l : List α}
    (h : ∀ a ∈ l, (f a).Sublist (g a)) :
    l.flatMap f = l.flatMap g ↔ ∀ a ∈ l, f a = g a := by
  refine ⟨fun heq => ?_, List.flatMap_congr⟩
  induction l with
  | nil => simp
  | cons a l ih =>
    rw [List.forall_mem_cons] at h ⊢
    have hrest : (l.flatMap f).Sublist (l.flatMap g) := List.Sublist.flatMap_right l h.2
    have hlength := congrArg List.length heq
    simp only [List.flatMap_cons, List.length_append] at heq hlength
    have hhead := h.1.length_le
    have htail := hrest.length_le
    obtain ⟨hfirst, hmore⟩ := List.append_inj heq (by omega)
    exact ⟨hfirst, ih h.2 hmore⟩

/-- **Cleaning a documentation.** All characters that are not blank are kept, in their order,
exactly if, in every line behind the first that is not blank, a character begins where the common
indentation ends. -/
theorem solid_cleanDocstring_iff (s : List Char) :
    solid (cleanDocstring s) = solid s ↔
      ∀ line ∈ (Text.lines s).tail,
        trim line ≠ [] → CutsAt (commonIndent (Text.lines s).tail) line := by
  have hlines : solid s = ((Text.lines s).take 1).flatMap solid ++
      (Text.lines s).tail.flatMap solid := by
    rw [← List.flatMap_append, ← List.drop_one, List.take_append_drop, flatMap_solid_lines]
  rw [solid_cleanDocstring, hlines, List.append_cancel_left_eq, flatMap_eq_flatMap_iff]
  · refine forall₂_congr fun line hmem => ?_
    rw [solid_unindent hmem, Ne, trim_eq_nil_iff]
    by_cases hcuts : CutsAt (commonIndent (Text.lines s).tail) line
    · simp only [hcuts, if_true, implies_true]
    · rw [if_neg hcuts, eq_comm]
      exact ⟨fun hnil hne => absurd hnil hne, fun h => by_contra fun hne => hcuts (h hne)⟩
  · intro line hmem
    rw [solid_unindent hmem]
    split
    · exact List.Sublist.refl _
    · exact List.nil_sublist _

/-- A blank of two bytes cannot be cut after the one byte by which another line is indented, and
what is written behind it is lost. -/
theorem solid_cleanDocstring_of_wide_blank :
    let s := "a\n b\n\u00A0c".toList
    cleanDocstring s = "a\nb".toList ∧ solid (cleanDocstring s) ≠ solid s := by
  decide +kernel

end Scriptorium.Command
