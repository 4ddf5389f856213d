/-
All layouts of a list agree.

A list stands in brackets on the line of its key, or goes on over comment lines up to a closing
bracket. Whatever its strings hold and however they are spread over the lines, reading the lines
enters the list and leaves nothing pending (`readLines_layout`); so a block with the list is read as
the lines before it, the entry, and the lines behind it as a block of their own.
-/

import Scriptorium.Proofs.Manifest.ListLine
import Scriptorium.Proofs.Manifest.Run

namespace Scriptorium.Manifest

variable {key : String} {items : List String} {p : Pending}
  {before opening after : List Char} {lines front rest : List (List Char)}

/-! ### Layouts -/

/-- The lines of a list behind the one that opens it: comment lines with any number of items each,
the last of which ends with the closing bracket. -/
inductive Continuation : List String → List (List Char) → Prop where
  | close {items : List String} {margin row g : List Char} :
      Margin margin → ItemRow items row → Blanks g →
      Continuation items [margin ++ (row ++ ']' :: g)]
  | more {items others : List String} {margin row : List Char} {lines : List (List Char)} :
      Margin margin → ItemRow items row → Continuation others lines →
      Continuation (items ++ others) ((margin ++ row) :: lines)

/-- The ways of laying a list out under a key. -/
inductive Layout (key : String) : List String → List (List Char) → Prop where
  | inline {items : List String} {head row g : List Char} :
      KeyHead key head → ItemRow items row → Blanks g →
      Layout key items [head ++ '[' :: (row ++ ']' :: g)]
  | spread {items others : List String} {head row : List Char} {lines : List (List Char)} :
      KeyHead key head → ItemRow items row → Continuation others lines →
      Layout key (items ++ others) ((head ++ '[' :: row) :: lines)

/-! ### Reading the lines -/

theorem filter_nonempty (h : ∀ s ∈ items, s ≠ "") : items.filter (· ≠ "") = items :=
  List.filter_eq_self.mpr fun s hs => decide_eq_true (h s hs)

theorem readLines_continuation (h : Continuation items lines) (hitems : ∀ s ∈ items, s ≠ "")
    (done : List String) (rest : List (List Char)) :
    readLines (.list key done) (lines.map Text.trim ++ rest) =
      .entry key (.list (done ++ items)) :: readLines .nothing rest := by
  induction h generalizing done with
  | close hmargin hrow hg =>
    rw [List.map_singleton, List.singleton_append, readLines_cons, step_margin hmargin,
      if_pos (lastSolid_bracket hg _), hrow.lineItems_dropMarks_bracket hg,
      filter_nonempty hitems]
    rfl
  | more hmargin hrow _ ih =>
    rw [List.forall_mem_append] at hitems
    rw [List.map_cons, List.cons_append, readLines_cons, step_margin hmargin,
      if_neg hrow.lastSolid_ne, hrow.lineItems_dropMarks, filter_nonempty hitems.1, ih hitems.2,
      List.append_assoc]
    rfl

/-- Reading the lines of a list enters what was pending before them, and then the list. -/
theorem readLines_layout (h : Layout key items lines) (hkey : IsKey key.toList)
    (hitems : ∀ s ∈ items, s ≠ "") (hp : Settled p) (rest : List (List Char)) :
    readLines p (lines.map Text.trim ++ rest) =
      finish p ++ .entry key (.list items) :: readLines .nothing rest := by
  cases h with
  | inline hhead hrow hg =>
    rw [List.map_singleton, List.singleton_append, readLines_cons, step_head hp hkey hhead,
      if_pos (lastSolid_bracket hg _), enterList_inline hrow hg]
    simp
  | spread hhead hrow hlines =>
    rw [List.forall_mem_append] at hitems
    rw [List.map_cons, List.cons_append, readLines_cons, step_head hp hkey hhead,
      if_neg hrow.lastSolid_ne, hrow.lineItems_eq, filter_nonempty hitems.1,
      readLines_continuation hlines hitems.2]

/-! ### Reading a block -/

/-- The last line of a list is not empty. -/
theorem Continuation.exists_concat (h : Continuation items lines) :
    ∃ init last, lines = init ++ [last] ∧ Text.trim last ≠ [] := by
  induction h with
  | close _ _ _ =>
    exact ⟨[], _, rfl, Text.trim_ne_nil (c := ']') (by decide) (by simp)⟩
  | more _ _ _ ih =>
    obtain ⟨init, last, rfl, hlast⟩ := ih
    exact ⟨_ :: init, last, rfl, hlast⟩

theorem Layout.exists_concat (h : Layout key items lines) :
    ∃ init last, lines = init ++ [last] ∧ Text.trim last ≠ [] := by
  cases h with
  | inline _ _ _ =>
    exact ⟨[], _, rfl, Text.trim_ne_nil (c := ']') (by decide) (by simp)⟩
  | spread _ _ hlines =>
    obtain ⟨init, last, rfl, hlast⟩ := hlines.exists_concat
    exact ⟨_ :: init, last, rfl, hlast⟩

/-- A list between other lines of a block is entered between their entries. -/
theorem eventsOf_layout (h : Layout key items lines) (hkey : IsKey key.toList)
    (hitems : ∀ s ∈ items, s ≠ "")
    (hfeed : ∀ l ∈ front ++ (lines ++ rest), '\n' ∉ l)
    (hfront : Settled (stateAfter .nothing (front.map Text.trim))) :
    eventsOf (Text.separated (front ++ (lines ++ rest))) =
      readLines .nothing (front.map Text.trim) ++
        .entry key (.list items) :: eventsOf (Text.separated rest) := by
  have hrest : ∀ l ∈ rest, '\n' ∉ l := fun l hl =>
    hfeed l (List.mem_append_right _ (List.mem_append_right _ hl))
  rw [eventsOf_separated_append h.exists_concat hfeed, readLines_append,
    readLines_layout h hkey hitems hfront, readLines_eq .nothing (front.map Text.trim),
    eventsOf_separated_lines hrest]
  simp

/-! ### What is read -/

/-- A list under another key than that of the source adds no warning. -/
theorem warnings_ofEvents_list (h : key ≠ externalSourceKey) (first more : List Event) :
    (Reading.ofEvents (first ++ .entry key (.list items) :: more)).warnings =
      (Reading.ofEvents (first ++ more)).warnings := by
  have hsource : (ofEvents (first ++ .entry key (.list items) :: more)).get? externalSourceKey =
      (ofEvents (first ++ more)).get? externalSourceKey := by
    rw [ofEvents_eq, ofEvents_eq, get?_ofEntries, get?_ofEntries]
    simp [List.find?_append, h]
  have hmore : (ofEvents (first ++ .entry key (.list items) :: more)).withExternalSource.2 =
      (ofEvents (first ++ more)).withExternalSource.2 := by
    unfold withExternalSource
    rw [hsource]
    split <;> rfl
  simp only [Reading.ofEvents, hmore, List.filterMap_append, List.filterMap_cons, Event.warning?]

/-- A list is what its key holds if nothing is entered under the key behind it. -/
theorem get?_ofEvents_list {more : List Event} (h : key ∉ (entriesOf more).map Prod.fst)
    (first : List Event) :
    (Reading.ofEvents (first ++ .entry key (.list items) :: more)).manifest.get? key =
      some (.list items) :=
  get?_ofEvents_entry h first (.list items)

/-- **All layouts of a list agree.** In every script and every block, and behind lines that leave no
list open, a list of non-empty strings is entered under its key, whatever its layout. It adds no
warning, and the lines behind it are read as if a block began with them. -/
theorem read_layout {text : String} (h : Layout key items lines) (hkey : IsKey key.toList)
    (hsource : key ≠ externalSourceKey) (hitems : ∀ s ∈ items, s ≠ "")
    (hblock : IsBlock before opening (front ++ (lines ++ rest)))
    (hfront : Settled (stateAfter .nothing (front.map Text.trim)))
    (htext : text = scriptOf before opening (front ++ (lines ++ rest)) after) :
    read text = Reading.ofEvents (readLines .nothing (front.map Text.trim) ++
        .entry key (.list items) :: eventsOf (Text.separated rest)) ∧
      (read text).warnings = (Reading.ofEvents (readLines .nothing (front.map Text.trim) ++
        eventsOf (Text.separated rest))).warnings ∧
      (key ∉ (entriesOf (eventsOf (Text.separated rest))).map Prod.fst →
        (read text).manifest.get? key = some (.list items)) := by
  have hread : read text = Reading.ofEvents (readLines .nothing (front.map Text.trim) ++
      .entry key (.list items) :: eventsOf (Text.separated rest)) := by
    rw [htext, read_of_block (hblock.block?_eq after),
      eventsOf_layout h hkey hitems hblock.no_feed hfront]
  refine ⟨hread, ?_, fun hlater => ?_⟩
  · rw [hread, warnings_ofEvents_list hsource]
  · rw [hread, get?_ofEvents_list hlater]

theorem read_layout_of_three_lines :
    Layout "tags" ["a", "b, ]"]
        ["# tags = ['a',".toList, "#   'b, ]'".toList, "# ]".toList] ∧
      (read (scriptOf "run()\n".toList (openingMark ++ ['\n']) (["# title = A".toList] ++
        (["# tags = ['a',".toList, "#   'b, ]'".toList, "# ]".toList] ++ [[]])) [])).manifest.get?
          "tags" = some (.list ["a", "b, ]"]) := by
  have hmargin : Margin "# ".toList := @Margin.mk [] [' '] (by decide) (List.all_eq_true.mp rfl)
  have hhead : KeyHead "tags" "# tags = ".toList :=
    @KeyHead.comment _ "# ".toList [] [' '] [' '] hmargin (by decide) (by decide) (by decide)
  have hfirst : ItemRow ["a"] "'a',".toList :=
    @ItemRow.items _ [] _ _ (by decide) (.single (Literal.pieces_renderStr "a".toList))
      (@RowEnd.comma [] [] (by decide) (by decide))
  have hsecond : ItemRow ["b, ]"] "  'b, ]'".toList :=
    @ItemRow.items _ "  ".toList _ _ (by decide)
      (.single (Literal.pieces_renderStr "b, ]".toList)) (@RowEnd.bare [] (by decide))
  have hlayout : Layout "tags" ["a", "b, ]"]
      ["# tags = ['a',".toList, "#   'b, ]'".toList, "# ]".toList] :=
    .spread hhead hfirst (.more hmargin hsecond
      (@Continuation.close _ _ [] [] hmargin (.blank (by decide)) (by decide)))
  have hfront : stateAfter .nothing (["# title = A".toList].map Text.trim) =
      .scalar "title" "A" := by
    decide +kernel
  refine ⟨hlayout, (read_layout hlayout (by decide) (by decide) (by decide) ?_ ?_ rfl).2.2 ?_⟩
  · exact ⟨List.mem_cons_self, by decide +kernel, by decide +kernel, by decide +kernel⟩
  · rw [hfront]
    exact settled_scalar _ _
  · decide +kernel

end Scriptorium.Manifest
