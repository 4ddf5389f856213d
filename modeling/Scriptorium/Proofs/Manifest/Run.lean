/-
Reading lines one after the other.

Reading a list of lines is reading the first of them and going on from the state behind them
(`readLines_append`). The lines of a block are its rows (`eventsOf_eq`), so a change of one line
that changes neither the state behind it nor what it yields does not change what is read.
-/

import Scriptorium.Proofs.Manifest.Insertion
import Scriptorium.Proofs.Manifest.RoundTrip

namespace Scriptorium.Manifest

variable {text : String} {block before opening after : List Char} {lines : List (List Char)}

/-! ### Lines -/

/-- The state behind some lines. -/
def stateAfter (p : Pending) (lines : List (List Char)) : Pending :=
  lines.foldl (fun p line => (step p line).1) p

/-- What some lines yield, without what is pending behind them. -/
def yieldOf (p : Pending) : List (List Char) → List Event
  | [] => []
  | line :: rest => (step p line).2 ++ yieldOf (step p line).1 rest

theorem readLines_cons (p : Pending) (line : List Char) (rest : List (List Char)) :
    readLines p (line :: rest) = (step p line).2 ++ readLines (step p line).1 rest := rfl

theorem readLines_append (p : Pending) (front rest : List (List Char)) :
    readLines p (front ++ rest) = yieldOf p front ++ readLines (stateAfter p front) rest := by
  induction front generalizing p with
  | nil => rfl
  | cons line front ih =>
    rw [List.cons_append, readLines_cons, yieldOf, List.append_assoc, ih]
    rfl

theorem readLines_eq (p : Pending) (lines : List (List Char)) :
    readLines p lines = yieldOf p lines ++ finish (stateAfter p lines) := by
  have happend := readLines_append p lines []
  rwa [List.append_nil, readLines] at happend

/-- Where nothing is pending, empty lines are passed over. -/
theorem readLines_dropWhile_isEmpty (lines : List (List Char)) :
    readLines .nothing (lines.dropWhile List.isEmpty) = readLines .nothing lines := by
  induction lines with
  | nil => rfl
  | cons line lines ih =>
    cases line with
    | nil => exact ih
    | cons c line => rfl

/-- What reading a block yields is what its rows yield, but for empty ones at the end. -/
theorem eventsOf_eq (block : List Char) :
    eventsOf block = readLines .nothing ((Text.rows block).rdropWhile List.isEmpty) := by
  rw [eventsOf, ← readLines_dropWhile_isEmpty, Text.map_trim_lines_trim,
    readLines_dropWhile_isEmpty]

theorem eventsOf_separated_lines (h : ∀ l ∈ lines, '\n' ∉ l) :
    eventsOf (Text.separated lines) =
      readLines .nothing ((lines.map Text.trim).rdropWhile List.isEmpty) := by
  rw [eventsOf_eq]
  cases lines with
  | nil => rfl
  | cons l lines => rw [Text.rows_separated (List.cons_ne_nil l lines) h]

/-- Behind a row that is not empty, empty rows at the end of the block are passed over. -/
theorem eventsOf_separated {front rest : List (List Char)} {line : List Char}
    (hfeed : ∀ l ∈ front ++ line :: rest, '\n' ∉ l) (hline : Text.trim line ≠ []) :
    eventsOf (Text.separated (front ++ line :: rest)) =
      readLines .nothing (front.map Text.trim ++
        Text.trim line :: (rest.map Text.trim).rdropWhile List.isEmpty) := by
  have hlast : ∀ l ∈ (front.map Text.trim ++ [Text.trim line]).getLast?, l.isEmpty = false := by
    intro l hl
    rw [List.getLast?_concat] at hl
    cases hl
    simpa using hline
  rw [eventsOf_eq, Text.rows_separated (by simp) hfeed, List.map_append, List.map_cons,
    List.append_cons, Text.rdropWhile_append hlast, List.append_assoc, List.singleton_append]

/-- Lines the last of which is not blank keep trimming the block to the lines behind them. -/
theorem eventsOf_separated_append {front rest : List (List Char)}
    (hlines : ∃ init last, lines = init ++ [last] ∧ Text.trim last ≠ [])
    (hfeed : ∀ l ∈ front ++ (lines ++ rest), '\n' ∉ l) :
    eventsOf (Text.separated (front ++ (lines ++ rest))) =
      readLines .nothing (front.map Text.trim ++
        (lines.map Text.trim ++ (rest.map Text.trim).rdropWhile List.isEmpty)) := by
  obtain ⟨init, last, rfl, hlast⟩ := hlines
  have hsplit : front ++ (init ++ [last] ++ rest) = (front ++ init) ++ last :: rest := by simp
  rw [hsplit] at hfeed ⊢
  rw [eventsOf_separated hfeed hlast]
  simp

/-! ### Entries of a block -/

/-- A blank line at the end enters what the end of the block would enter. -/
theorem entriesOf_readLines_nil (p : Pending) :
    entriesOf (readLines p [[]]) = entriesOf (finish p) := by
  cases p with
  | nothing => rfl
  | scalar key value => simp [readLines, step, isComment, finish]
  | list key items => simp [readLines, step, isComment, finish]

theorem entriesOf_readLines_rdropWhile (p : Pending) (lines : List (List Char)) :
    entriesOf (readLines p (lines.rdropWhile List.isEmpty)) = entriesOf (readLines p lines) := by
  induction lines using List.reverseRecOn with
  | nil => rfl
  | append_singleton lines line ih =>
    cases line with
    | nil =>
      rw [List.rdropWhile_concat_pos _ _ _ rfl, ih, readLines_append, entriesOf_append,
        entriesOf_readLines_nil, ← entriesOf_append, ← readLines_eq]
    | cons c line => rw [List.rdropWhile_concat_neg _ _ _ (by simp)]

/-- The entries of a block are those of all its lines, blank ones at the end included. -/
theorem entriesOf_eventsOf_separated (h : ∀ l ∈ lines, '\n' ∉ l) :
    entriesOf (eventsOf (Text.separated lines)) =
      entriesOf (readLines .nothing (lines.map Text.trim)) := by
  rw [eventsOf_separated_lines h, entriesOf_readLines_rdropWhile]

/-! ### Scripts -/

/-- A script whose block consists of lines, between an opening line and the closing mark. -/
def scriptOf (before opening : List Char) (lines : List (List Char)) (after : List Char) : String :=
  String.ofList (before ++ (opening ++ (Text.separated lines ++ (closingMark ++ after))))

/-- Lines between an opening line and the closing mark are the block of a script: no block is
opened before, and no line holds the closing mark. -/
structure IsBlock (before opening : List Char) (lines : List (List Char)) : Prop where
  opening : opening ∈ openingLines
  first : ∀ line ∈ openingLines, ¬line <:+: before
  no_feed : ∀ l ∈ lines, '\n' ∉ l
  no_mark : ∀ l ∈ lines, ¬closingMark <:+: l

theorem IsBlock.block?_eq (h : IsBlock before opening lines) (after : List Char) :
    block? (scriptOf before opening lines after).toList = some (Text.separated lines) := by
  rw [scriptOf, String.toList_ofList]
  exact block?_of_line h.opening h.first
    (not_isInfix_separated (by decide) (List.cons_ne_nil _ _) h.no_mark)

/-- Another line without a line feed and without the closing mark may stand in the place of one. -/
theorem IsBlock.replace {front rest : List (List Char)} {line x : List Char}
    (hblock : IsBlock before opening (front ++ line :: rest)) (hfeed : '\n' ∉ x)
    (hmark : ¬closingMark <:+: x) : IsBlock before opening (front ++ x :: rest) := by
  have hreplace {q : List Char → Prop} (hall : ∀ l ∈ front ++ line :: rest, q l) (hx : q x) :
      ∀ l ∈ front ++ x :: rest, q l := by
    rw [List.forall_mem_append, List.forall_mem_cons] at hall ⊢
    exact ⟨hall.1, hx, hall.2.2⟩
  exact ⟨hblock.opening, hblock.first, hreplace hblock.no_feed hfeed,
    hreplace hblock.no_mark hmark⟩

/-- A line without a line feed and without the closing mark may be inserted. -/
theorem IsBlock.insert {front rest : List (List Char)} {x : List Char}
    (hblock : IsBlock before opening (front ++ rest)) (hfeed : '\n' ∉ x)
    (hmark : ¬closingMark <:+: x) : IsBlock before opening (front ++ x :: rest) := by
  have hinsert {q : List Char → Prop} (hall : ∀ l ∈ front ++ rest, q l) (hx : q x) :
      ∀ l ∈ front ++ x :: rest, q l := by
    rw [List.forall_mem_append] at hall
    rw [List.forall_mem_append, List.forall_mem_cons]
    exact ⟨hall.1, hx, hall.2⟩
  exact ⟨hblock.opening, hblock.first, hinsert hblock.no_feed hfeed,
    hinsert hblock.no_mark hmark⟩

/-- Every script with a block consists of lines in this way. -/
theorem exists_isBlock (h : block? text.toList = some block) :
    ∃ before opening lines after, IsBlock before opening lines ∧ Text.separated lines = block ∧
      text = scriptOf before opening lines after := by
  obtain ⟨rest, hrest, hbefore⟩ := Option.bind_eq_some_iff.mp h
  obtain ⟨before, opening, hopening, htext, hfirst⟩ := exists_of_afterOpening? hrest
  obtain ⟨⟨after, rfl⟩, hmark⟩ := exists_of_before? (by decide) hbefore
  refine ⟨before, opening, Text.splitAt '\n' block, after, ⟨hopening, hfirst, ?_, ?_⟩,
    Text.separated_splitAt block, ?_⟩
  · exact fun l hl => Text.not_mem_of_mem_splitAt hl
  · intro l hl hinside
    have hline := Text.isInfix_separated hl
    rw [Text.separated_splitAt] at hline
    exact hmark (hinside.trans hline)
  · rw [scriptOf, Text.separated_splitAt, ← htext, String.ofList_toList]

/-! ### What events come to -/

/-- The manifest of events, with the warnings. -/
def Reading.ofEvents (events : List Event) : Reading :=
  let (manifest, more) := (Manifest.ofEvents events).withExternalSource
  ⟨manifest, events.filterMap Event.warning? ++ more⟩

theorem read_of_block (h : block? text.toList = some block) :
    read text = Reading.ofEvents (eventsOf block) := by
  rw [read, h]
  rfl

theorem entries_withExternalSource (m : Manifest) : m.withExternalSource.1.entries = m.entries := by
  unfold withExternalSource
  split <;> rfl

theorem entries_ofEvents (events : List Event) :
    (Reading.ofEvents events).manifest.entries = (ofEntries (entriesOf events)).entries :=
  entries_withExternalSource _

theorem get?_ofEvents (events : List Event) (key : String) :
    (Reading.ofEvents events).manifest.get? key = (ofEntries (entriesOf events)).get? key := by
  rw [get?, entries_ofEvents]
  rfl

/-- A manifest is told by its entries. -/
theorem manifest_ofEvents_congr {events more : List Event} (h : entriesOf events = entriesOf more) :
    (Reading.ofEvents events).manifest = (Reading.ofEvents more).manifest := by
  simp only [Reading.ofEvents, ofEvents_eq, h]

/-- A key holds the value of its entry if nothing is entered under the key behind it. -/
theorem get?_ofEvents_entry {key : String} {more : List Event}
    (h : key ∉ (entriesOf more).map Prod.fst) (first : List Event) (value : Value) :
    (Reading.ofEvents (first ++ .entry key value :: more)).manifest.get? key =
      some (coerce key value) := by
  have hmore : (entriesOf more).reverse.find? (fun entry => entry.1 == key) = none := by
    rw [List.find?_eq_none]
    intro entry hentry heq
    rw [List.mem_reverse] at hentry
    exact h (beq_iff_eq.mp heq ▸ List.mem_map_of_mem hentry)
  rw [get?_ofEvents, get?_ofEntries, entriesOf_append, entriesOf_entry, List.reverse_append,
    List.reverse_cons, List.append_assoc, List.find?_append, hmore]
  simp

end Scriptorium.Manifest
