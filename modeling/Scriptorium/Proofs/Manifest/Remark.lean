/-
Remarks behind the lines of a list.

The items of a line are read without its remark, but whether the line completes its list is told by
the last character of the whole line. So a remark is of no account exactly when it ends as the line
does: with a closing bracket if the line completes its list, and with anything else if it does not
(`step_remark_iff`). A bracket that closes a list behind items of its line is left out: there no
remark is told from the items.
-/

import Scriptorium.Proofs.Manifest.ListLine
import Scriptorium.Proofs.Manifest.Run

namespace Scriptorium.Manifest

open Text (isBlank lastSolid)

variable {key : String} {items : List String} {p : Pending} {closes : Bool}
  {g h text line row margin head before opening after : List Char}
  {front rest : List (List Char)}

/-! ### Lines of a list -/

/-- A line that belongs to a list of quoted strings, in the state before it; the flag tells whether
the line completes the list. A closing bracket stands alone here or on the line of its key. -/
inductive ListLine : Pending → List Char → Bool → Prop where
  | inline {p : Pending} {key : String} {items : List String} {head row g : List Char} :
      Settled p → IsKey key.toList → KeyHead key head → ItemRow items row → Blanks g →
      ListLine p (head ++ '[' :: (row ++ ']' :: g)) true
  | opening {p : Pending} {key : String} {items : List String} {head row : List Char} :
      Settled p → IsKey key.toList → KeyHead key head → ItemRow items row →
      ListLine p (head ++ '[' :: row) false
  | items {key : String} {done items : List String} {margin row : List Char} :
      Margin margin → ItemRow items row → items ≠ [] →
      ListLine (.list key done) (margin ++ row) false
  | closing {key : String} {done : List String} {margin g h : List Char} :
      Margin margin → Blanks g → Blanks h →
      ListLine (.list key done) (margin ++ (g ++ ']' :: h)) true

theorem ListLine.trim_ne_nil (hline : ListLine p line closes) (x : List Char) :
    Text.trim (line ++ x) ≠ [] := by
  cases hline with
  | inline _ _ _ _ _ => exact Text.trim_ne_nil (c := '[') (by decide) (by simp)
  | opening _ _ _ _ => exact Text.trim_ne_nil (c := '[') (by decide) (by simp)
  | items hmargin _ _ =>
    obtain ⟨_, _⟩ := hmargin
    exact Text.trim_ne_nil (c := '#') (by decide) (by simp)
  | closing hmargin _ _ =>
    obtain ⟨_, _⟩ := hmargin
    exact Text.trim_ne_nil (c := '#') (by decide) (by simp)

/-! ### The end of a list -/

/-- A remark ends a line with a closing bracket only if it ends with one itself. -/
theorem lastSolid_remark (x : List Char) :
    lastSolid (x ++ (g ++ '#' :: text)) = some ']' ↔ lastSolid text = some ']' := by
  rw [← List.append_assoc, Text.lastSolid_append, Text.lastSolid_cons, if_neg (by decide)]
  cases lastSolid text with
  | none => exact iff_of_false (by simp) nofun
  | some c => rfl

theorem step_head_fst (hp : Settled p) (hkey : IsKey key.toList) (hhead : KeyHead key head)
    (x : List Char) :
    (step p (Text.trim (head ++ '[' :: x))).1 = .nothing ↔ lastSolid x = some ']' := by
  rw [step_head hp hkey hhead]
  split <;> simp [*]

theorem step_margin_fst (hmargin : Margin margin) (key : String) (done : List String)
    (x : List Char) :
    (step (.list key done) (Text.trim (margin ++ x))).1 = .nothing ↔ lastSolid x = some ']' := by
  rw [step_margin hmargin]
  split <;> simp [*]

/-- The flag of a line tells whether the list is complete behind it. -/
theorem ListLine.complete_iff (hline : ListLine p line closes) :
    (step p (Text.trim line)).1 = .nothing ↔ closes = true := by
  cases hline with
  | inline hp hkey hhead _ hg =>
    rw [step_head_fst hp hkey hhead]
    exact iff_of_true (lastSolid_bracket hg _) rfl
  | opening hp hkey hhead hrow =>
    rw [step_head_fst hp hkey hhead]
    exact iff_of_false hrow.lastSolid_ne Bool.false_ne_true
  | items hmargin hrow _ =>
    rw [step_margin_fst hmargin]
    exact iff_of_false hrow.lastSolid_ne Bool.false_ne_true
  | closing hmargin _ hh =>
    rw [step_margin_fst hmargin]
    exact iff_of_true (lastSolid_bracket hh _) rfl

/-- Behind a line with a remark the list is complete if the remark ends with a closing bracket. -/
theorem ListLine.complete_remark_iff (hline : ListLine p line closes) :
    (step p (Text.trim (line ++ (g ++ '#' :: text)))).1 = .nothing ↔
      lastSolid text = some ']' := by
  cases hline with
  | inline hp hkey hhead _ _ =>
    rw [List.append_assoc, List.cons_append, step_head_fst hp hkey hhead, lastSolid_remark]
  | opening hp hkey hhead _ =>
    rw [List.append_assoc, List.cons_append, step_head_fst hp hkey hhead, lastSolid_remark]
  | items hmargin _ _ =>
    rw [List.append_assoc, step_margin_fst hmargin, lastSolid_remark]
  | closing hmargin _ _ =>
    rw [List.append_assoc, step_margin_fst hmargin, lastSolid_remark]

/-! ### The items of a line with a remark -/

theorem RowEnd.tail_remark {e : List Char} (he : RowEnd e) (hg : Blanks g) (htext : '\n' ∉ text) :
    Tail true (cutEnd (e ++ (g ++ '#' :: text))) :=
  (he.tail_append (hg.tail_append (.remark htext))).of_isPrefix (isPrefix_cutEnd _)

theorem ItemRow.lineItems_remark (hrow : ItemRow items row) (hg : Blanks g) (htext : '\n' ∉ text) :
    lineItems (row ++ (g ++ '#' :: text)) = lineItems row := by
  have hnone : items = [] → lineItems (g ++ '#' :: text) = [] := fun _ => by
    rw [lineItems_blanks_append hg, Manifest.lineItems_remark htext]
  rw [hrow.lineItems_eq]
  exact hrow.lineItems_append hnone fun e he => he.tail_remark hg htext

theorem ItemRow.lineItems_dropMarks_remark (hrow : ItemRow items row) (hne : items ≠ [])
    (hg : Blanks g) (htext : '\n' ∉ text) :
    lineItems (dropMarks (row ++ (g ++ '#' :: text))) = lineItems (dropMarks row) := by
  rw [hrow.lineItems_dropMarks]
  exact hrow.lineItems_dropMarks_append (fun hnil => absurd hnil hne) (fun hnil => absurd hnil hne)
    fun e he => he.tail_remark hg htext

theorem lineItems_closing (hg : Blanks g) {x : List Char} (hx : lineItems (']' :: x) = []) :
    lineItems (dropMarks (g ++ ']' :: x)) = [] := by
  rw [Manifest.lineItems_dropMarks hg, hx]
  rintro c ⟨⟩
  rfl

/-! ### A list on one line -/

/-- A list in brackets is read as a whole, also with a remark behind it. -/
theorem enterList_remark (hrow : ItemRow items row) (hg : Blanks g) (htext : '\n' ∉ text) :
    enterList key ('[' :: Text.trimRight (row ++ ']' :: (g ++ '#' :: text))) =
      [.entry key (.list items)] := by
  have hcut : Text.trimRight (row ++ ']' :: (g ++ '#' :: text)) =
      row ++ ']' :: (g ++ '#' :: Text.trimRight text) := by
    rw [Text.trimRight_append_cons (by decide), Text.trimRight_append_cons (by decide)]
  have hend : '\n' ∉ Text.trimRight text := fun hmem =>
    htext ((Text.isPrefix_dropRightWhile _ _).subset hmem)
  have hsevers : Literal.Severs (g ++ '#' :: Text.trimRight text) :=
    hg.trivia.severs_append fun _ => Literal.severs_cons.mpr (by decide)
  have hskip : Literal.skipTrivia (g ++ '#' :: Text.trimRight text) = [] := by
    rw [Literal.skipTrivia_append hg.trivia, Literal.skipTrivia_remark_end hend]
  have hparse := parseStrings_append hrow.spells_list hsevers hskip
  have hsource : '[' :: (row ++ [']']) ++ (g ++ '#' :: Text.trimRight text) =
      '[' :: (row ++ ']' :: (g ++ '#' :: Text.trimRight text)) := by simp
  rw [hsource] at hparse
  rw [hcut, enterList, hparse]

/-! ### One line -/

/-- A remark that ends as its line does changes nothing. -/
theorem ListLine.step_remark (hline : ListLine p line closes) (hg : Blanks g) (htext : '\n' ∉ text)
    (hend : lastSolid text = some ']' ↔ closes = true) :
    step p (Text.trim (line ++ (g ++ '#' :: text))) = step p (Text.trim line) := by
  cases hline with
  | @inline _ key items head row k hp hkey hhead hrow hk =>
    have hlast : lastSolid (row ++ ']' :: (k ++ (g ++ '#' :: text))) = some ']' := by
      rw [List.append_cons, ← List.append_assoc, lastSolid_remark]
      exact hend.mpr rfl
    have hlist : enterList key ('[' :: Text.trimRight (row ++ ']' :: (k ++ (g ++ '#' :: text)))) =
        [.entry key (.list items)] := by
      rw [← List.append_assoc k]
      exact enterList_remark hrow (hk.append hg) htext
    rw [List.append_assoc, List.cons_append, List.append_assoc, List.cons_append,
      step_head hp hkey hhead, step_head hp hkey hhead, if_pos hlast,
      if_pos (lastSolid_bracket hk _), hlist, enterList_inline hrow hk]
  | opening hp hkey hhead hrow =>
    have hopen : lastSolid text ≠ some ']' := fun hclosed => Bool.false_ne_true (hend.mp hclosed)
    rw [List.append_assoc, List.cons_append, step_head hp hkey hhead, step_head hp hkey hhead,
      if_neg (mt (lastSolid_remark _).mp hopen), if_neg hrow.lastSolid_ne,
      hrow.lineItems_remark hg htext]
  | items hmargin hrow hne =>
    have hopen : lastSolid text ≠ some ']' := fun hclosed => Bool.false_ne_true (hend.mp hclosed)
    rw [List.append_assoc, step_margin hmargin, step_margin hmargin,
      if_neg (mt (lastSolid_remark _).mp hopen), if_neg hrow.lastSolid_ne,
      hrow.lineItems_dropMarks_remark hne hg htext]
  | @closing key done margin i k hmargin hi hk =>
    have hlast : lastSolid (i ++ ']' :: (k ++ (g ++ '#' :: text))) = some ']' := by
      rw [List.append_cons, ← List.append_assoc, lastSolid_remark]
      exact hend.mpr rfl
    have hremark : lineItems (']' :: (k ++ (g ++ '#' :: text))) = [] := by
      rw [← List.append_assoc]
      exact lineItems_bracket_remark (hk.append hg) htext
    rw [List.append_assoc, List.append_assoc, List.cons_append, step_margin hmargin,
      step_margin hmargin, if_pos hlast, if_pos (lastSolid_bracket hk _),
      lineItems_closing hi hremark, lineItems_closing hi (lineItems_bracket hk)]

/-- A remark changes nothing exactly when it ends as its line does: with a closing bracket if the
line completes its list, and not with one if it does not. -/
theorem step_remark_iff (hline : ListLine p line closes) (hg : Blanks g) (htext : '\n' ∉ text) :
    step p (Text.trim (line ++ (g ++ '#' :: text))) = step p (Text.trim line) ↔
      (lastSolid text = some ']' ↔ closes = true) := by
  refine ⟨fun heq => ?_, hline.step_remark hg htext⟩
  rw [← hline.complete_remark_iff, heq]
  exact hline.complete_iff

/-! ### Scripts -/

/-- **Remarks behind the lines of a list.** A line of a list may have a remark that ends as the
line does: whatever the block, the script is read as without the remark. -/
theorem read_remark (hblock : IsBlock before opening (front ++ line :: rest))
    (hline : ListLine (stateAfter .nothing (front.map Text.trim)) line closes) (hg : Blanks g)
    (hfeed : '\n' ∉ g ++ '#' :: text) (hmark : ¬closingMark <:+: line ++ (g ++ '#' :: text))
    (hend : lastSolid text = some ']' ↔ closes = true) (after : List Char) :
    read (scriptOf before opening (front ++ (line ++ (g ++ '#' :: text)) :: rest) after) =
      read (scriptOf before opening (front ++ line :: rest) after) := by
  have htext : '\n' ∉ text := fun hmem => hfeed (by simp [hmem])
  have hlinefeed : '\n' ∉ line ++ (g ++ '#' :: text) := by
    rw [List.mem_append, not_or]
    exact ⟨hblock.no_feed line (by simp), hfeed⟩
  have hremark := hblock.replace hlinefeed hmark
  have hne : Text.trim line ≠ [] := by
    have hempty := hline.trim_ne_nil []
    rwa [List.append_nil] at hempty
  rw [read_of_block (hremark.block?_eq after), read_of_block (hblock.block?_eq after),
    eventsOf_separated hremark.no_feed (hline.trim_ne_nil _), eventsOf_separated hblock.no_feed hne,
    readLines_append, readLines_append, readLines_cons, readLines_cons,
    (step_remark_iff hline hg htext).mpr hend]

theorem read_remark_behind_item :
    ListLine (.list "tags" []) "#   'a',".toList false ∧
      read (scriptOf [] (openingMark ++ ['\n'])
          (["# tags = [".toList] ++
            ("#   'a',".toList ++ ([' '] ++ '#' :: " [1], it's".toList)) :: ["# ]".toList, []])
          "run()".toList) =
        read (scriptOf [] (openingMark ++ ['\n'])
          (["# tags = [".toList] ++ "#   'a',".toList :: ["# ]".toList, []]) "run()".toList) := by
  have hrow : ItemRow ["a"] "  'a',".toList :=
    @ItemRow.items _ "  ".toList _ _ (by decide) (.single (Literal.pieces_renderStr "a".toList))
      (@RowEnd.comma [] [] (by decide) (by decide))
  have hmargin : Margin "# ".toList := @Margin.mk [] [' '] (by decide) (List.all_eq_true.mp rfl)
  have hline : ListLine (.list "tags" []) "#   'a',".toList false :=
    .items hmargin hrow (by decide)
  have hfront : stateAfter .nothing (["# tags = [".toList].map Text.trim) = .list "tags" [] := by
    decide +kernel
  have hblock : IsBlock [] (openingMark ++ ['\n'])
      (["# tags = [".toList] ++ "#   'a',".toList :: ["# ]".toList, []]) :=
    ⟨List.mem_cons_self, by decide +kernel, by decide +kernel, by decide +kernel⟩
  have hblank : Blanks [' '] := by decide
  exact ⟨hline, read_remark hblock (hfront ▸ hline) hblank (by decide) (by decide +kernel)
    (by decide) _⟩

/-- Behind a list on one line a remark that ends otherwise opens the list, and the lines behind it
are lost. -/
theorem read_remark_behind_inline :
    ListLine .nothing "# tags = ['a']".toList true ∧
      (read (scriptOf [] (openingMark ++ ['\n'])
        ["# tags = ['a']".toList, "# title = A".toList, []] [])).warnings = [] ∧
      read (scriptOf [] (openingMark ++ ['\n'])
          ["# tags = ['a']".toList ++ " # note".toList, "# title = A".toList, []] []) ≠
        read (scriptOf [] (openingMark ++ ['\n'])
          ["# tags = ['a']".toList, "# title = A".toList, []] []) := by
  have hmargin : Margin "# ".toList := @Margin.mk [] [' '] (by decide) (List.all_eq_true.mp rfl)
  have hhead : KeyHead "tags" "# tags = ".toList :=
    @KeyHead.comment _ "# ".toList [] [' '] [' '] hmargin (by decide) (by decide) (by decide)
  have hrow : ItemRow ["a"] "'a'".toList :=
    @ItemRow.items _ [] _ _ (by decide) (.single (Literal.pieces_renderStr "a".toList))
      (@RowEnd.bare [] (by decide))
  have hline : ListLine .nothing "# tags = ['a']".toList true :=
    @ListLine.inline _ _ _ _ _ [] settled_nothing (by decide) hhead hrow (by decide)
  refine ⟨hline, by decide +kernel, fun heq => ?_⟩
  have hkeys := congrArg (fun reading => reading.manifest.entries.keys) heq
  exact absurd hkeys (by decide +kernel)

end Scriptorium.Manifest
