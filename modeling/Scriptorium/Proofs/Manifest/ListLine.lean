/-
The lines of a list, and what the reader does with one of them.

A list begins behind the equals sign of its key and goes on over comment lines. Two statements say
what a line does, one for each kind (`step_head`, `step_margin`): the last character that is not
blank decides whether the list is complete, and the text behind the bracket or the comment mark is
read for items.
-/

import Scriptorium.Proofs.Manifest.ItemRow
import Scriptorium.Proofs.Manifest.RoundTrip

namespace Scriptorium.Manifest

open Text (isBlank lastSolid)

variable {key : String} {items : List String} {p : Pending} {margin head row t g x : List Char}

/-! ### Beginnings of lines -/

/-- A character that is dropped before a key or an item. -/
def isMark (c : Char) : Bool :=
  c == '#' || c == ' ' || c == '\t'

/-- What a comment line begins with: a number sign behind blanks, and more marks. -/
inductive Margin : List Char → Prop where
  | mk {g marks : List Char} : Blanks g → (∀ c ∈ marks, isMark c = true) →
      Margin (g ++ '#' :: marks)

/-- What stands before the value on the line of a key, with or without a comment mark. -/
inductive KeyHead (key : String) : List Char → Prop where
  | bare {g h k : List Char} : Blanks g → Blanks h → Blanks k →
      KeyHead key (g ++ (key.toList ++ (h ++ '=' :: k)))
  | comment {margin g h k : List Char} : Margin margin → Blanks g → Blanks h → Blanks k →
      KeyHead key (margin ++ (g ++ (key.toList ++ (h ++ '=' :: k))))

/-! ### Dropping marks -/

theorem isMark_eq_false {c : Char} (hblank : isBlank c = false) (hsign : c ≠ '#') :
    isMark c = false := by
  rw [Bool.eq_false_iff]
  intro hmark
  simp only [isMark, Bool.or_eq_true, beq_iff_eq] at hmark
  rcases hmark with (rfl | rfl) | rfl
  · exact hsign rfl
  · exact absurd hblank (by decide)
  · exact absurd hblank (by decide)

theorem dropMarks_append (h : ∀ c ∈ g, isMark c = true) (s : List Char) :
    dropMarks (g ++ s) = dropMarks s :=
  List.dropWhile_append_of_pos h

theorem dropMarks_of_head {s : List Char} (h : ∀ c ∈ s.head?, isMark c = false) :
    dropMarks s = s := by
  cases s with
  | nil => rfl
  | cons c s => exact List.dropWhile_cons_of_neg (Bool.eq_false_iff.mp (h c rfl))

/-- Of blanks before a text, blanks are left. -/
theorem dropMarks_blanks_append (hg : Blanks g) {s : List Char}
    (hs : ∀ c ∈ s.head?, isMark c = false) : ∃ h, Blanks h ∧ dropMarks (g ++ s) = h ++ s := by
  induction g with
  | nil => exact ⟨[], hg, dropMarks_of_head hs⟩
  | cons c g ih =>
    by_cases hc : isMark c = true
    · have hmore := ih fun d hd => hg d (.tail c hd)
      rwa [← List.singleton_append, List.append_assoc, dropMarks_append (by simpa using hc)]
    · refine ⟨c :: g, hg, dropMarks_of_head ?_⟩
      rintro d ⟨⟩
      simpa using hc

theorem lineItems_dropMarks (hg : Blanks g) {s : List Char}
    (hs : ∀ c ∈ s.head?, isMark c = false) : lineItems (dropMarks (g ++ s)) = lineItems s := by
  obtain ⟨h, hh, hdrop⟩ := dropMarks_blanks_append hg hs
  rw [hdrop, lineItems_blanks_append hh]

/-! ### The last character -/

theorem lastSolid_append_bracket (h : ']' ∉ margin) (x : List Char) :
    lastSolid (margin ++ x) = some ']' ↔ lastSolid x = some ']' := by
  rw [Text.lastSolid_append]
  cases hx : lastSolid x with
  | none =>
    rw [Option.none_or]
    refine ⟨fun hmargin => ?_, nofun⟩
    exact absurd (List.mem_reverse.mp (List.mem_of_find?_eq_some hmargin)) h
  | some c => rfl

theorem Margin.bracket_not_mem (h : Margin margin) : ']' ∉ margin := by
  obtain ⟨hg, hmarks⟩ := h
  simp only [List.mem_append, List.mem_cons, not_or]
  refine ⟨fun hmem => ?_, by decide, fun hmem => ?_⟩
  · exact absurd (hg _ hmem) (by decide)
  · exact absurd (hmarks _ hmem) (by decide)

/-! ### Comment lines -/

/-- A comment line of a list adds its items, and completes the list if it ends with a closing
bracket. -/
theorem step_margin (h : Margin margin) (key : String) (items : List String) (x : List Char) :
    step (.list key items) (Text.trim (margin ++ x)) =
      if lastSolid x = some ']' then
        (.nothing, [.entry key (.list (items ++ lineItems (dropMarks x)))])
      else (.list key (items ++ lineItems (dropMarks x)), []) := by
  have hlast : (Text.trim (margin ++ x)).getLast? = some ']' ↔ lastSolid x = some ']' := by
    rw [Text.getLast?_trim, lastSolid_append_bracket h.bracket_not_mem]
  obtain @⟨g, marks, hg, hmarks⟩ := h
  have htrim : Text.trim (g ++ '#' :: marks ++ x) = '#' :: Text.trimRight (marks ++ x) := by
    rw [List.append_assoc, List.cons_append, Text.trim_append_cons (by decide), hg.trimLeft_eq,
      List.nil_append]
  have hitems : lineItems (dropMarks ('#' :: Text.trimRight (marks ++ x))) =
      lineItems (dropMarks x) := by
    -- Marks fall at the left and blanks at the right, in either order.
    have hdrop : dropMarks (Text.trimRight (marks ++ x)) = Text.trimRight (dropMarks x) := by
      rw [← dropMarks_append hmarks x]
      exact Text.dropWhile_rdropWhile _
    exact (congrArg lineItems hdrop).trans (lineItems_trimRight _)
  have hcomment : isComment ('#' :: Text.trimRight (marks ++ x)) = true := rfl
  rw [htrim] at hlast ⊢
  simp only [step, hcomment, hitems, hlast, if_true]

/-! ### Lines of keys -/

theorem IsKey.isMark_head (h : IsKey key.toList) (s : List Char) :
    ∀ c ∈ (key.toList ++ s).head?, isMark c = false := by
  intro c hc
  rw [List.head?_append_of_ne_nil _ h.ne_nil] at hc
  exact isMark_eq_false (h.head c hc) (h.no_mark c hc)

theorem IsKey.trim_append (h : IsKey key.toList) (hg : Blanks g) (ht : Blanks t) :
    Text.trim (g ++ (key.toList ++ t)) = key.toList :=
  Text.trimWhile_append hg ht h.head h.last

theorem sign_not_mem_blanks (h : Blanks g) : '=' ∉ g := fun hmem =>
  absurd (h _ hmem) (by decide)

/-- The key is what stands before the first equals sign of its line, without blanks and marks. -/
theorem KeyHead.key_eq (h : KeyHead key head) (hkey : IsKey key.toList) :
    ∃ left k, head = left ++ '=' :: k ∧ '=' ∉ left ∧ Blanks k ∧
      Text.trim (dropMarks (Text.trimLeft left)) = key.toList := by
  cases h with
  | @bare g h k hg hh hk =>
    refine ⟨g ++ (key.toList ++ h), k, by simp, ?_, hk, ?_⟩
    · simp [sign_not_mem_blanks hg, hkey.no_sign, sign_not_mem_blanks hh]
    · have hleft : Text.trimLeft (g ++ (key.toList ++ h)) = key.toList ++ h := by
        refine Text.dropWhile_append hg ?_
        rw [List.head?_append_of_ne_nil _ hkey.ne_nil]
        exact hkey.head
      rw [hleft, dropMarks_of_head (hkey.isMark_head h)]
      exact hkey.trim_append (g := []) (by simp [Blanks]) hh
  | @comment margin g h k hmargin hg hh hk =>
    obtain @⟨i, marks, hi, hmarks⟩ := hmargin
    refine ⟨i ++ '#' :: (marks ++ (g ++ (key.toList ++ h))), k, by simp, ?_, hk, ?_⟩
    · have hsign : '=' ∉ marks := fun hmem => absurd (hmarks _ hmem) (by decide)
      simp [sign_not_mem_blanks hi, hsign, sign_not_mem_blanks hg, hkey.no_sign,
        sign_not_mem_blanks hh]
    · -- The number sign keeps the blanks before the key from being trimmed with the line: they
      -- fall with the marks or, if they are no marks, when the key is trimmed.
      obtain ⟨j, hj, hdrop⟩ := dropMarks_blanks_append hg (hkey.isMark_head h)
      have hmargin : dropMarks ('#' :: (marks ++ (g ++ (key.toList ++ h)))) =
          j ++ (key.toList ++ h) := by
        rw [← hdrop, ← dropMarks_append hmarks (g ++ (key.toList ++ h))]
        rfl
      rw [Text.trimLeft_append_cons (by decide), hi.trimLeft_eq, List.nil_append, hmargin,
        hkey.trim_append hj hh]

/-- The line of a key with an opening bracket enters what was pending. If the line ends with a
closing bracket the list is read as a whole; if not, it is open, with the items of the line. -/
theorem step_head (hp : Settled p) (hkey : IsKey key.toList) (h : KeyHead key head)
    (x : List Char) :
    step p (Text.trim (head ++ '[' :: x)) =
      if lastSolid x = some ']' then (.nothing, finish p ++ enterList key ('[' :: Text.trimRight x))
      else (.list key (lineItems x), finish p) := by
  obtain ⟨left, k, rfl, hsign, hk, hleft⟩ := h.key_eq hkey
  have hline : Text.trim (left ++ '=' :: k ++ '[' :: x) =
      Text.trimLeft left ++ '=' :: Text.trimRight (k ++ '[' :: x) := by
    rw [List.append_assoc, List.cons_append, Text.trim_append_cons (by decide)]
  have hcut : Text.cutAt '=' (Text.trimLeft left ++ '=' :: Text.trimRight (k ++ '[' :: x)) =
      some (Text.trimLeft left, Text.trimRight (k ++ '[' :: x)) :=
    Text.cutAt_eq_some_iff.mpr
      ⟨rfl, fun hmem => hsign ((List.dropWhile_suffix _).subset hmem)⟩
  have hvalue : Text.trim (Text.trimRight (k ++ '[' :: x)) = '[' :: Text.trimRight x := by
    rw [Text.trim_trimRight, Text.trim_append_cons (by decide), hk.trimLeft_eq, List.nil_append]
  have hbegin : beginEntry (Text.trim (left ++ '=' :: k ++ '[' :: x)) =
      beginValue key ('[' :: Text.trimRight x) := by
    have hempty : key.toList.isEmpty = false := by simpa using hkey.ne_nil
    rw [hline, beginEntry, hcut]
    simp only [hleft, hvalue, hempty, String.ofList_toList]
    rfl
  have hmem : '=' ∈ Text.trim (left ++ '=' :: k ++ '[' :: x) := by
    rw [hline]
    simp
  rw [step_of_settled hp hmem, hbegin, beginValue, Text.getLast?_trimRight,
    lineItems_trimRight]
  split <;> simp

/-! ### Rows on lines -/

theorem ItemRow.lineItems_append (h : ItemRow items row) (hnone : items = [] → lineItems t = [])
    (htail : ∀ e, RowEnd e → Tail true (cutEnd (e ++ t))) :
    lineItems (row ++ t) = items.filter (· ≠ "") := by
  cases h with
  | blank hg => rw [lineItems_blanks_append hg, hnone rfl, List.filter_nil]
  | items hg hs he =>
    rw [List.append_assoc, List.append_assoc, lineItems_blanks_append hg,
      hs.lineItems_eq (htail _ he)]

theorem ItemRow.lineItems_dropMarks_append (h : ItemRow items row)
    (hnone : items = [] → lineItems t = []) (hhead : items = [] → ∀ c ∈ t.head?, isMark c = false)
    (htail : ∀ e, RowEnd e → Tail true (cutEnd (e ++ t))) :
    lineItems (dropMarks (row ++ t)) = items.filter (· ≠ "") := by
  cases h with
  | blank hg => rw [lineItems_dropMarks hg (hhead rfl), hnone rfl, List.filter_nil]
  | @items _ g s e hg hs he =>
    have hmark : ∀ c ∈ (s ++ (e ++ t)).head?, isMark c = false := by
      intro c hc
      rw [List.head?_append_of_ne_nil _ hs.ne_nil] at hc
      obtain ⟨hfirm, hsign⟩ := hs.head c hc
      exact isMark_eq_false (isFirm_iff.mp hfirm).1 hsign
    rw [List.append_assoc, List.append_assoc, lineItems_dropMarks hg hmark,
      hs.lineItems_eq (htail _ he)]

theorem RowEnd.tail {e : List Char} (he : RowEnd e) : Tail true e := by
  have htail := he.tail_append .nil
  rwa [List.append_nil] at htail

theorem ItemRow.lineItems_eq (h : ItemRow items row) : lineItems row = items.filter (· ≠ "") := by
  have hitems := h.lineItems_append (t := []) (fun _ => rfl) fun e he => by
    rw [List.append_nil]
    exact he.tail.of_isPrefix (isPrefix_cutEnd e)
  rwa [List.append_nil] at hitems

theorem ItemRow.lineItems_dropMarks (h : ItemRow items row) :
    lineItems (dropMarks row) = items.filter (· ≠ "") := by
  have hitems := h.lineItems_dropMarks_append (t := []) (fun _ => rfl) (by simp) fun e he => by
    rw [List.append_nil]
    exact he.tail.of_isPrefix (isPrefix_cutEnd e)
  rwa [List.append_nil] at hitems

/-- A closing bracket behind the items is no item. -/
theorem ItemRow.lineItems_dropMarks_bracket (h : ItemRow items row) (hg : Blanks g) :
    lineItems (dropMarks (row ++ ']' :: g)) = items.filter (· ≠ "") := by
  refine h.lineItems_dropMarks_append (fun _ => lineItems_bracket hg) ?_ fun e he =>
    he.tail.of_isPrefix (isPrefix_cutEnd_bracket hg e)
  rintro - c ⟨⟩
  rfl

/-- A row does not end with a closing bracket, whatever its strings hold. -/
theorem ItemRow.lastSolid_ne (h : ItemRow items row) : lastSolid row ≠ some ']' := by
  intro hlast
  cases h with
  | blank hg =>
    rw [Text.lastSolid_eq_none hg] at hlast
    cases hlast
  | @items _ g s e hg hs he =>
    -- A bracket inside a string does not count: behind it stands a quotation mark.
    have hchain : lastSolid s ≠ some ']' := by
      intro hbracket
      obtain ⟨init, c, rfl⟩ := List.eq_nil_or_concat s |>.resolve_left hs.ne_nil
      have hfirm : isFirm c = true := hs.last c (by simp)
      rw [List.concat_eq_append, Text.lastSolid_append, Text.lastSolid_cons,
        if_neg (by simp [(isFirm_iff.mp hfirm).1])] at hbracket
      cases hbracket
      exact absurd hfirm (by decide)
    cases he with
    | bare hend =>
      rw [Text.lastSolid_append, Text.lastSolid_append, Text.lastSolid_eq_none hend,
        Option.none_or, Text.lastSolid_eq_none hg, Option.or_none] at hlast
      exact hchain hlast
    | comma _ hend =>
      rw [Text.lastSolid_append, Text.lastSolid_append, Text.lastSolid_append,
        Text.lastSolid_cons, Text.lastSolid_eq_none hend] at hlast
      cases hlast

theorem lastSolid_bracket (hg : Blanks g) (x : List Char) :
    lastSolid (x ++ ']' :: g) = some ']' := by
  rw [Text.lastSolid_append, Text.lastSolid_cons, Text.lastSolid_eq_none hg]
  rfl

/-- A row in brackets spells the list of its strings. -/
theorem ItemRow.spells_list (h : ItemRow items row) :
    Literal.Spells (.value (Literal.ofStrings items)) ('[' :: (row ++ [']'])) := by
  cases h with
  | blank hg => exact .empty (d := .list) (by simp) hg.trivia
  | items hg hs he => exact hs.spells_list hg he.closes

theorem enterList_inline (hrow : ItemRow items row) (hg : Blanks g) :
    enterList key ('[' :: Text.trimRight (row ++ ']' :: g)) = [.entry key (.list items)] := by
  rw [Text.trimRight_append_cons (by decide), hg.trimRight_eq, enterList,
    parseStrings_of_spells hrow.spells_list]

end Scriptorium.Manifest
