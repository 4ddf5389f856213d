/-
JSON texts are read back: the reader finds the tree that was written, in either style.

The induction is on the tree. What is read of a part does not depend on the containers around it,
nor on what follows, as long as the part ends there (`IsRead`).
-/

import Scriptorium.Proofs.Json.Scalar
import Scriptorium.Proofs.Json.Turn

namespace Scriptorium

/-- Nothing in the tree is a floating-point number. -/
inductive Data.FloatFree : Data → Prop where
  | null : FloatFree .null
  | bool (b : Bool) : FloatFree (.bool b)
  | int (n : Int) : FloatFree (.int n)
  | str (s : String) : FloatFree (.str s)
  | seq {items : List Data} (h : ∀ d ∈ items, FloatFree d) : FloatFree (.seq items)
  | map {entries : List (String × Data)} (h : ∀ e ∈ entries, FloatFree e.2) :
    FloatFree (.map entries)

namespace Json

/-! ### Trees as values -/

mutual

/-- A tree as a JSON value. A floating-point number is what its text is read as. -/
def Value.ofData : Data → Value
  | .null => .null
  | .bool b => .bool b
  | .int n => .number (.ofInt n)
  | .float x => (token? (floatText x)).getD .null
  | .str s => .string (some s)
  | .seq items => .array (Value.ofItems items)
  | .map entries => .object (Value.ofEntries entries)

/-- The items of a sequence as JSON values. -/
def Value.ofItems : List Data → List Value
  | [] => []
  | item :: items => Value.ofData item :: Value.ofItems items

/-- The entries of a map as the members of a JSON object. -/
def Value.ofEntries : List (String × Data) → List (Option String × Value)
  | [] => []
  | (key, value) :: entries => (some key, Value.ofData value) :: Value.ofEntries entries

end

theorem Value.ofItems_eq (items : List Data) : Value.ofItems items = items.map Value.ofData := by
  induction items with
  | nil => rfl
  | cons item items ih => rw [Value.ofItems, ih, List.map_cons]

theorem Value.ofEntries_eq (entries : List (String × Data)) :
    Value.ofEntries entries = entries.map fun e => (some e.1, Value.ofData e.2) := by
  induction entries with
  | nil => rfl
  | cons e entries ih => rw [Value.ofEntries, ih, List.map_cons]

theorem Value.ofData_seq (items : List Data) :
    Value.ofData (.seq items) = .array (items.map Value.ofData) := by
  rw [Value.ofData, Value.ofItems_eq]

theorem Value.ofData_map (entries : List (String × Data)) :
    Value.ofData (.map entries) = .object (entries.map fun e => (some e.1, Value.ofData e.2)) := by
  rw [Value.ofData, Value.ofEntries_eq]

/-! ### Blanks and ends -/

/-- A text of blanks. -/
def Blanks (s : List Char) : Prop :=
  ∀ c ∈ s, isSpace c = true

/-- What follows does not belong to a number or a word. -/
def Ends (s : List Char) : Prop :=
  ∀ c ∈ s.head?, isTokenChar c = false

theorem Blanks.append {s t : List Char} (hs : Blanks s) (ht : Blanks t) : Blanks (s ++ t) :=
  List.forall_mem_append.mpr ⟨hs, ht⟩

theorem skipSpace_cons {c : Char} (h : isSpace c = false) (s : List Char) :
    skipSpace (c :: s) = c :: s := by
  simp [skipSpace, h]

theorem skipSpace_append {b : List Char} (h : Blanks b) (s : List Char) :
    skipSpace (b ++ s) = skipSpace s :=
  List.dropWhile_append_of_pos h

theorem isTokenChar_of_isSpace {c : Char} (h : isSpace c = true) : isTokenChar c = false := by
  simp only [isSpace, Bool.or_eq_true, beq_iff_eq] at h
  rcases h with ((rfl | rfl) | rfl) | rfl <;> rfl

theorem ends_cons {c : Char} (h : isTokenChar c = false) (s : List Char) : Ends (c :: s) := by
  simpa [Ends] using h

theorem ends_append {b : List Char} (hb : Blanks b) {s : List Char} (hs : Ends s) :
    Ends (b ++ s) := by
  cases b with
  | nil => exact hs
  | cons c b => exact ends_cons (isTokenChar_of_isSpace (hb c List.mem_cons_self)) _

/-! ### Styles -/

/-- A style that sets parts apart by blanks only. -/
structure Style.Plain (style : Style) : Prop where
  lead : ∀ depth, Blanks (style.lead depth)
  colon : ∃ blanks, style.colon = ':' :: blanks ∧ Blanks blanks

theorem plain_compactStyle : compactStyle.Plain where
  lead _ := by simp [compactStyle, Blanks]
  colon := ⟨[], rfl, by simp [Blanks]⟩

theorem plain_prettyStyle : prettyStyle.Plain where
  lead depth := by
    intro c hc
    simp only [prettyStyle, List.mem_cons, List.mem_replicate] at hc
    rcases hc with rfl | ⟨_, rfl⟩ <;> rfl
  colon := ⟨[' '], rfl, by simp [Blanks, isSpace]⟩

variable {style : Style}

/-- What stands behind the first part of a container, and then `rest`. -/
def afterFirst (style : Style) (depth : Nat) (closing : Char) (rest : List Char) :
    List (List Char) → List Char
  | [] => style.lead depth ++ closing :: rest
  | part :: parts => ',' :: (style.lead (depth + 1) ++
      (part ++ afterFirst style depth closing rest parts))

theorem intercalate_append (style : Style) (depth : Nat) (closing : Char) (rest part : List Char)
    (parts : List (List Char)) :
    [','].intercalate ((part :: parts).map (style.lead (depth + 1) ++ ·)) ++
        (style.lead depth ++ closing :: rest) =
      style.lead (depth + 1) ++ (part ++ afterFirst style depth closing rest parts) := by
  induction parts generalizing part with
  | nil => simp [List.intercalate, afterFirst]
  | cons next parts ih =>
    have hmore := ih next
    simp only [List.intercalate, List.map_cons] at hmore ⊢
    simp [hmore, afterFirst]

theorem enclose_append (style : Style) (depth : Nat) (opening closing : Char)
    (rest part : List Char) (parts : List (List Char)) :
    enclose style depth opening closing (part :: parts) ++ rest =
      opening :: (style.lead (depth + 1) ++
        (part ++ afterFirst style depth closing rest parts)) := by
  rw [← intercalate_append]
  simp [enclose]

/-- Behind a part of a container, the part has ended. -/
theorem ends_afterFirst (hstyle : style.Plain) (depth : Nat) (closing : Char)
    (hclosing : isTokenChar closing = false) (rest : List Char) (parts : List (List Char)) :
    Ends (afterFirst style depth closing rest parts) := by
  cases parts with
  | nil => exact ends_append (hstyle.lead depth) (ends_cons hclosing rest)
  | cons part parts => exact ends_cons rfl _

theorem skipSpace_afterFirst_nil (hstyle : style.Plain) {closing : Char}
    (hclosing : isSpace closing = false) (depth : Nat) (rest : List Char) :
    skipSpace (afterFirst style depth closing rest []) = closing :: rest := by
  rw [afterFirst, skipSpace_append (hstyle.lead depth), skipSpace_cons hclosing]

theorem skipSpace_afterFirst_cons (style : Style) (depth : Nat) (closing : Char)
    (rest part : List Char) (parts : List (List Char)) :
    skipSpace (afterFirst style depth closing rest (part :: parts)) =
      ',' :: (style.lead (depth + 1) ++ (part ++ afterFirst style depth closing rest parts)) :=
  skipSpace_cons rfl _

/-! ### Values without parts -/

variable {frames : List Frame} {s rest : List Char}

/-- A number or a word with its value. -/
structure IsToken (token : List Char) (v : Value) : Prop where
  ne_nil : token ≠ []
  chars : ∀ c ∈ token, isTokenChar c = true
  value : token? token = some v

theorem isToken_null : IsToken "null".toList .null :=
  ⟨by decide, List.all_eq_true.mp rfl, rfl⟩

theorem isToken_true : IsToken "true".toList (.bool true) :=
  ⟨by decide, List.all_eq_true.mp rfl, rfl⟩

theorem isToken_false : IsToken "false".toList (.bool false) :=
  ⟨by decide, List.all_eq_true.mp rfl, rfl⟩

theorem isToken_intText (n : Int) : IsToken (intText n) (.number (.ofInt n)) where
  ne_nil := intText_ne_nil n
  chars _ hc := isTokenChar_of_mem_intText hc
  value := token?_intText n

theorem run_token {token : List Char} {v : Value} (htoken : IsToken token v)
    (h : skipSpace s = token ++ rest) (hrest : Ends rest) :
    run .expect frames s = run (.got v) frames rest := by
  obtain ⟨hne, hchars, hvalue⟩ := htoken
  obtain ⟨c, token, rfl⟩ := List.exists_cons_of_ne_nil hne
  rw [List.forall_mem_cons] at hchars
  have htake : (token ++ rest).takeWhile isTokenChar = token :=
    Text.takeWhile_append hchars.2 hrest
  have hdrop : (token ++ rest).dropWhile isTokenChar = rest :=
    Text.dropWhile_append hchars.2 hrest
  rw [← htake] at hvalue
  exact (run_expect_token h hchars.1 hvalue).trans (congrArg (run (.got v) frames) hdrop)

theorem strText_append (text : String) (rest : List Char) :
    strText text ++ rest = '"' :: (text.toList.flatMap escapeChar ++ '"' :: rest) := by
  simp [strText]

theorem run_strText {text : String} (h : skipSpace s = strText text ++ rest) :
    run .expect frames s = run (.got (.string (some text))) frames rest := by
  rw [strText_append] at h
  exact run_expect_string h (readString_strText text rest)

/-! ### Parts of containers -/

/-- The reader finds the tree where its text is, in every place. -/
def IsRead (style : Style) (d : Data) : Prop :=
  ∀ (depth : Nat) (frames : List Frame) (s rest : List Char),
    skipSpace s = write style depth d ++ rest → Ends rest →
      run .expect frames s = run (.got (.ofData d)) frames rest

/-- A text that begins with neither a blank nor a bracket that closes. -/
def BeginsValue (s : List Char) : Prop :=
  ∃ c t, s = c :: t ∧ isSpace c = false ∧ c ≠ ']'

theorem skipSpace_value {blanks part : List Char} (hblanks : Blanks blanks)
    (hpart : BeginsValue part) (rest : List Char) :
    skipSpace (blanks ++ (part ++ rest)) = part ++ rest := by
  obtain ⟨c, t, rfl, hc, -⟩ := hpart
  rw [skipSpace_append hblanks, List.cons_append, skipSpace_cons hc]

theorem beginsValue_strText (text : String) : BeginsValue (strText text) :=
  ⟨'"', _, rfl, rfl, by decide⟩

theorem IsToken.beginsValue {token : List Char} {v : Value} (h : IsToken token v) :
    BeginsValue token := by
  obtain ⟨c, t, rfl⟩ := List.exists_cons_of_ne_nil h.ne_nil
  have hc := h.chars c List.mem_cons_self
  refine ⟨c, t, rfl, ?_, ?_⟩
  · rw [Bool.eq_false_iff]
    intro hspace
    rw [isTokenChar_of_isSpace hspace] at hc
    cases hc
  · rintro rfl
    cases hc

theorem beginsValue_enclose {opening : Char} (hspace : isSpace opening = false)
    (hne : opening ≠ ']') (depth : Nat) (closing : Char) (parts : List (List Char)) :
    BeginsValue (enclose style depth opening closing parts) := by
  cases parts with
  | nil => exact ⟨opening, _, rfl, hspace, hne⟩
  | cons part parts => exact ⟨opening, _, rfl, hspace, hne⟩

theorem beginsValue_write (style : Style) {d : Data} (h : d.FloatFree) (depth : Nat) :
    BeginsValue (write style depth d) := by
  cases h with
  | null => exact isToken_null.beginsValue
  | bool b =>
    cases b
    · exact isToken_false.beginsValue
    · exact isToken_true.beginsValue
  | int n => exact (isToken_intText n).beginsValue
  | str text => exact beginsValue_strText text
  | seq _ => exact beginsValue_enclose rfl (by decide) ..
  | map _ => exact beginsValue_enclose rfl (by decide) ..

/-- A key is read with its colon; the blanks behind the colon stay before the value. -/
theorem readKey_entry (hstyle : style.Plain) (depth : Nat) (key : String) (part rest : List Char) :
    ∃ blanks, Blanks blanks ∧
      readKey (style.lead depth ++ (strText key ++ style.colon ++ part ++ rest)) =
        some (some key, blanks ++ (part ++ rest)) := by
  obtain ⟨blanks, hcolon, hblanks⟩ := hstyle.colon
  have hskip := skipSpace_value (hstyle.lead depth) (beginsValue_strText key)
    (style.colon ++ (part ++ rest))
  rw [strText_append, hcolon] at hskip
  refine ⟨blanks, hblanks, ?_⟩
  rw [List.append_assoc, List.append_assoc, readKey, hcolon, strText_append, hskip]
  simp only [readString_strText, List.cons_append, skipSpace_cons (c := ':') rfl]

/-- The items of a sequence behind the first one are read up to the closing bracket. -/
theorem run_items (hstyle : style.Plain) (depth : Nat) {items : List Data}
    (hfree : ∀ d ∈ items, d.FloatFree) (h : ∀ d ∈ items, IsRead style d) (v : Value)
    (read : List Value) :
    run (.got v) (.array read :: frames)
        (afterFirst style depth ']' rest (writeItems style (depth + 1) items)) =
      run (.got (.array (read.reverse ++ v :: items.map .ofData))) frames rest := by
  induction items generalizing v read with
  | nil =>
    rw [writeItems, run_got_array_close (skipSpace_afterFirst_nil hstyle rfl depth rest)]
    simp
  | cons d items ih =>
    rw [List.forall_mem_cons] at hfree h
    have hblanks := hstyle.lead (depth + 1)
    have hitem := h.1 (depth + 1) (.array (v :: read) :: frames) _ _
      (skipSpace_value hblanks (beginsValue_write style hfree.1 _) _)
      (ends_afterFirst hstyle depth ']' rfl rest (writeItems style (depth + 1) items))
    rw [writeItems, run_got_array_next (skipSpace_afterFirst_cons ..), hitem, ih hfree.2 h.2]
    simp

/-- The entries of a map behind the first one are read up to the closing bracket. -/
theorem run_entries (hstyle : style.Plain) (depth : Nat) {entries : List (String × Data)}
    (hfree : ∀ e ∈ entries, e.2.FloatFree) (h : ∀ e ∈ entries, IsRead style e.2)
    (key : Option String) (v : Value) (read : List (Option String × Value)) :
    run (.got v) (.object read key :: frames)
        (afterFirst style depth '\x7d' rest (writeEntries style (depth + 1) entries)) =
      run (.got (.object (read.reverse ++
        (key, v) :: entries.map fun e => (some e.1, .ofData e.2)))) frames rest := by
  induction entries generalizing key v read with
  | nil =>
    rw [writeEntries, run_got_object_close (skipSpace_afterFirst_nil hstyle rfl depth rest)]
    simp
  | cons e entries ih =>
    obtain ⟨name, d⟩ := e
    rw [List.forall_mem_cons] at hfree h
    obtain ⟨blanks, hblanks, hkey⟩ := readKey_entry hstyle (depth + 1) name
      (write style (depth + 1) d)
      (afterFirst style depth '\x7d' rest (writeEntries style (depth + 1) entries))
    have hvalue := h.1 (depth + 1) (.object ((key, v) :: read) (some name) :: frames) _ _
      (skipSpace_value hblanks (beginsValue_write style hfree.1 _) _)
      (ends_afterFirst hstyle depth '\x7d' rfl rest (writeEntries style (depth + 1) entries))
    rw [writeEntries, run_got_object_next (skipSpace_afterFirst_cons ..) hkey, hvalue,
      ih hfree.2 h.2]
    simp

/-! ### Trees -/

/-- The reader finds every tree without floating-point numbers. -/
theorem isRead (hstyle : style.Plain) {d : Data} (h : d.FloatFree) : IsRead style d := by
  induction h with
  | null =>
    intro depth frames s rest hs hrest
    exact run_token isToken_null hs hrest
  | bool b =>
    intro depth frames s rest hs hrest
    cases b
    · exact run_token isToken_false hs hrest
    · exact run_token isToken_true hs hrest
  | int n =>
    intro depth frames s rest hs hrest
    exact run_token (isToken_intText n) hs hrest
  | str text =>
    intro depth frames s rest hs _
    exact run_strText hs
  | @seq items hfree ih =>
    intro depth frames s rest hs _
    rw [write] at hs
    rw [Value.ofData_seq]
    cases items with
    | nil => exact run_expect_emptyArray hs (skipSpace_cons rfl rest)
    | cons d items =>
      rw [List.forall_mem_cons] at hfree ih
      have hbegins := beginsValue_write style hfree.1 (depth + 1)
      have hskip := skipSpace_value (hstyle.lead (depth + 1)) hbegins
        (afterFirst style depth ']' rest (writeItems style (depth + 1) items))
      have hitem := ih.1 (depth + 1) (.array [] :: frames) _ _ hskip
        (ends_afterFirst hstyle depth ']' rfl rest (writeItems style (depth + 1) items))
      rw [writeItems, enclose_append] at hs
      obtain ⟨c, t, hd, -, hne⟩ := hbegins
      have hhead := hskip.trans (by rw [hd, List.cons_append])
      rw [run_expect_array hs hhead hne, hitem, run_items hstyle depth hfree.2 ih.2]
      rfl
  | @map entries hfree ih =>
    intro depth frames s rest hs _
    rw [write] at hs
    rw [Value.ofData_map]
    cases entries with
    | nil => exact run_expect_emptyObject hs (skipSpace_cons rfl rest)
    | cons e entries =>
      obtain ⟨name, d⟩ := e
      rw [List.forall_mem_cons] at hfree ih
      obtain ⟨blanks, hblanks, hkey⟩ := readKey_entry hstyle (depth + 1) name
        (write style (depth + 1) d)
        (afterFirst style depth '\x7d' rest (writeEntries style (depth + 1) entries))
      have hvalue := ih.1 (depth + 1) (.object [] (some name) :: frames) _ _
        (skipSpace_value hblanks (beginsValue_write style hfree.1 _) _)
        (ends_afterFirst hstyle depth '\x7d' rfl rest (writeEntries style (depth + 1) entries))
      rw [writeEntries, enclose_append] at hs
      rw [run_expect_object hs hkey, hvalue, run_entries hstyle depth hfree.2 ih.2]
      rfl

/-- A text in either style is read as the tree that was written. -/
theorem read?_write (hstyle : style.Plain) {d : Data} (h : d.FloatFree) (depth : Nat) :
    read? (String.ofList (write style depth d)) = some (.ofData d) := by
  have hblanks : Blanks [] := by simp [Blanks]
  have hskip := skipSpace_value hblanks (beginsValue_write style h depth) []
  have hrun := isRead hstyle h depth [] _ [] hskip (by simp [Ends])
  rw [List.nil_append, List.append_nil] at hrun
  rw [read?, String.toList_ofList, hrun, run_got_nil]
  rfl

theorem read?_compact {d : Data} (h : d.FloatFree) : read? (compact d) = some (.ofData d) :=
  read?_write plain_compactStyle h 0

theorem read?_pretty {d : Data} (h : d.FloatFree) : read? (pretty d) = some (.ofData d) :=
  read?_write plain_prettyStyle h 0

end Json

end Scriptorium
