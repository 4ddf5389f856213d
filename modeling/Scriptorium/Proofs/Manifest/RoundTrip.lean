/-
A manifest that is written as a block is read back from any script that holds the block.

Every entry is written on one line, a scalar in double quotation marks and a list as a literal.
Between two lines the reader has entered all entries but the last, and that one too unless it is a
scalar; `readLines_entryLines` carries this through the block.
-/

import Scriptorium.Manifest.Reader
import Scriptorium.Proofs.Literal.Strings
import Scriptorium.Proofs.Manifest.Block
import Scriptorium.Proofs.Manifest.Insertion

namespace Scriptorium.Manifest

open Text (isBlank)

/-! ### Writing -/

/-- A value as it is written. -/
def Value.written : Value → List Char
  | .scalar text => '"' :: (text.toList ++ ['"'])
  | .list items => (Literal.ofStrings items).render

/-- An entry as it is written behind the comment mark, up to its equals sign. -/
def entryHead (key : String) : List Char :=
  '#' :: ' ' :: (key.toList ++ [' '])

/-- The line of an entry. -/
def entryLine (e : String × Value) : List Char :=
  entryHead e.1 ++ '=' :: ' ' :: e.2.written

/-- Entries as a block, with the lines of its marks. -/
def written (entries : Entries) : List Char :=
  openingMark ++ '\n' :: (Text.joined (entries.toList.map entryLine) ++ closingMark)

/-! ### What can be written -/

/-- A key that stands on one line before an equals sign. -/
structure IsKey (key : List Char) : Prop where
  ne_nil : key ≠ []
  trimmed : Text.trim key = key
  no_sign : '=' ∉ key
  no_feed : '\n' ∉ key
  no_mark : ∀ c ∈ key.head?, c ≠ '#'

instance (key : List Char) : Decidable (IsKey key) :=
  decidable_of_iff (key ≠ [] ∧ Text.trim key = key ∧ '=' ∉ key ∧ '\n' ∉ key ∧
      key.head? ≠ some '#')
    ⟨fun ⟨hne, htrim, hsign, hfeed, hmark⟩ =>
        ⟨hne, htrim, hsign, hfeed, fun _ hc heq => hmark (heq ▸ hc)⟩,
      fun h => ⟨h.ne_nil, h.trimmed, h.no_sign, h.no_feed, fun hc => h.no_mark _ hc rfl⟩⟩

/-- A scalar on one line that does not begin or end with a quotation mark. -/
structure IsScalar (text : List Char) : Prop where
  no_feed : '\n' ∉ text
  head : ∀ c ∈ text.head?, Literal.isQuote c = false
  last : ∀ c ∈ text.getLast?, Literal.isQuote c = false

/-- A value that may stand under a key: the dependencies are a list, the external source is not. -/
def IsValue (key : String) : Value → Prop
  | .scalar text => key ≠ dependenciesKey ∧ IsScalar text.toList
  | .list _ => key ≠ externalSourceKey

/-- An entry that can be written on one line. -/
structure IsEntry (e : String × Value) : Prop where
  key : IsKey e.1.toList
  value : IsValue e.1 e.2

/-! ### Values -/

/-- A written value has no line feed, and no blank at its ends. -/
theorem IsValue.isLine_written {key : String} {v : Value} (h : IsValue key v) :
    Text.IsLine v.written := by
  cases v with
  | scalar text =>
    obtain ⟨_, htext⟩ := h
    constructor
    case no_feed => simpa [Value.written] using htext.no_feed
    case ne_nil => exact List.cons_ne_nil _ _
    case head =>
      rintro c ⟨⟩
      decide
    case last =>
      intro c hc
      rw [Value.written, ← List.cons_append, List.getLast?_concat] at hc
      cases hc
      decide
  | list items =>
    obtain ⟨inner, hinner⟩ := Literal.render_ofStrings items
    constructor
    case no_feed => exact Literal.newline_not_mem_render_ofStrings items
    case ne_nil =>
      rw [Value.written, hinner]
      exact List.cons_ne_nil _ _
    case head =>
      intro c hc
      rw [Value.written, hinner] at hc
      cases hc
      decide
    case last =>
      intro c hc
      rw [Value.written, hinner, ← List.cons_append, List.getLast?_concat] at hc
      cases hc
      decide

/-- Of a text all double quotation marks at its ends are dropped, and then all single ones at the
ends of what is left. -/
theorem dropQuotes_eq_iff {s t : List Char} : dropQuotes s = t ↔
    ∃ inner, Text.IsBetween '"' s inner ∧ Text.IsBetween '\'' inner t := by
  rw [dropQuotes, Text.trimWhile_beq_eq_iff]
  constructor
  · exact fun h => ⟨_, Text.trimWhile_beq_eq_iff.mp rfl, h⟩
  · rintro ⟨inner, houter, hinner⟩
    rwa [Text.trimWhile_beq_eq_iff.mpr houter]

/-- Only the quotation marks that were added are dropped. -/
theorem IsScalar.dropQuotes_written {text : List Char} (h : IsScalar text) :
    dropQuotes ('"' :: (text ++ ['"'])) = text := by
  have hends (mark : Char) (hmark : Literal.isQuote mark = true) :
      text.head? ≠ some mark ∧ text.getLast? ≠ some mark := by
    refine ⟨fun hc => ?_, fun hc => ?_⟩
    · rw [h.head mark hc] at hmark
      cases hmark
    · rw [h.last mark hc] at hmark
      cases hmark
  have hdouble := hends '"' rfl
  have hsingle := hends '\'' rfl
  exact dropQuotes_eq_iff.mpr
    ⟨text, ⟨⟨1, 1, rfl⟩, hdouble.1, hdouble.2⟩, .self hsingle.1 hsingle.2⟩

/-! ### Keys -/

theorem IsKey.head {key : List Char} (h : IsKey key) : ∀ c ∈ key.head?, isBlank c = false := by
  intro c hc
  rw [← h.trimmed] at hc
  exact Text.head_trimWhile key c hc

theorem IsKey.last {key : List Char} (h : IsKey key) : ∀ c ∈ key.getLast?, isBlank c = false := by
  intro c hc
  rw [← h.trimmed] at hc
  exact Text.last_trimWhile key c hc

/-- The comment mark before a key is dropped, and the key is not touched. -/
theorem IsKey.trim_dropMarks_entryHead {key : String} (h : IsKey key.toList) :
    Text.trim (dropMarks (entryHead key)) = key.toList := by
  have hdrop : dropMarks (entryHead key) = key.toList ++ [' '] := by
    refine Text.dropWhile_append (s := ['#', ' ']) (List.all_eq_true.mp rfl) fun c hc => ?_
    have hkey : c ∈ key.toList.head? := by
      cases hlist : key.toList with
      | nil => exact absurd hlist h.ne_nil
      | cons a rest =>
        rw [hlist] at hc
        exact hc
    have hblank := h.head c hkey
    have hmark := h.no_mark c hkey
    have hspace : c ≠ ' ' := by
      rintro rfl
      exact absurd hblank (by decide)
    have htab : c ≠ '\t' := by
      rintro rfl
      exact absurd hblank (by decide)
    simp [hmark, hspace, htab]
  have htrim : Text.trim ([] ++ (key.toList ++ [' '])) = key.toList :=
    Text.trimWhile_append (by simp) (List.all_eq_true.mp rfl) h.head h.last
  rw [hdrop]
  exact htrim

/-! ### Lines of entries -/

theorem isLine_entryLine {e : String × Value} (h : IsEntry e) : Text.IsLine (entryLine e) := by
  have hvalue := h.value.isLine_written
  constructor
  case no_feed => simpa [entryLine, entryHead] using ⟨h.key.no_feed, hvalue.no_feed⟩
  case ne_nil => exact List.cons_ne_nil _ _
  case head =>
    rintro c ⟨⟩
    decide
  case last =>
    intro c hc
    obtain ⟨d, hd⟩ := Option.isSome_iff_exists.mp (List.getLast?_isSome.mpr hvalue.ne_nil)
    rw [entryLine, List.getLast?_append, List.getLast?_cons, List.getLast?_cons, hd] at hc
    cases hc
    exact hvalue.last d hd

/-- A line is cut at the equals sign behind the key. -/
theorem beginEntry_entryLine {e : String × Value} (h : IsEntry e) :
    beginEntry (entryLine e) = beginValue e.1 e.2.written := by
  have hcut : Text.cutAt '=' (entryLine e) = some (entryHead e.1, ' ' :: e.2.written) := by
    refine Text.cutAt_eq_some_iff.mpr ⟨rfl, ?_⟩
    simpa [entryHead] using h.key.no_sign
  have htrim : Text.trim (' ' :: e.2.written) = e.2.written := by
    have hvalue := h.value.isLine_written
    have htrim : Text.trim ([' '] ++ (e.2.written ++ [])) = e.2.written :=
      Text.trimWhile_append (List.all_eq_true.mp rfl) (by simp) hvalue.head hvalue.last
    rwa [List.append_nil] at htrim
  have hempty : e.1.toList.isEmpty = false := by simpa using h.key.ne_nil
  rw [beginEntry, hcut]
  simp only [h.key.trim_dropMarks_entryHead, htrim, hempty, String.ofList_toList]
  rfl

/-- A state in which no list is open. -/
def Settled (p : Pending) : Prop :=
  ∀ key items, p ≠ .list key items

@[simp] theorem settled_nothing : Settled .nothing :=
  nofun

@[simp] theorem settled_scalar (key value : String) : Settled (.scalar key value) :=
  nofun

@[simp] theorem not_settled_list (key : String) (items : List String) :
    ¬Settled (.list key items) := fun h =>
  h key items rfl

instance : DecidablePred Settled
  | .nothing => isTrue settled_nothing
  | .scalar key value => isTrue (settled_scalar key value)
  | .list key items => isFalse (not_settled_list key items)

/-- What a written value begins, with the events of its line and those still pending behind it. -/
theorem beginValue_written {key : String} {v : Value} (h : IsValue key v) :
    ∃ p events, beginValue key v.written = (p, events) ∧ Settled p ∧
      events ++ finish p = [.entry key v] := by
  cases v with
  | scalar text =>
    obtain ⟨hkey, htext⟩ := h
    refine ⟨.scalar key text, [], ?_, by simp [Settled], ?_⟩
    · rw [Value.written, beginValue]
      · rw [htext.dropQuotes_written, String.ofList_toList]
      · simp
    · simp [finish, enterScalar, hkey]
  | list items =>
    obtain ⟨inner, hinner⟩ := Literal.render_ofStrings items
    have hparse := Literal.parseStrings_text items
    refine ⟨.nothing, [.entry key (.list items)], ?_, by simp [Settled], rfl⟩
    have hlast : (inner ++ [']']).getLast? = some ']' := List.getLast?_concat
    rw [Literal.text, hinner] at hparse
    rw [Value.written, hinner, beginValue, if_pos hlast, enterList, hparse]

/-- A line with an equals sign enters what is pending and begins its own entry. -/
theorem step_of_settled {p : Pending} (hp : Settled p) {line : List Char} (h : '=' ∈ line) :
    step p line = ((beginEntry line).1, finish p ++ (beginEntry line).2) := by
  cases p with
  | nothing => simp [step, h, finish]
  | scalar key value => simp [step, h, finish]
  | list key items => exact absurd rfl (hp key items)

/-- Reading the lines of entries enters what was pending before them, and then the entries. -/
theorem readLines_entryLines {es : List (String × Value)} (h : ∀ e ∈ es, IsEntry e)
    {p : Pending} (hp : Settled p) :
    readLines p (es.map entryLine) = finish p ++ es.map fun e => .entry e.1 e.2 := by
  induction es generalizing p with
  | nil => simp [readLines]
  | cons e es ih =>
    rw [List.forall_mem_cons] at h
    obtain ⟨next, events, hbegin, hnext, hevents⟩ := beginValue_written h.1.value
    have hsign : '=' ∈ entryLine e := by simp [entryLine]
    rw [List.map_cons, readLines, step_of_settled hp hsign, beginEntry_entryLine h.1, hbegin]
    simp only [List.map_cons]
    rw [ih h.2 hnext, ← List.append_assoc, List.append_assoc (finish p), hevents]
    simp

/-! ### Entries put in order -/

theorem IsValue.coerce_eq {key : String} {v : Value} (h : IsValue key v) : coerce key v = v := by
  cases v with
  | scalar text => rw [coerce, if_neg h.1]
  | list items => rfl

/-- Values that need no coercion are inserted as they are. -/
theorem foldl_insert {es : List (String × Value)} (h : ∀ e ∈ es, IsEntry e) (m : Manifest) :
    es.foldl (fun m e => m.insert e.1 e.2) m =
      { m with entries := es.foldl (fun entries e => entries.put e.1 e.2) m.entries } := by
  induction es generalizing m with
  | nil => rfl
  | cons e es ih =>
    rw [List.forall_mem_cons] at h
    have hinsert : m.insert e.1 e.2 = { m with entries := m.entries.put e.1 e.2 } := by
      rw [insert, h.1.value.coerce_eq]
    rw [List.foldl_cons, List.foldl_cons, hinsert, ih h.2]

/-- The events of entries, put in order, are the entries. -/
theorem ofEvents_entries {entries : Entries} (h : ∀ e ∈ entries.toList, IsEntry e) :
    ofEvents (entries.toList.map fun e => .entry e.1 e.2) = ⟨entries, none⟩ := by
  have hevents : (entries.toList.map fun e => Event.entry e.1 e.2).filterMap Event.entry? =
      entries.toList := by
    rw [List.filterMap_map]
    exact List.filterMap_some
  rw [ofEvents, hevents, foldl_insert h]
  exact congrArg (Manifest.mk · none) (ofList_toList entries)

/-- The source of a script is the scalar of its entry. -/
theorem withExternalSource_of_entries {entries : Entries}
    (h : ∀ e ∈ entries.toList, IsEntry e) :
    withExternalSource ⟨entries, none⟩ =
      (⟨entries, (entries.get? externalSourceKey).bind Value.scalar?⟩, []) := by
  cases hget : entries.get? externalSourceKey with
  | none => simp [withExternalSource, get?, hget]
  | some value =>
    cases value with
    | scalar source => simp [withExternalSource, get?, hget, Value.scalar?]
    | list items =>
      obtain ⟨l, r, heq, _⟩ := List.lookup_eq_some_iff.mp hget
      have hmem : (externalSourceKey, .list items) ∈ entries.toList := by simp [heq]
      exact absurd rfl (h _ hmem).value

/-! ### Round trip -/

theorem eventsOf_joined {es : List (String × Value)} (h : ∀ e ∈ es, IsEntry e) :
    eventsOf (Text.joined (es.map entryLine)) = es.map fun e => .entry e.1 e.2 := by
  have hlines : ∀ l ∈ es.map entryLine, Text.IsLine l := by
    intro l hl
    obtain ⟨e, he, rfl⟩ := List.mem_map.mp hl
    exact isLine_entryLine (h e he)
  have htrim : (es.map entryLine).map Text.trim = es.map entryLine := by
    rw [List.map_congr_left fun l hl => (hlines l hl).trim_eq, List.map_id']
  have hnothing : Settled .nothing := by simp [Settled]
  rw [eventsOf, Text.lines_trim_joined hlines, htrim, readLines_entryLines h hnothing]
  rfl

/-- **Round trip of manifests.** Entries that are written as a block are read from every script
that holds the block: no opening line stands before it, and anything may stand behind it. -/
theorem read_written {entries : Entries} (h : ∀ e ∈ entries.toList, IsEntry e)
    (hmark : ∀ e ∈ entries.toList, ¬closingMark <:+: entryLine e) {before : List Char}
    (hbefore : ∀ line ∈ openingLines, ¬line <:+: before) (after : List Char) :
    read (String.ofList (before ++ written entries ++ after)) =
      ⟨⟨entries, (entries.get? externalSourceKey).bind Value.scalar?⟩, []⟩ := by
  have hbody : ¬closingMark <:+: Text.joined (entries.toList.map entryLine) := by
    apply not_isInfix_joined (by decide) (List.cons_ne_nil _ _)
    intro l hl
    obtain ⟨e, he, rfl⟩ := List.mem_map.mp hl
    exact hmark e he
  have htext : before ++ written entries ++ after =
      before ++ (openingMark ++ '\n' :: (Text.joined (entries.toList.map entryLine) ++
        (closingMark ++ after))) := by
    simp [written]
  have hwarnings : (entries.toList.map fun e => Event.entry e.1 e.2).filterMap Event.warning? =
      [] := by
    rw [List.filterMap_eq_nil_iff]
    intro event hevent
    obtain ⟨e, _, rfl⟩ := List.mem_map.mp hevent
    rfl
  rw [read, String.toList_ofList, htext, block?_append hbefore hbody]
  simp only [eventsOf_joined h, ofEvents_entries h, withExternalSource_of_entries h, hwarnings,
    List.append_nil]

theorem read_written_of_two :
    read (String.ofList ("x = 1\n".toList ++
        written ⟨[("title", .scalar "A = b"), ("tags", .list ["x", "it's"])], by decide⟩ ++
        "\nrun()".toList)) =
      ⟨⟨⟨[("title", .scalar "A = b"), ("tags", .list ["x", "it's"])], by decide⟩, none⟩, []⟩ := by
  have htitle : IsEntry ("title", .scalar "A = b") := by
    refine ⟨⟨by decide, by decide, by decide, by decide, ?_⟩, by decide, by decide, ?_, ?_⟩
    all_goals
      rintro c ⟨⟩
      decide
  have htags : IsEntry ("tags", .list ["x", "it's"]) := by
    have hkey : "tags" ≠ externalSourceKey := by decide
    refine ⟨⟨by decide, by decide, by decide, by decide, ?_⟩, hkey⟩
    rintro c ⟨⟩
    decide
  refine read_written ?_ ?_ ?_ _
  · simpa only [List.forall_mem_cons] using ⟨htitle, htags, by simp⟩
  · decide +kernel
  · decide +kernel

end Scriptorium.Manifest
