/-
Tables as they are written: a header, a rule below it, and one line for each row.

A table is read by its line ends and by the bars in its lines before which no backslash stands
(`IsTable`). A cell that is escaped holds no such bar. Keys, names, identifiers and paths are
written as they are, and the tables are well formed exactly as long as each of them fits into a cell
(`isTable_iff`).
-/

import Scriptorium.Output.Markdown
import Scriptorium.Proofs.Literal.Enclosure
import Scriptorium.Proofs.Text.Line
import Mathlib.Algebra.GroupWithZero.Nat

namespace Scriptorium.Markdown

variable {s t : List Char}

/-! ### Bars -/

/-- The number of bars that are not escaped: no backslash stands right before them. `escaped` says
whether one stands before the text. -/
def barsFrom (escaped : Bool) : List Char → Nat
  | [] => 0
  | c :: s => (if c = '|' ∧ escaped = false then 1 else 0) + barsFrom (c == '\\') s

/-- The number of bars in a text that are not escaped. -/
def bars (s : List Char) : Nat :=
  barsFrom false s

/-- The bars on the two sides of a character that is no bar are counted apart. -/
theorem barsFrom_append_cons {c : Char} (hc : c ≠ '|') (escaped : Bool) (s t : List Char) :
    barsFrom escaped (s ++ c :: t) = barsFrom escaped s + barsFrom (c == '\\') t := by
  induction s generalizing escaped with
  | nil => simp [barsFrom, hc]
  | cons a s ih => rw [List.cons_append, barsFrom, barsFrom, ih, Nat.add_assoc]

/-- A character that separates is neither a bar nor the backslash that escapes one. -/
theorem bars_append_cons {c : Char} (hbar : c ≠ '|') (hslash : c ≠ '\\') (s t : List Char) :
    bars (s ++ c :: t) = bars s + bars t := by
  have h := barsFrom_append_cons hbar false s t
  rwa [beq_eq_false_iff_ne.mpr hslash] at h

theorem cellChars_cons (c : Char) (s : List Char) :
    cellChars (c :: s) =
      (if c = '|' then ['\\', '|'] else if c = '\n' then [' '] else [c]) ++ cellChars s := by
  by_cases hbar : c = '|'
  · simp [cellChars, Text.replaceChar, hbar]
  · by_cases hfeed : c = '\n'
    · simp [cellChars, Text.replaceChar, hfeed]
    · simp [cellChars, Text.replaceChar, hbar, hfeed]

/-- A cell that is escaped holds no bar. -/
theorem barsFrom_cellChars (escaped : Bool) (s : List Char) :
    barsFrom escaped (cellChars s) = 0 := by
  induction s generalizing escaped with
  | nil => rfl
  | cons c s ih =>
    rw [cellChars_cons]
    split_ifs with hbar hfeed
    · simp [barsFrom, ih]
    · simp [barsFrom, ih]
    · simp [barsFrom, hbar, ih]

/-! ### Lines -/

/-- A text in one line. -/
def OneLine (s : List Char) : Prop :=
  '\n' ∉ s ∧ '\r' ∉ s

instance : Decidable (OneLine s) := inferInstanceAs (Decidable (_ ∧ _))

theorem oneLine_append : OneLine (s ++ t) ↔ OneLine s ∧ OneLine t := by
  simp only [OneLine, List.mem_append, not_or]
  tauto

/-- In a cell that is escaped only a carriage return can end the line. -/
theorem oneLine_cellChars : OneLine (cellChars s) ↔ '\r' ∉ s := by
  induction s with
  | nil => simp [OneLine, cellChars, Text.replaceChar]
  | cons c s ih =>
    rw [cellChars_cons, oneLine_append, ih, List.mem_cons, not_or, and_congr_left_iff]
    intro _
    split_ifs with hbar hfeed
    · simp [OneLine, hbar]
    · simp [OneLine, hfeed]
    · simp [OneLine, Ne.symm hfeed]

/-! ### Tables by their lines -/

/-- A text is a table with `n` rows: a header, a rule and the rows are lines of their own, and each
row has as many bars as the header. -/
def IsTable (n : Nat) (text : List Char) : Prop :=
  ∃ header rule rows, text = Text.joined (header :: rule :: rows) ∧ rows.length = n ∧
    (∀ line ∈ header :: rule :: rows, OneLine line) ∧ ∀ row ∈ rows, bars row = bars header

theorem count_joined_cons (l : List Char) (ls : List (List Char)) :
    (Text.joined (l :: ls)).count '\n' = l.count '\n' + 1 + (Text.joined ls).count '\n' := by
  have hcons : Text.joined (l :: ls) = (l ++ ['\n']) ++ Text.joined ls := rfl
  rw [hcons, List.count_append, List.count_append, List.count_singleton_self]

theorem length_le_count_joined (ls : List (List Char)) :
    ls.length ≤ (Text.joined ls).count '\n' := by
  induction ls with
  | nil => exact Nat.zero_le _
  | cons l ls ih =>
    rw [count_joined_cons, List.length_cons]
    omega

/-- A text has as many line feeds as it has lines exactly if none of them is inside a line. -/
theorem count_joined_eq_iff {ls : List (List Char)} :
    (Text.joined ls).count '\n' = ls.length ↔ ∀ l ∈ ls, '\n' ∉ l := by
  induction ls with
  | nil => simp [Text.joined]
  | cons l ls ih =>
    have hle := length_le_count_joined ls
    rw [List.forall_mem_cons, ← ih, ← List.count_eq_zero, count_joined_cons, List.length_cons]
    omega

theorem splitAt_joined {ls : List (List Char)} (h : ∀ l ∈ ls, '\n' ∉ l) :
    Text.splitAt '\n' (Text.joined ls) = ls ++ [[]] := by
  induction ls with
  | nil => rfl
  | cons l ls ih =>
    rw [List.forall_mem_cons] at h
    have hcons : Text.joined (l :: ls) = l ++ '\n' :: Text.joined ls := by
      simp [Text.joined]
    rw [hcons, Text.splitAt_append h.1, ih h.2, List.cons_append]

/-- Lines are the lines of a table exactly if every one of them is a line, and the rows have as many
bars as the header. -/
theorem isTable_joined_iff {header rule : List Char} {rows : List (List Char)}
    (hheader : OneLine header) (hrule : OneLine rule) :
    IsTable rows.length (Text.joined (header :: rule :: rows)) ↔
      ∀ row ∈ rows, OneLine row ∧ bars row = bars header := by
  constructor
  · rintro ⟨header', rule', rows', htext, hlength, hlines, hbars⟩
    have hfeeds (line) (hline : line ∈ header' :: rule' :: rows') : '\n' ∉ line :=
      (hlines line hline).1
    -- There are as many line feeds as lines, which leaves none for the inside of a row.
    have hcount := count_joined_eq_iff.mpr hfeeds
    have hsame : (header' :: rule' :: rows').length = (header :: rule :: rows).length := by
      simp only [List.length_cons, hlength]
    rw [← htext, hsame] at hcount
    have hfree := count_joined_eq_iff.mp hcount
    have hsplit := congrArg (Text.splitAt '\n') htext
    rw [splitAt_joined hfree, splitAt_joined hfeeds] at hsplit
    obtain ⟨rfl, hmore⟩ := List.cons.inj (List.append_cancel_right hsplit)
    obtain ⟨rfl, rfl⟩ := List.cons.inj hmore
    intro row hrow
    exact ⟨hlines row (by simp [hrow]), hbars row hrow⟩
  · intro h
    refine ⟨header, rule, rows, rfl, rfl, ?_, fun row hrow => (h row hrow).2⟩
    rw [List.forall_mem_cons, List.forall_mem_cons]
    exact ⟨hheader, hrule, fun row hrow => (h row hrow).1⟩

/-! ### Cells -/

/-- A text that fits into a cell: it is in one line and holds no bar that ends the cell. -/
def Fits (s : List Char) : Prop :=
  OneLine s ∧ bars s = 0

instance : Decidable (Fits s) := inferInstanceAs (Decidable (_ ∧ _))

theorem fits_append_cons {c : Char} (hc : c ∉ ['|', '\\', '\n', '\r']) :
    Fits (s ++ c :: t) ↔ Fits s ∧ Fits t := by
  simp only [List.mem_cons, List.not_mem_nil, or_false, not_or] at hc
  obtain ⟨hbar, hslash, hfeed, hreturn⟩ := hc
  have hone : OneLine (c :: t) ↔ OneLine t := by
    simp [OneLine, Ne.symm hfeed, Ne.symm hreturn]
  rw [Fits, Fits, Fits, oneLine_append, hone, bars_append_cons hbar hslash, Nat.add_eq_zero_iff]
  tauto

theorem fits_nil : Fits [] := by decide

theorem fits_cell {s : String} : Fits (cell s).toList ↔ '\r' ∉ s.toList := by
  rw [cell, String.toList_ofList, Fits, oneLine_cellChars, bars, barsFrom_cellChars]
  exact and_iff_left rfl

theorem fits_code {s : String} : Fits (code s).toList ↔ Fits s.toList := by
  have htext : (code s).toList = [] ++ '`' :: (s.toList ++ '`' :: []) := by
    simp [code, String.toList_append]
  rw [htext, fits_append_cons (by decide), fits_append_cons (by decide)]
  simp [fits_nil]

/-- Texts behind commas fit into a cell exactly if each of them does. -/
theorem fits_intercalate {texts : List (List Char)} :
    Fits ([',', ' '].intercalate texts) ↔ ∀ text ∈ texts, Fits text := by
  induction texts with
  | nil => simp [fits_nil]
  | cons text texts ih =>
    cases texts with
    | nil => simp
    | cons next texts =>
      rw [List.intercalate_cons_cons, List.forall_mem_cons, ← ih, List.append_assoc]
      change Fits (text ++ ',' :: ([] ++ ' ' :: _)) ↔ _
      rw [fits_append_cons (by decide), fits_append_cons (by decide)]
      simp [fits_nil]

/-- The default of a parameter is in one line, since the source form of a literal is. -/
theorem return_not_mem_defaultText (d : Default) : '\r' ∉ (defaultText d).toList := by
  cases d with
  | absent => decide
  | computed => decide
  | literal v =>
    have hline := (Literal.enclosed_render v).line
    have hreturn : '\r' ∉ v.render := fun h => (hline _ h).2 rfl
    simpa [defaultText, code, Literal.text, String.toList_append] using hreturn

theorem fits_kindText (k : ParameterKind) : Fits (kindText k).toList := by
  cases k <;> decide

/-! ### Rows -/

/-- Cells, each with the bar behind it. -/
def closedCells : List (List Char) → List Char
  | [] => []
  | text :: cells => ' ' :: (text ++ ' ' :: '|' :: closedCells cells)

/-- The line of a row. -/
def rowLine (cells : List (List Char)) : List Char :=
  '|' :: closedCells cells

theorem intercalate_eq_closedCells {cells : List (List Char)} (h : cells ≠ []) :
    ' ' :: ([' ', '|', ' '].intercalate cells ++ [' ', '|']) = closedCells cells := by
  induction cells with
  | nil => exact absurd rfl h
  | cons text cells ih =>
    cases cells with
    | nil => simp [closedCells]
    | cons next cells =>
      rw [closedCells, ← ih (by simp), List.intercalate_cons_cons]
      simp

theorem toList_row {cells : List String} (h : cells ≠ []) :
    (row cells).toList = rowLine (cells.map String.toList) ++ ['\n'] := by
  rw [rowLine, ← intercalate_eq_closedCells (by simpa using h)]
  simp [row, String.toList_append, String.toList_intercalate]

theorem bars_space_cons (s : List Char) : bars (' ' :: s) = bars s := by
  simp [bars, barsFrom]

theorem bars_bar_cons (s : List Char) : bars ('|' :: s) = 1 + bars s := rfl

theorem bars_closedCells (cells : List (List Char)) :
    bars (closedCells cells) = cells.length + (cells.map bars).sum := by
  induction cells with
  | nil => rfl
  | cons text cells ih =>
    rw [closedCells, bars_space_cons, bars_append_cons (by decide) (by decide), bars_bar_cons, ih,
      List.length_cons, List.map_cons, List.sum_cons]
    omega

/-- A row has one bar before its cells, one behind each of them, and those that are in them. -/
theorem bars_rowLine (cells : List (List Char)) :
    bars (rowLine cells) = cells.length + 1 + (cells.map bars).sum := by
  rw [rowLine, bars_bar_cons, bars_closedCells]
  omega

theorem oneLine_closedCells {cells : List (List Char)} :
    OneLine (closedCells cells) ↔ ∀ text ∈ cells, OneLine text := by
  induction cells with
  | nil => simp [closedCells, OneLine]
  | cons text cells ih =>
    have hcons : closedCells (text :: cells) =
        [' '] ++ text ++ ([' ', '|'] ++ closedCells cells) := by
      simp [closedCells]
    rw [hcons, oneLine_append, oneLine_append, oneLine_append, ih, List.forall_mem_cons]
    simp [OneLine]

theorem oneLine_rowLine {cells : List (List Char)} :
    OneLine (rowLine cells) ↔ ∀ text ∈ cells, OneLine text := by
  rw [← oneLine_closedCells]
  simp [rowLine, OneLine]

/-- Rows of as many cells as the header has are the rows of a table exactly if every cell fits. -/
theorem isTable_rows_iff {header rule : List Char} {rows : List (List (List Char))}
    (hheader : OneLine header) (hrule : OneLine rule)
    (hcells : ∀ cells ∈ rows, bars header = cells.length + 1) :
    IsTable rows.length (Text.joined (header :: rule :: rows.map rowLine)) ↔
      ∀ cells ∈ rows, ∀ text ∈ cells, Fits text := by
  rw [← List.length_map, isTable_joined_iff hheader hrule, List.forall_mem_map]
  refine forall₂_congr fun cells hmem => ?_
  have hsum : (cells.map bars).sum = 0 ↔ ∀ text ∈ cells, bars text = 0 := by
    rw [List.sum_eq_zero_iff_forall_eq_nat, List.forall_mem_map]
  rw [oneLine_rowLine, bars_rowLine, hcells cells hmem, Nat.add_eq_left, hsum, ← forall₂_and]
  rfl

/-! ### Tables as they are written -/

theorem toList_join_rows {α : Type} {cells : α → List String} (hne : ∀ x, cells x ≠ [])
    (xs : List α) :
    (String.join (xs.map fun x => row (cells x))).toList =
      Text.joined ((xs.map fun x => (cells x).map String.toList).map rowLine) := by
  induction xs with
  | nil => rfl
  | cons x xs ih =>
    simp only [String.toList_join, List.map_cons, List.flatMap_cons] at ih ⊢
    rw [ih, toList_row (hne x)]
    rfl

/-- A header, a rule and rows of as many cells as the header has are a table exactly if every cell
fits. -/
theorem isTable_written_iff {α : Type} (header rule : List Char) {text header' rule' : String}
    {xs : List α} {cells : α → List String}
    (htext : text = header' ++ rule' ++ String.join (xs.map fun x => row (cells x)))
    (hheader' : header'.toList = header ++ ['\n']) (hrule' : rule'.toList = rule ++ ['\n'])
    (hheader : OneLine header) (hrule : OneLine rule)
    (hcells : ∀ x, bars header = (cells x).length + 1) (hne : ∀ x, cells x ≠ []) :
    IsTable xs.length text.toList ↔ ∀ x ∈ xs, ∀ text ∈ cells x, Fits text.toList := by
  have hlines : text.toList = Text.joined (header :: rule ::
      (xs.map fun x => (cells x).map String.toList).map rowLine) := by
    rw [htext, String.toList_append, String.toList_append, hheader', hrule', toList_join_rows hne]
    simp [Text.joined]
  have hlength : ∀ texts ∈ xs.map fun x => (cells x).map String.toList,
      bars header = texts.length + 1 := by
    rw [List.forall_mem_map]
    intro x _
    rw [hcells x, List.length_map]
  have hrows := isTable_rows_iff hheader hrule hlength
  rw [List.length_map, List.forall_mem_map] at hrows
  rw [hlines, hrows]
  exact forall₂_congr fun x _ => List.forall_mem_map

/-! ### Manifests -/

/-- The table of a manifest has a row for each entry and one for the source. -/
theorem length_rows (m : Manifest) :
    m.rows.length = m.entries.toList.length + m.source.toList.length := by
  simp [Manifest.rows]

theorem isTable_manifest_iff {m : Manifest} (h : m.rows ≠ []) :
    IsTable m.rows.length (manifest m).toList ↔
      ∀ r ∈ m.rows, Fits r.label.toList ∧ '\r' ∉ r.value.toList := by
  have htext : manifest m = "| Key | Value |\n" ++ "|-----|-------|\n" ++
      String.join (m.rows.map fun r => row [r.label, cell r.value]) :=
    if_neg (by simpa using h)
  rw [isTable_written_iff "| Key | Value |".toList "|-----|-------|".toList htext (by decide)
    (by decide) (by decide) (by decide) (fun _ => rfl) (fun _ => List.cons_ne_nil _ _)]
  simp [fits_cell]

/-! ### Commands -/

/-- The table of the parameters of a command. -/
def parameterTable (ps : List Parameter) : String :=
  "| Parameter | Type | Default | Kind |\n" ++ "|-----------|------|---------|------|\n" ++
    String.join (ps.map parameterRow)

/-- What is written of a command before its parameters. -/
def commandHead (identifier : String) (c : Command) : String :=
  "### " ++ code c.invocationName ++ "\n\n" ++
    (match c.docstring with
    | some doc => doc ++ "\n\n"
    | none => "") ++
    "```python\n" ++ c.wrapper (Identifier.wrapperName identifier c.name) ++ "\n```\n\n"

theorem command_eq {identifier : String} {c : Command} (h : c.parameters ≠ []) :
    command identifier c = commandHead identifier c ++ (parameterTable c.parameters ++ "\n") := by
  have hparameters : parameters c.parameters = parameterTable c.parameters ++ "\n" :=
    if_neg (by simpa using h)
  rw [command, hparameters]
  rfl

theorem isTable_parameterTable_iff {ps : List Parameter} :
    IsTable ps.length (parameterTable ps).toList ↔
      ∀ p ∈ ps, Fits p.name.toList ∧ '\r' ∉ p.type.toList := by
  have htext : parameterTable ps = "| Parameter | Type | Default | Kind |\n" ++
      "|-----------|------|---------|------|\n" ++ String.join (ps.map fun p =>
        row [code p.name, code (cell p.type), cell (defaultText p.default), kindText p.kind]) := rfl
  rw [isTable_written_iff "| Parameter | Type | Default | Kind |".toList
    "|-----------|------|---------|------|".toList htext (by decide) (by decide)
    (by decide) (by decide) (fun _ => rfl) (fun _ => List.cons_ne_nil _ _)]
  simp [fits_code, fits_cell, return_not_mem_defaultText, fits_kindText]

/-! ### Catalogs -/

/-- The table of the scripts of a catalog. -/
def scriptTable (rs : List Catalog.Record) : String :=
  "| Identifier | Title | Commands | Path |\n" ++ "|------------|-------|----------|------|\n" ++
    String.join (rs.map recordRow)

/-- What is written of a catalog before its scripts. -/
def catalogHead (c : Catalog) : String :=
  "# " ++ c.name.getD "Script Catalog" ++ "\n\n" ++
    "- **Version:** " ++ c.version ++ "\n" ++
    "- **Generated:** " ++ c.generatedAt ++ "\n" ++
    "- **Scripts:** " ++ toString c.scripts.length ++ "\n\n"

theorem catalog_eq {c : Catalog} (h : c.scripts ≠ []) :
    catalog c = catalogHead c ++ scriptTable c.scripts := by
  have hcatalog : catalog c =
      catalogHead c ++ if c.scripts.isEmpty then "" else scriptTable c.scripts := rfl
  rw [hcatalog, if_neg (by simpa using h)]

theorem fits_commandNames {cs : List Command} :
    Fits (", ".intercalate (cs.map fun c => code c.invocationName)).toList ↔
      ∀ c ∈ cs, Fits c.invocationName.toList := by
  have hsep : ", ".toList = [',', ' '] := rfl
  rw [String.toList_intercalate, hsep, fits_intercalate, List.forall_mem_map, List.forall_mem_map]
  exact forall₂_congr fun c _ => fits_code

theorem isTable_scriptTable_iff {rs : List Catalog.Record} :
    IsTable rs.length (scriptTable rs).toList ↔
      ∀ r ∈ rs, Fits r.identifier.toList ∧ '\r' ∉ r.manifest.title.toList ∧
        (∀ c ∈ r.commands, Fits c.invocationName.toList) ∧ Fits r.path.toList := by
  have htext : scriptTable rs = "| Identifier | Title | Commands | Path |\n" ++
      "|------------|-------|----------|------|\n" ++ String.join (rs.map fun r =>
        row [code r.identifier, cell r.manifest.title,
          ", ".intercalate (r.commands.map fun c => code c.invocationName), code r.path]) := rfl
  rw [isTable_written_iff "| Identifier | Title | Commands | Path |".toList
    "|------------|-------|----------|------|".toList htext (by decide) (by decide)
    (by decide) (by decide) (fun _ => rfl) (fun _ => List.cons_ne_nil _ _)]
  refine forall₂_congr fun r _ => ?_
  simp only [List.forall_mem_cons, fits_code, fits_cell, fits_commandNames]
  simp

/-! ### All tables -/

/-- **Tables stay tables exactly as long as what is written as it is fits into a cell.** A manifest
is a table with a row for each entry and one for its source, the parameters of a command are one
with a row for each of them, and so are the scripts of a catalog. Values, types and titles are
escaped, and only a carriage return in them breaks a row; labels, names, identifiers and paths are
not, and a bar or a line end in one of them does. -/
theorem isTable_iff (m : Manifest) (identifier : String) (c : Command) (k : Catalog) :
    (m.rows ≠ [] →
      (IsTable (m.entries.toList.length + m.source.toList.length) (manifest m).toList ↔
        ∀ r ∈ m.rows, Fits r.label.toList ∧ '\r' ∉ r.value.toList)) ∧
    (c.parameters ≠ [] →
      command identifier c = commandHead identifier c ++ (parameterTable c.parameters ++ "\n") ∧
        (IsTable c.parameters.length (parameterTable c.parameters).toList ↔
          ∀ p ∈ c.parameters, Fits p.name.toList ∧ '\r' ∉ p.type.toList)) ∧
    (k.scripts ≠ [] →
      catalog k = catalogHead k ++ scriptTable k.scripts ∧
        (IsTable k.scripts.length (scriptTable k.scripts).toList ↔
          ∀ r ∈ k.scripts, Fits r.identifier.toList ∧ '\r' ∉ r.manifest.title.toList ∧
            (∀ c ∈ r.commands, Fits c.invocationName.toList) ∧ Fits r.path.toList)) := by
  refine ⟨fun h => ?_, fun h => ⟨command_eq h, isTable_parameterTable_iff⟩,
    fun h => ⟨catalog_eq h, isTable_scriptTable_iff⟩⟩
  rw [← length_rows]
  exact isTable_manifest_iff h

/-- A value and a type with bars are cells, beside labels and names without them. -/
theorem isTable_of_barred_value :
    let m := Manifest.insert {} "usage" (.scalar "a|b\nc")
    let c : Command := { name := "f", parameters := [{ name := "x", type := "int|str" }] }
    let k : Catalog :=
      { version := "1", generatedAt := "now", scripts := [⟨"f", "f.py", m, [c], []⟩] }
    m.rows ≠ [] ∧ c.parameters ≠ [] ∧ k.scripts ≠ [] ∧ IsTable 1 (manifest m).toList ∧
      IsTable 1 (parameterTable c.parameters).toList ∧
      IsTable 1 (scriptTable k.scripts).toList := by
  intro m c k
  have hrows : m.rows = [⟨"Usage", "a|b\nc"⟩] := by decide +kernel
  have hne : m.rows ≠ [] := by rw [hrows]; exact List.cons_ne_nil _ _
  obtain ⟨hmanifest, hcommand, hcatalog⟩ := isTable_iff m "f" c k
  refine ⟨hne, List.cons_ne_nil _ _, List.cons_ne_nil _ _, (hmanifest hne).mpr ?_,
    (hcommand (List.cons_ne_nil _ _)).2.mpr ?_, (hcatalog (List.cons_ne_nil _ _)).2.mpr ?_⟩
  · rw [hrows]
    decide
  · decide +kernel
  · decide +kernel

/-- A bar in a key is a bar in its label, and the row has a cell more than the header. -/
theorem not_isTable_of_barred_key :
    let m := Manifest.insert {} "a|b" (.scalar "c")
    manifest m = "| Key | Value |\n|-----|-------|\n| A|B | c |\n" ∧
      ¬ IsTable 1 (manifest m).toList := by
  intro m
  have hrows : m.rows = [⟨"A|B", "c"⟩] := by decide +kernel
  have hne : m.rows ≠ [] := by rw [hrows]; exact List.cons_ne_nil _ _
  refine ⟨by rw [manifest, manifestRows, hrows]; decide, fun h => ?_⟩
  have hfits := (isTable_manifest_iff hne).mp (by rw [hrows]; exact h)
  rw [hrows] at hfits
  revert hfits
  decide

end Scriptorium.Markdown
