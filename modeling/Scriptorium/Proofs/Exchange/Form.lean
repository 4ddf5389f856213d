/-
The exchange forms of what holds no floating-point number hold none.
-/

import Scriptorium.Exchange.Encode
import Scriptorium.Proofs.Json.Text
import Scriptorium.Proofs.Literal.SourceForm

namespace Scriptorium

open Data (FloatFree)

theorem Data.FloatFree.seq_map {tree : α → Data} {xs : List α}
    (h : ∀ x ∈ xs, (tree x).FloatFree) : (Data.seq (xs.map tree)).FloatFree := by
  apply FloatFree.seq
  intro d hd
  obtain ⟨x, hx, rfl⟩ := List.mem_map.mp hd
  exact h x hx

/-- A kind without content. -/
theorem Data.FloatFree.unit (tag kind : String) : (Data.map [(tag, .str kind)]).FloatFree := by
  apply FloatFree.map
  simp only [List.forall_mem_cons]
  exact ⟨.str kind, by simp⟩

/-- A kind with its content. -/
theorem Data.FloatFree.content (tag content kind : String) {tree : Data} (h : tree.FloatFree) :
    (Data.map [(tag, .str kind), (content, tree)]).FloatFree := by
  apply FloatFree.map
  simp only [List.forall_mem_cons]
  exact ⟨.str kind, h, by simp⟩

/-! ### Literals -/

namespace Literal

theorem itemsToData_eq (items : List Literal) : itemsToData items = items.map toData := by
  induction items with
  | nil => rfl
  | cons item items ih => rw [itemsToData, ih, List.map_cons]

/-- The form of a pair. -/
def pairToData (p : Literal × Literal) : Data :=
  .seq [p.1.toData, p.2.toData]

theorem pairsToData_eq (pairs : List (Literal × Literal)) :
    pairsToData pairs = pairs.map pairToData := by
  induction pairs with
  | nil => rfl
  | cons p pairs ih => rw [pairsToData, ih, List.map_cons, pairToData]

/-- The word for a kind of display. -/
def Display.word : Display → String
  | .list => "list"
  | .tuple => "tuple"
  | .set => "set"

theorem toData_display (d : Display) (vs : List Literal) :
    (d.value vs).toData = tagged d.word (.seq (vs.map toData)) := by
  cases d <;> rw [Display.value, toData, itemsToData_eq] <;> rfl

theorem toData_dict (pairs : List (Literal × Literal)) :
    (dict pairs).toData = tagged "dict" (.seq (pairs.map pairToData)) := by
  rw [toData, pairsToData_eq]

theorem floatFree_tagged {kind : String} {tree : Data} (h : tree.FloatFree) :
    (tagged kind tree).FloatFree :=
  .content _ _ kind h

theorem floatFree_display {d : Display} {vs : List Literal} (h : ∀ v ∈ vs, v.toData.FloatFree) :
    (d.value vs).toData.FloatFree := by
  rw [toData_display]
  exact floatFree_tagged (.seq_map h)

theorem floatFree_pairToData {p : Literal × Literal} (hkey : p.1.toData.FloatFree)
    (hvalue : p.2.toData.FloatFree) : (pairToData p).FloatFree := by
  apply FloatFree.seq
  simp only [List.forall_mem_cons]
  exact ⟨hkey, hvalue, by simp⟩

theorem floatFree_toData {v : Literal} (h : v.FloatFree) : v.toData.FloatFree := by
  induction v using inductionOn with
  | null => exact .unit _ _
  | bool b => exact floatFree_tagged (.bool b)
  | int n => exact floatFree_tagged (.int n.toInt)
  | float x => exact absurd (self_mem_parts _) (h x)
  | str s => exact floatFree_tagged (.str s)
  | list items ih =>
    exact floatFree_display (d := .list) fun v hv => ih v hv (h.of_mem (d := .list) hv)
  | tuple items ih =>
    exact floatFree_display (d := .tuple) fun v hv => ih v hv (h.of_mem (d := .tuple) hv)
  | set items ih =>
    exact floatFree_display (d := .set) fun v hv => ih v hv (h.of_mem (d := .set) hv)
  | dict pairs ih =>
    rw [toData_dict]
    apply floatFree_tagged
    apply Data.FloatFree.seq_map
    intro p hp
    obtain ⟨hkey, hvalue⟩ := h.of_mem_dict hp
    exact floatFree_pairToData ((ih p hp).1 hkey) ((ih p hp).2 hvalue)

end Literal

/-! ### What holds no floating-point number -/

/-- The literal of the default holds no floating-point number. -/
def Default.FloatFree (d : Default) : Prop :=
  ∀ v, d = .literal v → v.FloatFree

/-- No default of the command holds a floating-point number. -/
def Command.FloatFree (c : Command) : Prop :=
  ∀ p ∈ c.parameters, p.default.FloatFree

/-- No command of the report has a floating-point number among its defaults. -/
def Report.FloatFree (r : Report) : Prop :=
  ∀ c ∈ r.commands, c.FloatFree

/-- No command of the record has a floating-point number among its defaults. -/
def Catalog.Record.FloatFree (r : Catalog.Record) : Prop :=
  ∀ c ∈ r.commands, c.FloatFree

/-- No record of the catalog has a floating-point number among the defaults of its commands. -/
def Catalog.FloatFree (c : Catalog) : Prop :=
  ∀ r ∈ c.scripts, r.FloatFree

/-! ### Their forms -/

theorem floatFree_strs (items : List String) : (Data.strs items).FloatFree :=
  .seq_map fun s _ => .str s

theorem floatFree_ofOption (s : Option String) : (Data.ofOption s).FloatFree := by
  cases s with
  | none => exact .null
  | some text => exact .str text

/-- A string that may be left out. -/
theorem floatFree_entryOf (key : String) (s : Option String) :
    ∀ e ∈ Data.entryOf key (s.map .str), e.2.FloatFree := by
  cases s with
  | none => simp [Data.entryOf]
  | some text => simpa [Data.entryOf] using FloatFree.str text

theorem floatFree_warningsEntry (warnings : List String) :
    ∀ e ∈ warningsEntry warnings, e.2.FloatFree := by
  unfold warningsEntry
  split
  · simp
  · simpa using floatFree_strs warnings

theorem floatFree_default {d : Default} (h : d.FloatFree) : d.toData.FloatFree := by
  cases d with
  | absent => exact .unit _ _
  | computed => exact .unit _ _
  | literal v => exact .content _ _ _ (Literal.floatFree_toData (h v rfl))

theorem floatFree_parameter {p : Parameter} (h : p.default.FloatFree) : p.toData.FloatFree := by
  apply FloatFree.map
  simp only [List.forall_mem_cons]
  exact ⟨.str _, .str _, floatFree_default h, .str _, by simp⟩

theorem floatFree_marker (m : Marker) : m.toData.FloatFree := by
  apply FloatFree.map
  simp only [List.forall_mem_append, List.forall_mem_cons]
  exact ⟨⟨.str _, .str _, by simp⟩, floatFree_entryOf _ _⟩

theorem floatFree_command {c : Command} (h : c.FloatFree) : c.toData.FloatFree := by
  apply FloatFree.map
  simp only [List.forall_mem_append, List.forall_mem_cons]
  have hparameters := FloatFree.seq_map fun p hp => floatFree_parameter (h p hp)
  exact ⟨⟨.str _, hparameters, floatFree_marker c.marker, by simp⟩, floatFree_entryOf _ _⟩

theorem floatFree_commands {cs : List Command} (h : ∀ c ∈ cs, c.FloatFree) :
    (Command.listToData cs).FloatFree :=
  .seq_map fun c hc => floatFree_command (h c hc)

theorem floatFree_manifest (m : Manifest) : m.toData.FloatFree := by
  apply FloatFree.map
  simp only [List.forall_mem_cons]
  refine ⟨.map ?_, floatFree_entryOf _ _⟩
  intro e he
  obtain ⟨⟨key, value⟩, _, rfl⟩ := List.mem_map.mp he
  cases value with
  | scalar text => exact .str text
  | list items => exact floatFree_strs items

theorem floatFree_report {r : Report} (h : r.FloatFree) : r.toData.FloatFree := by
  apply FloatFree.map
  simp only [List.forall_mem_append, List.forall_mem_cons]
  exact ⟨⟨.str _, .str _, floatFree_manifest r.manifest, floatFree_commands h, by simp⟩,
    floatFree_warningsEntry r.warnings⟩

theorem floatFree_record {r : Catalog.Record} (h : r.FloatFree) : r.toData.FloatFree := by
  apply FloatFree.map
  simp only [List.forall_mem_append, List.forall_mem_cons]
  exact ⟨⟨.str _, .str _, floatFree_manifest r.manifest, floatFree_commands h, by simp⟩,
    floatFree_warningsEntry r.warnings⟩

theorem floatFree_catalog {c : Catalog} (h : c.FloatFree) : c.toData.FloatFree := by
  apply FloatFree.map
  simp only [List.forall_mem_append, List.forall_mem_cons]
  have hscripts := FloatFree.seq_map fun r hr => floatFree_record (h r hr)
  exact ⟨floatFree_entryOf _ _, .str _, floatFree_ofOption c.name, .str _, hscripts, by simp⟩

end Scriptorium
