/-
Reports and catalogs are read back from the JSON texts they are written as.
-/

import Scriptorium.Output.Format
import Scriptorium.Proofs.Exchange.Literal
import Scriptorium.Proofs.Manifest.Insertion

namespace Scriptorium

open Json

/-! ### Defaults and commands -/

theorem decodes_default {d : Default} (hfloat : d.FloatFree) :
    Decodes Default.decode d.toData d := by
  intro depth hdepth
  have hpos : 0 < d.toData.nesting := by cases d <;> exact Nat.succ_pos _
  obtain ⟨depth, rfl⟩ : ∃ k, depth = k + 1 := ⟨depth - 1, by omega⟩
  cases d with
  | absent =>
    rw [Default.toData, Default.decode, tagged?_unit]
    rfl
  | computed =>
    rw [Default.toData, Default.decode, tagged?_unit]
    rfl
  | literal v =>
    have hnesting : v.toData.nesting ≤ depth := by
      have hlt : v.toData.nesting < (Default.literal v).toData.nesting :=
        Data.nesting_lt_map (e := ("value", v.toData)) (by simp)
      omega
    have hread := Literal.decodes_literal (hfloat v rfl) depth hnesting
    rw [Default.toData, Default.decode, tagged?_content (by decide)]
    exact congrArg (Option.map Default.literal) hread

theorem decodes_kind (k : ParameterKind) : Decodes ParameterKind.decode (.str k.word) k := by
  intro depth _
  cases k <;> rfl

theorem decodes_parameter {p : Parameter} (hfloat : p.default.FloatFree) :
    Decodes Parameter.decode p.toData p := by
  apply Decodes.of_fields (fun _ _ => rfl) (by simp)
  intro depth hdepth
  rw [required_of rfl rfl hdepth (decodes_string p.name),
    required_of rfl rfl hdepth (decodes_string p.type),
    orElse_of rfl rfl hdepth (decodes_default hfloat),
    orElse_of rfl rfl hdepth (decodes_kind p.kind)]
  rfl

theorem decodes_marker (m : Marker) : Decodes Marker.decode m.toData m := by
  apply Decodes.of_fields (fun _ _ => rfl) (nodup_entryOf (by simp) (by simp) _)
  intro depth hdepth
  rw [required_of rfl rfl hdepth (decodes_string m.receiver),
    required_of rfl rfl hdepth (decodes_string m.attr), orElse_entryOf rfl rfl m.explicitName]
  rfl

theorem decodes_command {c : Command} (hfloat : c.FloatFree) :
    Decodes Command.decode c.toData c := by
  have hparameters : Decodes (arrayOf Parameter.decode) (.seq (c.parameters.map Parameter.toData))
      c.parameters := .arrayOf fun p hp => decodes_parameter (hfloat p hp)
  apply Decodes.of_fields (fun _ _ => rfl) (nodup_entryOf (by simp) (by simp) _)
  intro depth hdepth
  rw [required_of rfl rfl hdepth (decodes_string c.name),
    required_of rfl rfl hdepth hparameters, orElse_of rfl rfl hdepth (decodes_marker c.marker),
    orElse_entryOf rfl rfl c.docstring]
  rfl

theorem decodes_commands {cs : List Command} (hfloat : ∀ c ∈ cs, c.FloatFree) :
    Decodes (arrayOf Command.decode) (Command.listToData cs) cs :=
  .arrayOf fun c hc => decodes_command (hfloat c hc)

/-! ### Manifests -/

theorem decodes_strs (items : List String) : Decodes (arrayOf string) (.strs items) items :=
  .arrayOf fun s _ => decodes_string s

theorem decodes_value (v : Manifest.Value) : Decodes Manifest.Value.decode v.toData v := by
  cases v with
  | scalar text => exact fun _ _ => rfl
  | list items =>
    intro depth hdepth
    exact congrArg (Option.map Manifest.Value.list) (decodes_strs items depth hdepth)

/-- The entries are read back in their order: no key is repeated. -/
theorem decodes_entries (entries : Manifest.Entries) :
    Decodes Manifest.decodeEntries
      (.map (entries.toList.map fun entry => (entry.1, entry.2.toData))) entries := by
  intro depth hdepth
  obtain ⟨depth, rfl⟩ : ∃ k, depth = k + 1 := Nat.exists_eq_add_one.mpr (Nat.zero_lt_of_lt hdepth)
  have hvalue : ∀ entry ∈ entries.toList,
      Manifest.Value.decode depth (.ofData entry.2.toData) = some entry.2 := by
    intro entry hentry
    have hmem : (entry.1, entry.2.toData) ∈
        entries.toList.map fun entry => (entry.1, entry.2.toData) :=
      List.mem_map.mpr ⟨entry, hentry, rfl⟩
    have hlt := Nat.lt_of_lt_of_le (Data.nesting_lt_map hmem) hdepth
    exact decodes_value entry.2 depth (Nat.le_of_lt_succ hlt)
  rw [Value.ofData_map, Manifest.decodeEntries, List.map_map, mapM_map ?pairs]
  · exact congrArg some (Manifest.ofList_toList entries)
  case pairs =>
    intro entry hentry
    simp [hvalue entry hentry]

theorem decodes_manifest (m : Manifest) : Decodes Manifest.decode m.toData m := by
  have hdata : m.toData = .map ([("entries",
      .map (m.entries.toList.map fun entry => (entry.1, entry.2.toData)))]
        ++ Data.entryOf "script_source" (m.source.map .str)) := rfl
  rw [hdata]
  apply Decodes.of_fields (fun _ _ => rfl) (nodup_entryOf (by simp) (by simp) _)
  intro depth hdepth
  rw [required_of rfl rfl hdepth (decodes_entries m.entries), orElse_entryOf rfl rfl m.source]
  rfl

/-! ### Reports and catalogs -/

section Warnings

variable {names : List String} {entries : List (String × Data)} {depth i : Nat}

theorem warningsEntry_eq (warnings : List String) :
    warningsEntry warnings =
      Data.entryOf "warnings" (if warnings.isEmpty then none else some (.strs warnings)) := by
  unfold warningsEntry
  split <;> rfl

theorem orElse_warningsEntry (hname : names[i]? = some "warnings")
    (h : entries.lookup "warnings" = none) (warnings : List String)
    (hdepth : (Data.map (entries ++ warningsEntry warnings)).nesting ≤ depth + 1) :
    (Fields.of names (entries ++ warningsEntry warnings) depth).orElse i [] (arrayOf string) =
      some warnings := by
  rw [warningsEntry_eq] at hdepth ⊢
  cases warnings with
  | nil => exact orElse_of_missing hname (lookup_entryOf h _)
  | cons w ws => exact orElse_of hname (lookup_entryOf h _) hdepth (decodes_strs (w :: ws))

end Warnings

theorem decodes_report {r : Report} (hfloat : r.FloatFree) :
    Decodes Report.decode r.toData r := by
  rw [Report.toData, warningsEntry_eq]
  apply Decodes.of_fields (fun _ _ => rfl) (nodup_entryOf (by simp) (by simp) _)
  intro depth hdepth
  rw [← warningsEntry_eq] at hdepth ⊢
  rw [required_of rfl rfl hdepth (decodes_string r.path),
    required_of rfl rfl hdepth (decodes_string r.identifierSeed),
    required_of rfl rfl hdepth (decodes_manifest r.manifest),
    required_of rfl rfl hdepth (decodes_commands hfloat),
    orElse_warningsEntry rfl rfl r.warnings hdepth]
  rfl

namespace Catalog

theorem decodes_record {r : Record} (hfloat : r.FloatFree) :
    Decodes Record.decode r.toData r := by
  rw [Record.toData, warningsEntry_eq]
  apply Decodes.of_fields (fun _ _ => rfl) (nodup_entryOf (by simp) (by simp) _)
  intro depth hdepth
  rw [← warningsEntry_eq] at hdepth ⊢
  rw [required_of rfl rfl hdepth (decodes_string r.identifier),
    required_of rfl rfl hdepth (decodes_string r.path),
    required_of rfl rfl hdepth (decodes_manifest r.manifest),
    required_of rfl rfl hdepth (decodes_commands hfloat),
    orElse_warningsEntry rfl rfl r.warnings hdepth]
  rfl

theorem decodes_catalog {c : Catalog} (hfloat : c.FloatFree) :
    Decodes decode c.toData c := by
  have hscripts : Decodes (arrayOf Record.decode) (.seq (c.scripts.map Record.toData)) c.scripts :=
    .arrayOf fun r hr => decodes_record (hfloat r hr)
  obtain ⟨schemaVersion, version, name, generatedAt, scripts⟩ := c
  cases schemaVersion with
  | none =>
    apply Decodes.of_fields (fun _ _ => rfl) (by simp [Data.entryOf])
    intro depth hdepth
    rw [orElse_of_missing rfl rfl, required_of rfl rfl hdepth (decodes_string version),
      optional_of rfl rfl, required_of rfl rfl hdepth (decodes_string generatedAt),
      required_of rfl rfl hdepth hscripts]
    rfl
  | some schema =>
    apply Decodes.of_fields (fun _ _ => rfl) (by simp [Data.entryOf])
    intro depth hdepth
    rw [orElse_of rfl rfl hdepth (decodes_nullable_string (some schema)),
      required_of rfl rfl hdepth (decodes_string version), optional_of rfl rfl,
      required_of rfl rfl hdepth (decodes_string generatedAt),
      required_of rfl rfl hdepth hscripts]
    rfl

end Catalog

/-! ### Texts -/

/-- What a decoder reads of a tree, it reads of the text of the tree. -/
theorem Json.Decodes.read?_pretty {d : Decoder α} {tree : Data} {x : α} (h : Decodes d tree x)
    (hfloat : tree.FloatFree) {depth : Nat} (hdepth : tree.nesting ≤ depth) :
    (Json.read? (Json.pretty tree)).bind (d depth) = some x := by
  rw [Json.read?_pretty hfloat, Option.bind_some]
  exact h depth hdepth

/-- A text holds a catalog in a format. A text in JSON is read back as the catalog, as long as
containers may be nested as deep as in its form, unless there are floating-point numbers in it. -/
def Format.Holds (c : Catalog) (text : String) : Format → Prop
  | .json => text = Json.pretty c.toData ∧ (c.FloatFree → ∀ depth, c.toData.nesting ≤ depth →
      (Json.read? text).bind (Catalog.decode depth) = some c)
  | .yaml => text = Yaml.render c.toData
  | .markdown => text = Markdown.catalog c

/-- What is written of a catalog holds it. -/
theorem Format.holds_catalog (format : Format) (c : Catalog) :
    format.Holds c (format.catalog c) := by
  cases format with
  | json =>
    refine ⟨rfl, fun hfloat depth hdepth => ?_⟩
    exact (Catalog.decodes_catalog hfloat).read?_pretty (floatFree_catalog hfloat) hdepth
  | yaml | markdown => rfl

/-- **Round trip of the exchange form.** A catalog or a report without floating-point numbers is
read back from its JSON text, whatever its literals, names and entries are, as long as containers
may be nested as deep as in its form. The entries of its manifests keep their order. -/
theorem decode_format :
    (∀ (c : Catalog) (depth : Nat), c.FloatFree → c.toData.nesting ≤ depth →
      (Json.read? (Format.catalog .json c)).bind (Catalog.decode depth) = some c) ∧
    ∀ (r : Report) (depth : Nat), r.FloatFree → r.toData.nesting ≤ depth →
      (Json.read? (Format.report .json r)).bind (Report.decode depth) = some r := by
  constructor
  · intro c depth hfloat hdepth
    exact (Format.json.holds_catalog c).2 hfloat depth hdepth
  · intro r depth hfloat hdepth
    exact (decodes_report hfloat).read?_pretty (floatFree_report hfloat) hdepth

/-- A report with every kind of field. -/
def fullReport : Report where
  path := "tools/café.py"
  identifierSeed := "café"
  manifest := {
    entries := ⟨[("title", .scalar "A \"title\"\n"), ("dependencies", .list ["b", "a"])],
      by decide⟩
    source := some "https://example.org/" }
  commands := [{
    name := "run"
    parameters := [
      { name := "by", type := "dict", kind := .keywordOnly
        default := .literal (.dict [(.str "\x01", .tuple [.int (-3), .set [], .null])]) },
      { name := "at", type := "str", default := .computed }]
    marker := { receiver := "app", attr := "command", explicitName := some "go" } }]
  warnings := ["unclosed list"]

/-- A catalog with the report under an identifier. -/
def fullCatalog : Catalog where
  schemaVersion := none
  version := "1.0.0"
  name := some "tools"
  generatedAt := "2024-01-15T10:30:00Z"
  scripts := [fullReport.toRecord "cafe"]

theorem floatFree_fullReport : fullReport.FloatFree := by
  simp [Report.FloatFree, Command.FloatFree, Default.FloatFree, fullReport, Literal.FloatFree,
    Literal.parts, Literal.partsOfItems, Literal.partsOfPairs]

theorem decode_format_full :
    decodeText? Catalog.decode (Format.catalog .json fullCatalog) = some fullCatalog ∧
      decodeText? Report.decode (Format.report .json fullReport) = some fullReport := by
  have hcatalog : fullCatalog.FloatFree := by
    intro r hr
    rw [List.mem_singleton.mp hr]
    exact floatFree_fullReport
  exact ⟨decode_format.1 fullCatalog depthLimit hcatalog (by decide),
    decode_format.2 fullReport depthLimit floatFree_fullReport (by decide)⟩

end Scriptorium
