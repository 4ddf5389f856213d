/-
The exchange form of reports, catalogs and settings as data trees.

A kind with its content is a map of a tag and a value; fields that say nothing are left out.
-/

import Scriptorium.Catalog.Basic
import Scriptorium.Config
import Scriptorium.Data.Basic

namespace Scriptorium

/-! ### Literals and defaults -/

namespace Literal

/-- The form of a kind of literal with its content. -/
def tagged (type : String) (value : Data) : Data :=
  .map [("type", .str type), ("value", value)]

mutual

/-- The form of a literal. -/
def toData : Literal → Data
  | null => .map [("type", .str "none")]
  | bool b => tagged "bool" (.bool b)
  | int n => tagged "int" (.int n.toInt)
  | float x => tagged "float" (.float x)
  | str s => tagged "str" (.str s)
  | list items => tagged "list" (.seq (itemsToData items))
  | tuple items => tagged "tuple" (.seq (itemsToData items))
  | set items => tagged "set" (.seq (itemsToData items))
  | dict pairs => tagged "dict" (.seq (pairsToData pairs))

/-- The forms of items. -/
def itemsToData : List Literal → List Data
  | [] => []
  | item :: items => toData item :: itemsToData items

/-- The forms of pairs. -/
def pairsToData : List (Literal × Literal) → List Data
  | [] => []
  | (key, value) :: pairs => .seq [toData key, toData value] :: pairsToData pairs

end

end Literal

/-- The form of a default. -/
def Default.toData : Default → Data
  | .absent => .map [("kind", .str "no_default")]
  | .computed => .map [("kind", .str "not_a_literal")]
  | .literal v => .map [("kind", .str "literal"), ("value", v.toData)]

/-! ### Commands -/

/-- The word for a kind of parameter. -/
def ParameterKind.word : ParameterKind → String
  | .positionalOrKeyword => "positional_or_keyword"
  | .positionalOnly => "positional_only"
  | .keywordOnly => "keyword_only"

/-- The form of a parameter. -/
def Parameter.toData (p : Parameter) : Data :=
  .map [("name", .str p.name), ("type", .str p.type), ("default", p.default.toData),
    ("kind", .str p.kind.word)]

/-- The form of a marker. -/
def Marker.toData (m : Marker) : Data :=
  .map ([("receiver", .str m.receiver), ("attribute", .str m.attr)]
    ++ Data.entryOf "explicit_name" (m.explicitName.map .str))

/-- The form of a command. -/
def Command.toData (c : Command) : Data :=
  .map ([("name", .str c.name), ("parameters", .seq (c.parameters.map Parameter.toData)),
    ("marker", c.marker.toData)] ++ Data.entryOf "docstring" (c.docstring.map .str))

/-- The form of a list of commands. -/
def Command.listToData (commands : List Command) : Data :=
  .seq (commands.map Command.toData)

/-! ### Manifests -/

/-- The form of the value of an entry. -/
def Manifest.Value.toData : Manifest.Value → Data
  | .scalar text => .str text
  | .list items => .strs items

/-- The form of a manifest. -/
def Manifest.toData (m : Manifest) : Data :=
  .map (("entries", .map (m.entries.toList.map fun entry => (entry.1, entry.2.toData)))
    :: Data.entryOf "script_source" (m.source.map .str))

/-! ### Reports and catalogs -/

/-- The entry of warnings, left out if there are none. -/
def warningsEntry (warnings : List String) : List (String × Data) :=
  if warnings.isEmpty then [] else [("warnings", .strs warnings)]

/-- The form of a report. -/
def Report.toData (r : Report) : Data :=
  .map ([("path", .str r.path), ("identifier_seed", .str r.identifierSeed),
    ("metadata", r.manifest.toData), ("commands", Command.listToData r.commands)]
      ++ warningsEntry r.warnings)

/-- The form of a record. -/
def Catalog.Record.toData (r : Catalog.Record) : Data :=
  .map ([("identifier", .str r.identifier), ("path", .str r.path),
    ("metadata", r.manifest.toData), ("commands", Command.listToData r.commands)]
      ++ warningsEntry r.warnings)

/-- The form of a catalog. -/
def Catalog.toData (c : Catalog) : Data :=
  .map (Data.entryOf "schema_version" (c.schemaVersion.map .str)
    ++ [("version", .str c.version), ("name", .ofOption c.name),
      ("generated_at", .str c.generatedAt),
      ("scripts", .seq (c.scripts.map Catalog.Record.toData))])

/-! ### Settings -/

/-- The form of settings. -/
def Config.toData (c : Config) : Data :=
  .map [("base_url", .str c.baseUrl), ("exclude", .strs c.exclude),
    ("extractor", .map [("marker_attributes", .strs c.extractor.markers),
      ("fallback_type", .str c.extractor.fallbackType)]),
    ("catalog", .map [("name", .ofOption c.catalog.name)])]

end Scriptorium
