/-
Reading settings from YAML.

Scalars of any look are taken as text. An empty scalar stands for an empty list or section, and a
section may have fields that are not known; a known field may not come twice.
-/

import Scriptorium.Config
import Scriptorium.FileTree
import Scriptorium.Yaml.Node

namespace Scriptorium.Config

open Yaml (Node)

/-! ### Parts -/

/-- A text. -/
def textOf : Node → Except Yaml.Error String
  | .scalar text _ => .ok (String.ofList text)
  | .sequence _ | .mapping _ => .error (.wrongKind "a string")

/-- The words that stand for no value when they are plain. -/
def isNullWord (text : List Char) : Bool :=
  ["null", "Null", "NULL", "~"].any (·.toList == text)

/-- A text that may be missing. With the tag of no value nothing else may be written. -/
def optionalTextOf : Node → Except Yaml.Error (Option String)
  | .scalar text .plain =>
    .ok (if text.isEmpty ∨ isNullWord text then none else some (String.ofList text))
  | .scalar text .plainNull => if isNullWord text then .ok none else .error (.wrongKind "null")
  | .scalar text .other => .ok (some (String.ofList text))
  | .sequence _ | .mapping _ => .error (.wrongKind "a string")

/-- A list of texts. -/
def textsOf : Node → Except Yaml.Error (List String)
  | .sequence items => items.mapM textOf
  | .scalar [] _ => .ok []
  | .scalar _ _ | .mapping _ => .error (.wrongKind "a sequence")

/-- The fields of a section with their names. -/
def fieldsOf : Node → Except Yaml.Error (List (String × Node))
  | .mapping pairs => pairs.mapM fun (key, value) => (textOf key).map (·, value)
  | .scalar [] _ => .ok []
  | .scalar _ _ | .sequence _ => .error (.wrongKind "a map")

/-- The value of a field, or a default where it is missing. -/
def field (fields : List (String × Node)) (name : String) (read : Node → Except Yaml.Error α)
    (default : α) : Except Yaml.Error α :=
  match fields.filter (·.1 == name) with
  | [] => .ok default
  | [(_, node)] => read node
  | _ :: _ :: _ => .error (.duplicateField name)

/-! ### Settings -/

/-- The settings for finding commands. -/
def extractorOf (node : Node) : Except Yaml.Error Extractor := do
  let fields ← fieldsOf node
  let default : Extractor := {}
  return ⟨← field fields "marker_attributes" textsOf default.markers,
    ← field fields "fallback_type" textOf default.fallbackType⟩

/-- The settings for catalogs. -/
def namingOf (node : Node) : Except Yaml.Error Naming := do
  let fields ← fieldsOf node
  return ⟨← field fields "name" optionalTextOf none⟩

/-- The settings of a document. -/
def ofNode (node : Node) : Except Yaml.Error Config := do
  let fields ← fieldsOf node
  return ⟨← field fields "base_url" textOf "", ← field fields "exclude" textsOf [],
    ← field fields "extractor" extractorOf {}, ← field fields "catalog" namingOf {}⟩

/-- The settings that a text writes; an empty text writes the defaults. -/
def ofText (text : String) : Except Yaml.Error Config := do
  match ← Node.ofText? text.toList with
  | some node => ofNode node
  | none => return {}

/-! ### Files -/

/-- Why settings cannot be loaded. -/
inductive LoadError where
  | fault (f : Fault)
  | yaml (e : Yaml.Error)
  | invalid (e : Config.Error)
deriving DecidableEq, Repr

/-- The message of an error. -/
def LoadError.message : LoadError → String
  | .fault f => "I/O error: " ++ f.message
  | .yaml e => "YAML error: " ++ e.message
  | .invalid e => "invalid configuration: " ++ e.message

/-- The settings in the file at a path. What is there but is no text fails as YAML. -/
def load (disk : Disk) (path : List Char) : Except LoadError Config :=
  match disk.read path with
  | .error f =>
    if f = .isDirectory ∨ f = .notText then .error (.yaml (.unreadable f.message))
    else .error (.fault f)
  | .ok text =>
    match ofText text with
    | .error e => .error (.yaml e)
    | .ok config => (config.validate.map fun _ => config).mapError .invalid

end Scriptorium.Config
