/-
Reading the exchange form back from JSON.

A map gives the fields of a structure by name, in any order; unknown names are ignored and a
known one may not be repeated. An array gives them in order, and may end before fields that have
a default. Containers may be nested to a limited depth.
-/

import Scriptorium.Exchange.Encode
import Scriptorium.Json.Reader

namespace Scriptorium

namespace Json

/-- How deep containers may be nested. -/
def depthLimit : Nat := 127

/-- Reads a value at which containers may be nested to the given depth. -/
abbrev Decoder (α : Type) := Nat → Value → Option α

/-! ### Simple values -/

/-- A string. -/
def string : Decoder String
  | _, .string s => s
  | _, _ => none

/-- An array of values of one kind. -/
def arrayOf (item : Decoder α) : Decoder (List α)
  | depth + 1, .array items => items.mapM (item depth)
  | _, _ => none

/-- A value, or nothing for null. -/
def nullable (d : Decoder α) : Decoder (Option α)
  | _, .null => some none
  | depth, v => (d depth v).map some

/-! ### Structures -/

/-- The fields of a structure, in the order of their declaration. -/
structure Fields where
  /-- The fields are given in order, not by name. -/
  ordered : Bool
  values : List (Option Value)
  /-- How deep containers in the fields may be nested. -/
  depth : Nat

/-- The values of a key. -/
def valuesOf (name : String) (members : List (Option String × Value)) : List Value :=
  (members.filter (·.1 == some name)).map Prod.snd

/-- The fields of the given names. -/
def fields? (names : List String) : Decoder Fields
  | depth + 1, .object members =>
    let found := names.map (valuesOf · members)
    if members.all (·.1.isSome) && found.all (·.length ≤ 1) then
      some ⟨false, found.map List.head?, depth⟩
    else none
  | depth + 1, .array items =>
    if items.length ≤ names.length then some ⟨true, items.map some, depth⟩ else none
  | _, _ => none

namespace Fields

/-- The value of a field, if it is given. -/
def value? (f : Fields) (i : Nat) : Option Value :=
  f.values[i]?.join

/-- A field that must be given. -/
def required (f : Fields) (i : Nat) (d : Decoder α) : Option α :=
  (f.value? i).bind (d f.depth)

/-- A field with a default. -/
def orElse (f : Fields) (i : Nat) (default : α) (d : Decoder α) : Option α :=
  match f.value? i with
  | some v => d f.depth v
  | none => some default

/-- A field that may be null, or missing if the fields are given by name. -/
def optional (f : Fields) (i : Nat) (d : Decoder α) : Option (Option α) :=
  match f.value? i with
  | some v => nullable d f.depth v
  | none => if f.ordered then none else some none

end Fields

/-! ### Kinds with content -/

/-- A kind with its content, if it has one. -/
structure Tagged where
  tag : Value
  content : Option Value
  /-- The content came before its kind and was set aside. -/
  aside : Bool
  depth : Nat

/-- Whether all parts of a value can be read. -/
def readable : Nat → Value → Bool
  | _, .null | _, .bool _ => true
  | _, .number n => n.isValue
  | _, .string s => s.isSome
  | 0, .array _ | 0, .object _ => false
  | depth + 1, .array items => items.all (readable depth)
  | depth + 1, .object members =>
    members.all fun member => member.1.isSome && readable depth member.2

/-- A kind with its content, under the names of a tag and of a content. -/
def tagged? (tag content : String) : Decoder Tagged
  | depth + 1, .object members =>
    if members.all (·.1.isSome) then
      match members.filter fun member => member.1 == some tag || member.1 == some content with
      | [(first, v)] => if first = some tag then some ⟨v, none, false, depth⟩ else none
      | [(first, v), (second, w)] =>
        if first = second then none
        else if first = some tag then some ⟨v, some w, false, depth⟩
        else if readable depth v then some ⟨w, some v, true, depth⟩
        else none
      | _ => none
    else none
  | depth + 1, .array [v, w] => some ⟨v, some w, false, depth⟩
  | _, _ => none

/-- The place of a tag among the words for the kinds. Where values were set aside, a number
stands for the kind at its place. -/
def kindOf? (words : List String) (aside : Bool) : Value → Option Nat
  | .string (some s) => words.idxOf? s
  | .number n =>
    if aside then
      match n.int? with
      | some (.ofNat k) => if k < words.length then some k else none
      | _ => none
    else none
  | _ => none

/-- The content of a kind that has none: null, if anything. -/
def noContent : Option Value → Option Unit
  | none | some .null => some ()
  | _ => none

/-- An integer of sixty-four bits. -/
def int64 : Value → Option Int64
  | .number n =>
    n.int?.bind fun k =>
      if Int64.minValue.toInt ≤ k ∧ k ≤ Int64.maxValue.toInt then some (Int64.ofInt k) else none
  | _ => none

/-- A floating-point number. -/
def float : Value → Option Binary64
  | .number n => n.float?
  | _ => none

/-- A truth value. -/
def bool : Value → Option Bool
  | .bool b => some b
  | _ => none

end Json

open Json

/-! ### Literals and defaults -/

namespace Literal

/-- The words for the kinds of literals. -/
def kindWords : List String :=
  ["none", "bool", "int", "float", "str", "list", "tuple", "set", "dict"]

/-- A literal; `aside` says that it stands in a value that was set aside. -/
def ofJson (aside : Bool) : (fuel : Nat) → Decoder Literal
  | 0, _, _ => none
  | fuel + 1, depth, v => do
    let t ← tagged? "type" "value" depth v
    let inner := aside || t.aside
    let items (w : Value) : Option (List Literal) :=
      arrayOf (ofJson inner fuel) t.depth w
    let pair : Decoder (Literal × Literal)
      | d + 1, .array [a, b] => do
        return (← ofJson inner fuel d a, ← ofJson inner fuel d b)
      | _, _ => none
    match ← kindOf? kindWords aside t.tag with
    | 0 => (noContent t.content).map fun _ => null
    | 1 => (t.content.bind Json.bool).map .bool
    | 2 => (t.content.bind int64).map .int
    | 3 => (t.content.bind Json.float).map .float
    | 4 => (t.content.bind (string t.depth)).map .str
    | 5 => (t.content.bind items).map .list
    | 6 => (t.content.bind items).map .tuple
    | 7 => (t.content.bind items).map .set
    | 8 => (t.content.bind (arrayOf pair t.depth)).map .dict
    | _ => none

/-- A literal. Each one is a container, so none is nested deeper than containers may be. -/
def decode : Decoder Literal := fun depth v =>
  ofJson false (depth + 1) depth v

end Literal

/-- The words for the kinds of defaults. -/
def Default.kindWords : List String :=
  ["no_default", "not_a_literal", "literal"]

/-- A default. -/
def Default.decode : Decoder Default := fun depth v => do
  let t ← tagged? "kind" "value" depth v
  match ← kindOf? Default.kindWords false t.tag with
  | 0 => (noContent t.content).map fun _ => .absent
  | 1 => (noContent t.content).map fun _ => .computed
  | 2 =>
    let w ← t.content
    (Literal.ofJson t.aside (t.depth + 1) t.depth w).map .literal
  | _ => none

/-! ### Commands -/

/-- The kind that a word stands for. -/
def ParameterKind.ofWord? (word : String) : Option ParameterKind :=
  [.positionalOrKeyword, .positionalOnly, .keywordOnly].find? fun (k : ParameterKind) =>
    k.word == word

/-- A kind of parameter: its word, or a map from its word to null. -/
def ParameterKind.decode : Decoder ParameterKind
  | _, .string (some word) => ParameterKind.ofWord? word
  | _ + 1, .object [(some word, .null)] => ParameterKind.ofWord? word
  | _, _ => none

/-- A parameter. -/
def Parameter.decode : Decoder Parameter := fun depth v => do
  let f ← fields? ["name", "type", "default", "kind"] depth v
  return ⟨← f.required 0 string, ← f.required 1 string, ← f.orElse 2 .absent Default.decode,
    ← f.orElse 3 .positionalOrKeyword ParameterKind.decode⟩

/-- A marker. -/
def Marker.decode : Decoder Marker := fun depth v => do
  let f ← fields? ["receiver", "attribute", "explicit_name"] depth v
  return ⟨← f.required 0 string, ← f.required 1 string, ← f.orElse 2 none (nullable string)⟩

/-- A command. -/
def Command.decode : Decoder Command := fun depth v => do
  let f ← fields? ["name", "parameters", "marker", "docstring"] depth v
  return ⟨← f.required 0 string, ← f.required 1 (arrayOf Parameter.decode),
    ← f.orElse 2 {} Marker.decode, ← f.orElse 3 none (nullable string)⟩

/-! ### Manifests -/

/-- The value of an entry: a string or an array of strings. -/
def Manifest.Value.decode : Decoder Manifest.Value
  | _, .string s => s.map .scalar
  | depth, v => (arrayOf string depth v).map .list

/-- The entries of a manifest; a repeated key keeps its place and takes the last value. -/
def Manifest.decodeEntries : Decoder Manifest.Entries
  | depth + 1, .object members => do
    let pairs ← members.mapM fun (key, value) => do
      return (← key, ← Manifest.Value.decode depth value)
    return .ofList pairs
  | _, _ => none

/-- A manifest. -/
def Manifest.decode : Decoder Manifest := fun depth v => do
  let f ← fields? ["entries", "script_source"] depth v
  return ⟨← f.required 0 Manifest.decodeEntries, ← f.orElse 1 none (nullable string)⟩

/-! ### Reports and catalogs -/

/-- A report. -/
def Report.decode : Decoder Report := fun depth v => do
  let f ← fields? ["path", "identifier_seed", "metadata", "commands", "warnings"] depth v
  return ⟨← f.required 0 string, ← f.required 1 string, ← f.required 2 Manifest.decode,
    ← f.required 3 (arrayOf Command.decode), ← f.orElse 4 [] (arrayOf string)⟩

/-- A record. -/
def Catalog.Record.decode : Decoder Catalog.Record := fun depth v => do
  let f ← fields? ["identifier", "path", "metadata", "commands", "warnings"] depth v
  return ⟨← f.required 0 string, ← f.required 1 string, ← f.required 2 Manifest.decode,
    ← f.required 3 (arrayOf Command.decode), ← f.orElse 4 [] (arrayOf string)⟩

/-- A catalog. -/
def Catalog.decode : Decoder Catalog := fun depth v => do
  let f ← fields? ["schema_version", "version", "name", "generated_at", "scripts"] depth v
  return ⟨← f.orElse 0 none (nullable string), ← f.required 1 string, ← f.optional 2 string,
    ← f.required 3 string, ← f.required 4 (arrayOf Catalog.Record.decode)⟩

/-! ### Settings -/

/-- Settings for finding commands. -/
def Config.Extractor.decode : Decoder Config.Extractor := fun depth v => do
  let f ← fields? ["marker_attributes", "fallback_type"] depth v
  let default : Config.Extractor := {}
  return ⟨← f.orElse 0 default.markers (arrayOf string), ← f.orElse 1 default.fallbackType string⟩

/-- Settings for catalogs. -/
def Config.Naming.decode : Decoder Config.Naming := fun depth v => do
  let f ← fields? ["name"] depth v
  return ⟨← f.orElse 0 none (nullable string)⟩

/-- Settings. -/
def Config.decode : Decoder Config := fun depth v => do
  let f ← fields? ["base_url", "exclude", "extractor", "catalog"] depth v
  return ⟨← f.orElse 0 "" string, ← f.orElse 1 [] (arrayOf string),
    ← f.orElse 2 {} Config.Extractor.decode, ← f.orElse 3 {} Config.Naming.decode⟩

/-- Reads a JSON text with a decoder. -/
def Json.decodeText? (d : Decoder α) (text : String) : Option α :=
  (Json.read? text).bind (d depthLimit)

end Scriptorium
