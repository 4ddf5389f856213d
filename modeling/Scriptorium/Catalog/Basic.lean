/-
Catalogs: the records of many scripts, with the version of the form they are written in.
-/

import Scriptorium.Report

namespace Scriptorium

/-- What a catalog holds of one script. -/
structure Catalog.Record where
  identifier : String
  path : String
  manifest : Manifest
  commands : List Command
  warnings : List String := []
deriving Inhabited

/-- The records of many scripts. -/
structure Catalog where
  /-- The version of the form of catalogs. -/
  schemaVersion : Option String := some "1.0.0"
  version : String
  name : Option String := none
  generatedAt : String
  scripts : List Catalog.Record := []
deriving Inhabited

/-- A report under an identifier. -/
def Report.toRecord (r : Report) (identifier : String) : Catalog.Record :=
  ⟨identifier, r.path, r.manifest, r.commands, r.warnings⟩

/-- The first record of an identifier. -/
def Catalog.find? (c : Catalog) (identifier : String) : Option Catalog.Record :=
  List.find? (·.identifier == identifier) c.scripts

end Scriptorium
