/-
Inspecting one script: its manifest and its commands, which are read independently.
-/

import Scriptorium.Catalog.Version
import Scriptorium.Command.Extraction
import Scriptorium.FileTree
import Scriptorium.Manifest.Reader
import Scriptorium.Report

namespace Scriptorium

/-- The manifest of a script, with its source made from the base address if there is one and the
manifest names no other. -/
def Config.located (config : Config) (path : String) (m : Manifest) : Manifest :=
  if config.baseUrl = "" then m else m.resolve config.baseUrl path

/-- Inspects the text of a script. -/
def Report.ofSource (config : Config) (path source : String) : Report :=
  let reading := Manifest.read source
  { path
    identifierSeed := Catalog.identifierSeed path
    manifest := config.located path reading.manifest
    commands := Command.extract config.extractor source
    warnings := reading.warnings.map (·.message) }

/-- Inspects the script at a path, which is reported below a root. -/
def Report.ofFile (config : Config) (disk : Disk) (root : List Path.Component)
    (path : List Char) : Except Fault Report :=
  (disk.read path).map fun source =>
    Report.ofSource config (String.ofList (Path.relativeOf root (Path.components path))) source

end Scriptorium
