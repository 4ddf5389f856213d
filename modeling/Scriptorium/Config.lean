/-
Settings of an inspection.
-/

import Scriptorium.Manifest.Basic
import Scriptorium.Path

namespace Scriptorium

/-- Settings for finding commands. -/
structure Config.Extractor where
  /-- The attributes that mark a decorator call. -/
  markers : List String := ["command"]
  /-- The type of a parameter without a usable annotation. -/
  fallbackType : String := "str"
deriving DecidableEq, Repr, Inhabited

/-- Settings for catalogs. -/
structure Config.Naming where
  name : Option String := none
deriving DecidableEq, Repr, Inhabited

/-- Settings of an inspection. -/
structure Config where
  /-- The address under which the scripts are published. -/
  baseUrl : String := ""
  /-- Paths or file names to leave out of catalogs. -/
  exclude : List String := []
  extractor : Config.Extractor := {}
  catalog : Config.Naming := {}
deriving DecidableEq, Repr, Inhabited

namespace Config

/-- What is wrong with settings. -/
inductive Error where
  | noMarkers
  | blankMarker
  | blankFallback
deriving DecidableEq, Repr

/-- The message of an error. -/
def Error.message : Error → String
  | .noMarkers => "extractor.marker_attributes cannot be empty"
  | .blankMarker => "extractor.marker_attributes cannot contain blank names"
  | .blankFallback => "extractor.fallback_type cannot be empty"

/-- Whether a text holds nothing but blanks. -/
def isBlankText (s : String) : Bool :=
  s.toList.all Text.isBlank

/-- Checks that there is something to look for, and a type to fall back on. -/
def validate (c : Config) : Except Error Unit :=
  if c.extractor.markers.isEmpty then .error .noMarkers
  else if c.extractor.markers.any isBlankText then .error .blankMarker
  else if isBlankText c.extractor.fallbackType then .error .blankFallback
  else .ok ()

/-- Whether a script is left out: its path without `./` at the beginning, or its file name, is
listed. -/
def isExcluded (c : Config) (path : String) : Bool :=
  let path := Manifest.dropCurrent path.toList
  let name := (Path.fileName? path).getD path
  c.exclude.any fun entry => entry.toList == path || entry.toList == name

end Config

end Scriptorium
