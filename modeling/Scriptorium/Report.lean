/-
Reports: what is found in one script, before it has an identifier.
-/

import Scriptorium.Command.Basic
import Scriptorium.Manifest.Basic

namespace Scriptorium

/-- What is found in one script. -/
structure Report where
  /-- The path of the script below the root of its collection. -/
  path : String
  /-- The name from which the identifier is made. -/
  identifierSeed : String
  manifest : Manifest
  commands : List Command
  warnings : List String := []
deriving Inhabited

end Scriptorium
