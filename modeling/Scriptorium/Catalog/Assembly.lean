/-
Making a catalog out of reports.

Excluded scripts are left out, and of the versions in one directory only the newest is kept, the
first of equals. While the reports are passed, each directory has a leader, and in the end those
are kept that lead. The scripts that are kept get identifiers in order.
-/

import Scriptorium.Catalog.Basic
import Scriptorium.Catalog.Version
import Scriptorium.Config
import Scriptorium.Identifier.Allocator

namespace Scriptorium.Catalog

/-! ### The newest versions -/

/-- The newest version of a directory among the reports passed so far, with its place. -/
structure Leader where
  directory : List Char
  path : List Char
  place : Nat
deriving DecidableEq

/-- The leader of a directory. -/
def leader? (directory : List Char) (leaders : List Leader) : Option Leader :=
  leaders.find? fun leader => leader.directory == directory

/-- Enters a version: it leads its directory if none has done so, or if it is newer. -/
def enter (version : Leader) : List Leader → List Leader
  | [] => [version]
  | leader :: leaders =>
    if leader.directory = version.directory then
      (if older leader.path version.path then version else leader) :: leaders
    else leader :: enter version leaders

/-- The leaders when one more report was passed, which stands at a place. -/
def pass (leaders : List Leader) (report : Report × Nat) : List Leader :=
  match versionDirectory? report.1.path.toList with
  | none => leaders
  | some directory => enter ⟨directory, report.1.path.toList, report.2⟩ leaders

/-- The leaders of all directories. -/
def leadersOf (reports : List Report) : List Leader :=
  reports.zipIdx.foldl pass []

/-- Whether the report at a place leads its directory; one that is no version always stays. -/
def leads (leaders : List Leader) (report : Report × Nat) : Bool :=
  match versionDirectory? report.1.path.toList with
  | none => true
  | some directory => (leader? directory leaders).map Leader.place == some report.2

/-- The reports that are the newest versions in their directories. -/
def newest (reports : List Report) : List Report :=
  (reports.zipIdx.filter (leads (leadersOf reports))).map Prod.fst

/-- The reports that a catalog holds. -/
def select (config : Config) (reports : List Report) : List Report :=
  newest (reports.filter fun r => !config.isExcluded r.path)

/-! ### Catalogs -/

/-- Makes a catalog out of reports. -/
def build (config : Config) (version generatedAt : String) (reports : List Report) : Catalog :=
  let kept := select config reports
  let identifiers := Identifier.Allocator.claimAll {} (kept.map (·.identifierSeed))
  { version
    generatedAt
    name := config.catalog.name
    scripts := List.zipWith Report.toRecord kept identifiers }

end Scriptorium.Catalog
