/-
When a path stands twice in the catalog of a run.

The scripts of a run are collected by the components of their paths, but they are reported below a
root that is chosen from the inputs. Paths that differ as they are collected may be reported alike:
these are the twins of `Path.Twins`. A path that is reported twice stands twice in the catalog,
unless it is excluded or is that of a version, of which a catalog keeps one.
-/

import Mathlib.Data.List.Pairwise
import Scriptorium.CommandLine.Run
import Scriptorium.Proofs.Catalog.Selection
import Scriptorium.Proofs.Collection.Order
import Scriptorium.Proofs.Path.Component

namespace Scriptorium.CommandLine

open Scriptorium.Path (Twins)

variable {config : Config} {disk : Disk} {root : List Path.Component} {p q : List Char}
  {paths : List (List Char)}

/-! ### The reports of a run -/

/-- The path under which a script is reported. -/
def reportedPath (root : List Path.Component) (path : List Char) : String :=
  String.ofList (Path.relativeOf root (Path.components path))

theorem reports_inspectAll (config : Config) (disk : Disk) (root : List Path.Component)
    (paths : List (List Char)) :
    (inspectAll config disk root paths).1 =
      paths.filterMap fun path => (Report.ofFile config disk root path).toOption := by
  induction paths with
  | nil => rfl
  | cons path paths ih =>
    rw [inspectAll, List.filterMap_cons, ← ih]
    cases Report.ofFile config disk root path with
    | ok report => rfl
    | error fault => rfl

theorem toOption_ofFile_eq_some {r : Report}
    (h : (Report.ofFile config disk root p).toOption = some r) :
    (disk.read p).isOk = true ∧ r.path = reportedPath root p := by
  rw [Report.ofFile] at h
  cases hread : disk.read p with
  | error fault =>
    rw [hread] at h
    cases h
  | ok source =>
    rw [hread] at h
    cases h
    exact ⟨rfl, rfl⟩

theorem exists_toOption_ofFile (config : Config) (root : List Path.Component)
    (h : (disk.read p).isOk = true) :
    ∃ r, (Report.ofFile config disk root p).toOption = some r := by
  rw [Report.ofFile]
  cases hread : disk.read p with
  | error fault =>
    rw [hread] at h
    cases h
  | ok source => exact ⟨_, rfl⟩

/-! ### Paths that are reported alike -/

theorem reportedPath_eq_iff (hne : Path.components p ≠ Path.components q) :
    reportedPath root p = reportedPath root q ↔ Twins root p q ∨ Twins root q p := by
  have hbelow : reportedPath root p = reportedPath root q ↔
      Path.below root p = Path.below root q :=
    String.ofList_inj.trans Path.relativeOf_eq_iff
  rw [hbelow]
  constructor
  · exact Path.twins_of_below_eq hne
  · rintro (htwins | htwins)
    · exact htwins.below_eq
    · exact htwins.below_eq.symm

/-- A path under which a catalog holds at most one record: it is excluded, or that of a version. -/
def KeptOnce (config : Config) (path : String) : Prop :=
  config.isExcluded path = true ∨ (Catalog.versionDirectory? path.toList).isSome = true

instance (config : Config) (path : String) : Decidable (KeptOnce config path) :=
  inferInstanceAs (Decidable (_ ∨ _))

/-- Two paths do not bring one path into a catalog twice: a script cannot be read, they are reported
differently, or what they are reported as is kept once. -/
def Apart (config : Config) (disk : Disk) (root : List Path.Component) (p q : List Char) : Prop :=
  (disk.read p).isOk = true → (disk.read q).isOk = true →
    reportedPath root p = reportedPath root q → KeptOnce config (reportedPath root p)

instance (config : Config) (disk : Disk) (root : List Path.Component) :
    Std.Symm (Apart config disk root) where
  symm _ _ h hp hq heq := heq ▸ h hq hp heq.symm

theorem pairwise_inspectAll (config : Config) (disk : Disk) (root : List Path.Component)
    (paths : List (List Char)) :
    ((inspectAll config disk root paths).1.Pairwise fun r s =>
        r.path = s.path → KeptOnce config r.path) ↔ paths.Pairwise (Apart config disk root) := by
  rw [reports_inspectAll, List.pairwise_filterMap]
  refine List.Pairwise.iff fun p q => ?_
  constructor
  · intro h hp hq heq
    obtain ⟨r, hr⟩ := exists_toOption_ofFile config root hp
    obtain ⟨s, hs⟩ := exists_toOption_ofFile config root hq
    have hkept := h r hr s hs
    rw [(toOption_ofFile_eq_some hr).2, (toOption_ofFile_eq_some hs).2] at hkept
    exact hkept heq
  · intro h r hr s hs heq
    obtain ⟨hp, hrpath⟩ := toOption_ofFile_eq_some hr
    obtain ⟨hq, hspath⟩ := toOption_ofFile_eq_some hs
    rw [hrpath] at heq ⊢
    exact h hp hq (heq.trans hspath)

/-- Among collected paths, those that are reported alike are twins. -/
theorem pairwise_iff_twins (hsorted : Collection.Sorted paths) :
    paths.Pairwise (Apart config disk root) ↔
      ∀ p ∈ paths, ∀ q ∈ paths, p ≠ q → (disk.read p).isOk = true → (disk.read q).isOk = true →
        Twins root p q → KeptOnce config (reportedPath root p) := by
  constructor
  · intro h p hp q hq hne hreadp hreadq htwins
    have heq : reportedPath root p = reportedPath root q :=
      (reportedPath_eq_iff (hsorted.components_ne hp hq hne)).mpr (.inl htwins)
    exact h.forall hp hq hne hreadp hreadq heq
  · intro h
    refine hsorted.nodup.pairwise_of_forall_ne ?_
    intro p hp q hq hne hreadp hreadq heq
    rcases (reportedPath_eq_iff (hsorted.components_ne hp hq hne)).mp heq with htwins | htwins
    · exact h p hp q hq hne hreadp hreadq htwins
    · rw [heq]
      exact h q hq p hp hne.symm hreadq hreadp htwins

/-! ### Catalogs -/

/-- The catalog of the scripts at some paths. -/
def catalogOf (s : Surroundings) (config : Config) (inputs : List String) (root : Option String)
    (paths : List (List Char)) : Catalog :=
  Catalog.build config programVersion s.now
    (inspectAll config s.disk (catalogRoot s.disk root inputs) paths).1

theorem output_runCatalog {s : Surroundings} {inputs : List String} {root : Option String}
    (h : Collection.collect s.disk inputs = .ok paths) (format : Format) :
    (runCatalog s config inputs root none format).output =
      format.catalog (catalogOf s config inputs root paths) := by
  have hfailures (o : Outcome) (failures : List String) :
      (withFailures o failures).output = o.output := by
    cases failures <;> rfl
  rw [runCatalog, h]
  simp only [hfailures]
  rfl

/-- **Paths of a catalog.** What a run prints is the catalog of the scripts that it collects, and
the paths in it are distinct exactly if twins among the scripts that can be read are reported under
a path that is excluded or is that of a version. -/
theorem nodup_paths_iff {s : Surroundings} {inputs : List String}
    (h : Collection.collect s.disk inputs = .ok paths) (config : Config) (root : Option String)
    (format : Format) :
    (runCatalog s config inputs root none format).output =
        format.catalog (catalogOf s config inputs root paths) ∧
      (((catalogOf s config inputs root paths).scripts.map Catalog.Record.path).Nodup ↔
        ∀ p ∈ paths, ∀ q ∈ paths, p ≠ q → (s.disk.read p).isOk = true →
          (s.disk.read q).isOk = true → Twins (catalogRoot s.disk root inputs) p q →
            KeptOnce config (reportedPath (catalogRoot s.disk root inputs) p)) := by
  constructor
  · exact output_runCatalog h format
  · rw [catalogOf, Catalog.map_path_scripts, Catalog.nodup_paths_select_iff,
      ← pairwise_iff_twins (Collection.sorted_collect h)]
    exact pairwise_inspectAll config s.disk _ paths

/-- Scripts that are named beside the directory that holds them stand once in the catalog if they
are excluded or versions. -/
theorem nodup_paths_of_keptOnce :
    let s : Surroundings :=
      { disk := ⟨.directory [("t", .directory [("1.0.py", .file (some ""))]),
          ("x.py", .file (some "")), ("y.py", .file (some ""))], []⟩
        now := "now" }
    let inputs := [".", "t/1.0.py", "x.py"]
    let paths := ["./t/1.0.py", "./x.py", "./y.py", "t/1.0.py", "x.py"].map String.toList
    let scripts := (catalogOf s { exclude := ["x.py"] } inputs none paths).scripts
    Collection.collect s.disk inputs = .ok paths ∧
      (scripts.map Catalog.Record.path).Nodup ∧
      scripts.map Catalog.Record.path = ["t/1.0.py", "y.py"] := by
  intro s inputs paths scripts
  have hcollect : Collection.collect s.disk inputs = .ok paths := by decide +kernel
  refine ⟨hcollect, ?_, ?_⟩
  · refine (nodup_paths_iff hcollect { exclude := ["x.py"] } none .json).2.mpr ?_
    decide +kernel
  · decide +kernel

/-- A script that is named beside the directory that holds it may stand twice in the catalog. -/
theorem catalog_repeats_script :
    let s : Surroundings :=
      { disk := ⟨.directory [("x.py", .file (some ""))], []⟩, now := "now" }
    ∃ paths, Collection.collect s.disk [".", "x.py"] = .ok paths ∧
      (∀ p ∈ paths, (s.disk.read p).isOk = true) ∧
      ¬((catalogOf s {} [".", "x.py"] none paths).scripts.map Catalog.Record.path).Nodup := by
  intro s
  refine ⟨["./x.py".toList, "x.py".toList], ?_, ?_, ?_⟩
  all_goals decide +kernel

end Scriptorium.CommandLine
