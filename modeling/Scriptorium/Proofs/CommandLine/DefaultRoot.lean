/-
The directory below which a lone script is reported.

A script that is named for a version belongs to its directory and should be reported with it.
Whether it is so named is not looked up but inferred: the name of the directory is taken instead of
the stem for an identifier. So a directory that is named as the version is taken for no directory of
versions (`relativeOf_defaultRoot_iff`).
-/

import Scriptorium.CommandLine.Run
import Scriptorium.Proofs.CommandLine.CatalogPaths

namespace Scriptorium.CommandLine

open Catalog (isVersion)
open Scriptorium.Path (Component components relativeOf relativeOf_append)

variable {input : List Char} {above root rest : List Component} {name file : List Char}

/-! ### The last components of a path -/

/-- The path of a script below its collection: a file that is named for a version comes with its
directory. -/
def collectionPath (name file : List Char) : List Char :=
  if isVersion (Path.splitName file).1 then name ++ '/' :: file else file

theorem stem?_of_components (h : components input = above ++ [.normal name, .normal file]) :
    Path.stem? input = some (Path.splitName file).1 := by
  rw [List.append_cons] at h
  exact Path.stem?_of_concat h

theorem parentOf?_of_components (h : components input = above ++ [.normal name, .normal file]) :
    Path.parentOf? (components input) = some (above ++ [.normal name]) := by
  rw [h, List.append_cons, Path.parentOf?_concat]

/-- The identifier of a version is made from the name of its directory. -/
theorem seedOf_of_components (h : components input = above ++ [.normal name, .normal file]) :
    Catalog.seedOf input =
      if isVersion (Path.splitName file).1 then name else (Path.splitName file).1 := by
  rw [Catalog.seedOf]
  simp only [stem?_of_components h, parentOf?_of_components h, Option.bind_some,
    Path.fileNameOf?_concat, Option.getD_some]

/-! ### The root -/

/-- The directory is part of the collection if its name is not taken for the identifier. -/
theorem defaultRoot_of_components
    (h : components input = above ++ [.normal name, .normal file]) :
    defaultRoot input =
      if isVersion (Path.splitName file).1 = true ∧ name ≠ (Path.splitName file).1 then above
      else above ++ [.normal name] := by
  rw [defaultRoot]
  simp only [parentOf?_of_components h, stem?_of_components h, seedOf_of_components h,
    Path.parentOf?_concat, Option.getD_some]
  by_cases hversion : isVersion (Path.splitName file).1 = true
  · by_cases hname : name = (Path.splitName file).1
    · simp [hname]
    · simp [hversion, hname]
  · simp [hversion]

/-- A lone script is reported with its directory exactly if it is named for a version and the
directory is not named as that version. -/
theorem relativeOf_defaultRoot (h : components input = above ++ [.normal name, .normal file]) :
    relativeOf (defaultRoot input) (components input) =
      if isVersion (Path.splitName file).1 = true ∧ name ≠ (Path.splitName file).1 then
        name ++ '/' :: file
      else file := by
  rw [defaultRoot_of_components h]
  split
  · rw [h, relativeOf_append]
    simp [Component.text?, List.intercalate]
  · have hcut : components input = (above ++ [.normal name]) ++ [.normal file] := by
      rw [h, List.append_cons]
    rw [hcut, relativeOf_append]
    simp [Component.text?, List.intercalate]

/-- A catalog of one file has the default root. -/
theorem catalogRoot_singleton {disk : Disk} {input : String}
    (h : disk.hasDirectory input.toList = false) :
    catalogRoot disk none [input] = defaultRoot input.toList := by
  have hnone : [input].find? (fun input => disk.hasDirectory input.toList) = none := by
    rw [List.find?_singleton, h]
    rfl
  unfold catalogRoot
  rw [hnone, List.headD_cons]

/-- **The root of a lone script.** A script is reported below its default root, which is that of a
catalog of it alone, with its directory if it is named for a version and without it if it is not,
exactly if the directory does not have the version as its name; otherwise the directory is lost. -/
theorem relativeOf_defaultRoot_iff {input : String}
    (h : components input.toList = above ++ [.normal name, .normal file]) :
    (relativeOf (defaultRoot input.toList) (components input.toList) = collectionPath name file ↔
        ¬(isVersion (Path.splitName file).1 = true ∧ name = (Path.splitName file).1)) ∧
      (isVersion (Path.splitName file).1 = true ∧ name = (Path.splitName file).1 →
        relativeOf (defaultRoot input.toList) (components input.toList) = file) ∧
      ∀ disk : Disk, disk.hasDirectory input.toList = false →
        catalogRoot disk none [input] = defaultRoot input.toList := by
  have hrelative := relativeOf_defaultRoot h
  refine ⟨?_, ?_, fun disk => catalogRoot_singleton⟩
  · have hne : file ≠ name ++ '/' :: file := by
      intro heq
      have := congrArg List.length heq
      simp only [List.length_append, List.length_cons] at this
      omega
    rw [hrelative, collectionPath]
    by_cases hversion : isVersion (Path.splitName file).1 = true
    · by_cases hname : name = (Path.splitName file).1
      · simpa [hversion, hname] using hname ▸ hne
      · simp [hversion, hname]
    · simp [hversion]
  · rintro ⟨_, hname⟩
    rw [hrelative, if_neg fun hversion => hversion.2 hname]

theorem relativeOf_defaultRoot_of_release :
    components "/srv/hello/1.0.0-rc1.py".toList =
        [.root, .normal "srv".toList] ++ [.normal "hello".toList, .normal "1.0.0-rc1.py".toList] ∧
      relativeOf (defaultRoot "/srv/hello/1.0.0-rc1.py".toList)
        (components "/srv/hello/1.0.0-rc1.py".toList) = "hello/1.0.0-rc1.py".toList := by
  have h : components "/srv/hello/1.0.0-rc1.py".toList =
      [.root, .normal "srv".toList] ++ [.normal "hello".toList, .normal "1.0.0-rc1.py".toList] := by
    decide +kernel
  exact ⟨h, (relativeOf_defaultRoot_iff h).1.mpr (by decide +kernel)⟩

/-- A directory that is named as the version in it is lost, also from a catalog of the script. -/
theorem relativeOf_defaultRoot_of_same_name :
    let s : Surroundings :=
      { disk := ⟨.directory [("1.0", .directory [("1.0.py", .file (some ""))])], []⟩, now := "now" }
    relativeOf (defaultRoot "1.0/1.0.py".toList) (components "1.0/1.0.py".toList) ≠
        collectionPath "1.0".toList "1.0.py".toList ∧
      Collection.collect s.disk ["1.0/1.0.py"] = .ok ["1.0/1.0.py".toList] ∧
      (catalogOf s {} ["1.0/1.0.py"] none ["1.0/1.0.py".toList]).scripts.map
        Catalog.Record.path = ["1.0.py"] := by
  intro s
  refine ⟨?_, ?_, ?_⟩
  all_goals decide +kernel

end Scriptorium.CommandLine
