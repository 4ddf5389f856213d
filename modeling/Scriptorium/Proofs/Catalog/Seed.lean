/-
The name of a script and its directory of versions.

A catalog takes the versions of a directory for one script by the text of their paths; the name of a
script is taken from the components. For a path of names with single slashes both look at the same
directory and the same file (`components_of_names`, `isVersion_scriptStem`), so all versions of a
directory have its name, those that are left out of a catalog and the one that is kept.
-/

import Scriptorium.Proofs.Catalog.Selection
import Scriptorium.Proofs.Catalog.VersionForm
import Scriptorium.Proofs.Path.Component

namespace Scriptorium.Catalog

open Scriptorium.Path (Component components)

variable {path directory file : List Char} {config : Config} {reports : List Report}
  {r s : Report}

/-! ### Paths of names -/

/-- A name between slashes that stands for an entry of a directory. -/
structure IsName (name : List Char) : Prop where
  ne_nil : name ≠ []
  ne_current : name ≠ ['.']
  ne_parent : name ≠ ['.', '.']

instance (name : List Char) : Decidable (IsName name) :=
  decidable_of_iff (name ≠ [] ∧ name ≠ ['.'] ∧ name ≠ ['.', '.'])
    ⟨fun h => ⟨h.1, h.2.1, h.2.2⟩, fun h => ⟨h.ne_nil, h.ne_current, h.ne_parent⟩⟩

/-- Names with single slashes between them, of which the last ends like a script. -/
structure IsScriptPath (path : List Char) : Prop where
  names : ∀ name ∈ Text.splitAt '/' path, IsName name
  script : ".py".toList <:+ path

instance (path : List Char) : Decidable (IsScriptPath path) :=
  decidable_of_iff ((∀ name ∈ Text.splitAt '/' path, IsName name) ∧ ".py".toList <:+ path)
    ⟨fun h => ⟨h.1, h.2⟩, fun h => ⟨h.names, h.script⟩⟩

theorem IsName.ofPiece? {name : List Char} (h : IsName name) :
    Component.ofPiece? name = some (.normal name) := by
  rw [Component.ofPiece?, if_neg (not_or.mpr ⟨h.ne_nil, h.ne_current⟩), if_neg h.ne_parent]

theorem lead?_of_names (h : ∀ name ∈ Text.splitAt '/' path, IsName name) :
    Path.lead? path = none :=
  Path.lead?_eq_none fun name hname => ⟨(h name hname).ne_nil, (h name hname).ne_current⟩

/-- The components of a path of names are the names. -/
theorem components_of_names (h : ∀ name ∈ Text.splitAt '/' path, IsName name) :
    components path = (Text.splitAt '/' path).map .normal := by
  have hbody : Path.body path = (Text.splitAt '/' path).map .normal := by
    rw [Path.body, ← List.filterMap_eq_map]
    exact List.filterMap_congr fun name hname => (h name hname).ofPiece?
  rw [Path.components_eq, lead?_of_names h, hbody]
  rfl

/-- The pieces of a path are those of its directory and the name of its file. -/
theorem splitAt_eq (path : List Char) : Text.splitAt '/' path =
    ((directoryOf path).map (Text.splitAt '/')).getD [] ++ [lastName path] := by
  cases hcut : Text.cutAtLast '/' path with
  | none =>
    simp [directoryOf, lastName, hcut, Text.splitAt_of_not_mem (Text.cutAtLast_eq_none_iff.mp hcut)]
  | some cut =>
    obtain ⟨rfl, hback⟩ := Text.cutAtLast_eq_some_iff.mp hcut
    rw [Text.splitAt_append_sep, Text.splitAt_of_not_mem hback]
    simp [directoryOf, lastName, hcut]

/-- The last name of a path of names, and the names before it. -/
theorem components_eq_concat (h : ∀ name ∈ Text.splitAt '/' path, IsName name) :
    components path = (((directoryOf path).map (Text.splitAt '/')).getD []).map .normal ++
      [.normal (lastName path)] := by
  rw [components_of_names h, splitAt_eq path, List.map_append, List.map_singleton]

/-! ### Stems -/

/-- The ending of a script is the last one of its name, unless there is nothing before it. -/
theorem splitName_script (stem : List Char) :
    (Path.splitName (stem ++ ".py".toList)).1 = if stem = [] then ".py".toList else stem := by
  have hcut : Text.cutAtLast '.' (stem ++ ".py".toList) = some (stem, "py".toList) :=
    Text.cutAtLast_eq_some_iff.mpr ⟨rfl, by decide⟩
  rw [Path.splitName, hcut]
  cases stem <;> rfl

/-- Whether a script is named for a version is the same with either way of taking its stem. -/
theorem isVersion_scriptStem (h : ".py".toList <:+ file) :
    isVersion (scriptStem file) = isVersion (Path.splitName file).1 := by
  obtain ⟨stem, rfl⟩ := h
  have hstem : scriptStem (stem ++ ".py".toList) = stem := by
    rw [scriptStem, Text.dropEnd?_eq_some_iff.mpr rfl, Option.getD_some]
  rw [hstem, splitName_script]
  split
  · rename_i hnil
    subst hnil
    decide
  · rfl

/-- A path ends like a script exactly where its file does. -/
theorem isSuffix_lastName (h : ".py".toList <:+ path) : ".py".toList <:+ lastName path := by
  cases hcut : Text.cutAtLast '/' path with
  | none => rwa [lastName, hcut, Option.map_none, Option.getD_none]
  | some cut =>
    obtain ⟨directory, name⟩ := cut
    obtain ⟨rfl, _⟩ := Text.cutAtLast_eq_some_iff.mp hcut
    rw [lastName, hcut, Option.map_some, Option.getD_some]
    have hname : '/' :: name <:+ directory ++ '/' :: name := List.suffix_append _ _
    rcases List.suffix_or_suffix_of_suffix h hname with hfile | hslash
    · rcases List.suffix_cons_iff.mp hfile with heq | hfile
      · cases heq
      · exact hfile
    · exact absurd (hslash.subset List.mem_cons_self) (by decide)

/-! ### Seeds -/

/-- The name of the directory of a path of names, if there is one. -/
theorem fileNameOf?_parentOf? (h : ∀ name ∈ Text.splitAt '/' path, IsName name) :
    (Path.parentOf? (components path)).bind Path.fileNameOf? = (directoryOf path).map lastName := by
  rw [components_eq_concat h, Path.parentOf?_concat]
  cases directoryOf path with
  | none => rfl
  | some directory =>
    rw [Option.map_some, Option.getD_some, splitAt_eq, List.map_append, List.map_singleton,
      Option.bind_some, Path.fileNameOf?_concat, Option.map_some]

theorem stem?_of_names (h : ∀ name ∈ Text.splitAt '/' path, IsName name) :
    Path.stem? path = some (Path.splitName (lastName path)).1 :=
  Path.stem?_of_concat (components_eq_concat h)

/-- A version has the name of its directory, any other script that of its file. -/
theorem seedOf_eq (h : IsScriptPath path) :
    seedOf path = ((versionDirectory? path).map lastName).getD ((Path.stem? path).getD []) := by
  have hversion := isVersion_scriptStem (isSuffix_lastName h.script)
  have hseed : seedOf path =
      if isVersion (scriptStem (lastName path)) then
        ((directoryOf path).map lastName).getD ((Path.stem? path).getD [])
      else (Path.stem? path).getD [] := by
    rw [seedOf]
    simp only [fileNameOf?_parentOf? h.names, stem?_of_names h.names, Option.getD_some, hversion]
  have hdirectory : versionDirectory? path =
      if isVersion (scriptStem (lastName path)) then directoryOf path else none := by
    cases hcut : Text.cutAtLast '/' path <;> simp [versionDirectory?, directoryOf, lastName, hcut]
  rw [hseed, hdirectory]
  split <;> rfl

/-- A report whose identifier is made from its path. -/
structure IsSeeded (r : Report) : Prop where
  path : IsScriptPath r.path.toList
  seed : r.identifierSeed = identifierSeed r.path

theorem IsSeeded.seed_eq (h : IsSeeded r) (hr : directory? r = some directory) :
    r.identifierSeed = String.ofList (lastName directory) := by
  rw [h.seed, identifierSeed, seedOf_eq h.path, ← directory?, hr, Option.map_some, Option.getD_some]

/-- **Names of versions.** The name of a script is that of its directory if a catalog takes it for a
version in that directory, and the stem of its file if not; so a version that is not excluded has
the name of the version that the catalog keeps in its directory, and there is one. -/
theorem seedOf_agrees {path : String} (h : IsScriptPath path.toList) :
    (∀ directory, versionDirectory? path.toList = some directory →
        seedOf path.toList = lastName directory) ∧
      (versionDirectory? path.toList = none → Path.stem? path.toList = some (seedOf path.toList)) ∧
      ∀ (config : Config) (reports : List Report) (r : Report) (directory : List Char),
        (∀ s ∈ reports, IsSeeded s) → r ∈ reports → r.path = path →
        config.isExcluded path = false → versionDirectory? path.toList = some directory →
          (∃ s ∈ select config reports, directory? s = some directory) ∧
            ∀ s ∈ select config reports, directory? s = some directory →
              s.identifierSeed = r.identifierSeed := by
  refine ⟨?_, ?_, ?_⟩
  · intro directory hdirectory
    rw [seedOf_eq h, hdirectory, Option.map_some, Option.getD_some]
  · intro hnone
    rw [seedOf_eq h, hnone, stem?_of_names h.names]
    rfl
  · rintro config reports r directory hseeded hr rfl hincluded hversion
    refine ⟨exists_mem_select hr hincluded hversion, ?_⟩
    intro s hs hdirectory
    obtain ⟨before, after, heq, _⟩ := mem_select.mp hs
    have hmem : s ∈ reports := by simp [heq]
    rw [(hseeded s hmem).seed_eq hdirectory, (hseeded r hr).seed_eq hversion]

/-- The names of a version that is left out and of the one that is kept in its place. -/
theorem seedOf_agrees_of_superseded :
    let reports : List Report :=
      [⟨"lib/hello.d/0.9.py", "hello.d", {}, [], []⟩,
        ⟨"lib/hello.d/v0.10.py", "hello.d", {}, [], []⟩]
    IsScriptPath "lib/hello.d/0.9.py".toList ∧ (∀ s ∈ reports, IsSeeded s) ∧
      versionDirectory? "lib/hello.d/0.9.py".toList = some "lib/hello.d".toList ∧
      seedOf "lib/hello.d/0.9.py".toList = lastName "lib/hello.d".toList ∧
      ∃ s ∈ select {} reports, s.path ≠ "lib/hello.d/0.9.py" ∧ s.identifierSeed = "hello.d" := by
  intro reports
  have hpath : IsScriptPath "lib/hello.d/0.9.py".toList := by decide +kernel
  have hseeded : ∀ s ∈ reports, IsSeeded s := by
    simp only [reports, List.forall_mem_cons]
    exact ⟨⟨hpath, by decide +kernel⟩, ⟨by decide +kernel, by decide +kernel⟩, by simp⟩
  have hversion : versionDirectory? "lib/hello.d/0.9.py".toList = some "lib/hello.d".toList := by
    decide +kernel
  obtain ⟨hseed, _, hkept⟩ := seedOf_agrees hpath
  obtain ⟨⟨s, hs, hdirectory⟩, hall⟩ :=
    hkept {} reports _ _ hseeded List.mem_cons_self rfl rfl hversion
  refine ⟨hpath, hseeded, hversion, hseed _ hversion, s, hs, ?_, hall s hs hdirectory⟩
  have hpaths : (select {} reports).map Report.path = ["lib/hello.d/v0.10.py"] := by
    decide +kernel
  have hmem := List.mem_map_of_mem (f := Report.path) hs
  rw [hpaths, List.mem_singleton] at hmem
  rw [hmem]
  decide

end Scriptorium.Catalog
