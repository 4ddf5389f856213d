/-
What a catalog run does about scripts that cannot be read.

A run separates the scripts that hold a text from the others (`inspectAll_eq`). The catalog is that
of the former alone (`runCatalog_writes`), and it is what the text that is written holds; on the
latter only the status and the complaints depend.
-/

import Scriptorium.Proofs.Collection.Collected
import Scriptorium.Proofs.CommandLine.CatalogPaths
import Scriptorium.Proofs.Exchange.RoundTrip
import Scriptorium.Proofs.FileTree.Writing

namespace Scriptorium.CommandLine

open Collection (Sorted)

variable {config : Config} {disk : Disk} {s : Surroundings} {paths : List (List Char)}
  {inputs : List String} {root output name baseUrl : Option String}

/-! ### Scripts with a text and without -/

/-- The scripts that hold a text, each with it. -/
def textsAt (disk : Disk) (paths : List (List Char)) : List (List Char × String) :=
  paths.filterMap fun path =>
    match disk.find path with
    | .ok (.file (some source)) => some (path, source)
    | _ => none

/-- The scripts that hold no text. -/
def unreadableAt (disk : Disk) (paths : List (List Char)) : List (List Char) :=
  paths.filter fun path =>
    match disk.find path with
    | .ok (.file none) => true
    | _ => false

/-- The report of a script with its text. -/
def reportOf (config : Config) (root : List Path.Component) (script : List Char × String) :
    Report :=
  Report.ofSource config (reportedPath root script.1) script.2

/-- The line for a script that holds no text. -/
def failureLine (path : List Char) : String :=
  String.ofList path ++ ": I/O error: " ++ Fault.notText.message

section

variable {path : List Char} {source : String}

theorem textsAt_cons_none (h : disk.find path = .ok (.file none)) :
    textsAt disk (path :: paths) = textsAt disk paths := by
  simp only [textsAt, List.filterMap_cons, h]

theorem textsAt_cons_some (h : disk.find path = .ok (.file (some source))) :
    textsAt disk (path :: paths) = (path, source) :: textsAt disk paths := by
  simp only [textsAt, List.filterMap_cons, h]

theorem unreadableAt_cons_none (h : disk.find path = .ok (.file none)) :
    unreadableAt disk (path :: paths) = path :: unreadableAt disk paths := by
  simp only [unreadableAt, List.filter_cons, h, if_true]

theorem unreadableAt_cons_some (h : disk.find path = .ok (.file (some source))) :
    unreadableAt disk (path :: paths) = unreadableAt disk paths := by
  simp only [unreadableAt, List.filter_cons, h, Bool.false_eq_true, if_false]

end

theorem inspectAll_eq (config : Config) (root : List Path.Component)
    (hfiles : ∀ p ∈ paths, ∃ text?, disk.find p = .ok (.file text?)) :
    inspectAll config disk root paths =
      ((textsAt disk paths).map (reportOf config root),
        (unreadableAt disk paths).map failureLine) := by
  induction paths with
  | nil => rfl
  | cons path paths ih =>
    rw [List.forall_mem_cons] at hfiles
    obtain ⟨⟨text?, hfind⟩, hfiles⟩ := hfiles
    rw [inspectAll, ih hfiles, Report.ofFile, Disk.read, hfind]
    cases text? with
    | none =>
      rw [textsAt_cons_none hfind, unreadableAt_cons_none hfind]
      rfl
    | some source =>
      rw [textsAt_cons_some hfind, unreadableAt_cons_some hfind]
      rfl

/-- Each of the files holds a text or holds none. -/
theorem perm_textsAt_unreadableAt
    (hfiles : ∀ p ∈ paths, ∃ text?, disk.find p = .ok (.file text?)) :
    paths.Perm ((textsAt disk paths).map Prod.fst ++ unreadableAt disk paths) := by
  induction paths with
  | nil => exact .nil
  | cons path paths ih =>
    rw [List.forall_mem_cons] at hfiles
    obtain ⟨⟨text?, hfind⟩, hfiles⟩ := hfiles
    cases text? with
    | none =>
      rw [textsAt_cons_none hfind, unreadableAt_cons_none hfind]
      exact ((ih hfiles).cons path).trans List.perm_middle.symm
    | some source =>
      rw [textsAt_cons_some hfind, unreadableAt_cons_some hfind]
      exact (ih hfiles).cons path

theorem sublist_textsAt (disk : Disk) (paths : List (List Char)) :
    ((textsAt disk paths).map Prod.fst).Sublist paths := by
  induction paths with
  | nil => exact .slnil
  | cons path paths ih =>
    rw [textsAt, List.filterMap_cons]
    split
    · exact ih.cons path
    · rename_i script hscript
      have hpath : script.1 = path := by
        split at hscript
        · cases hscript
          rfl
        · cases hscript
      rw [List.map_cons, hpath]
      exact ih.cons_cons path

/-! ### Failures -/

/-- What is written to the standard error output about scripts that hold no text. -/
def failureText : List (List Char) → String
  | [] => ""
  | unreadable =>
    "\nFailures:\n" ++ String.join (unreadable.map fun path => "  " ++ failureLine path ++ "\n")
      ++ "error: " ++ toString unreadable.length ++ " script(s) could not be inspected\n"

theorem withFailures_eq (o : Outcome) (hstatus : o.status = 0) (hcomplaints : o.complaints = "")
    (unreadable : List (List Char)) : withFailures o (unreadable.map failureLine) =
      { o with
        status := if unreadable = [] then 0 else 1
        complaints := failureText unreadable } := by
  cases unreadable with
  | nil =>
    cases o
    cases hstatus
    cases hcomplaints
    rfl
  | cons path unreadable =>
    rw [List.map_cons, withFailures, failureText, if_neg (List.cons_ne_nil _ _)]
    · simp only [List.map_cons, List.map_map, List.length_cons, List.length_map, Function.comp_def]
    · exact List.cons_ne_nil _ _
    · exact List.cons_ne_nil _ _

/-! ### Outputs -/

/-- A file can be made at a path, with the directories above it. -/
def Writable (disk : Disk) (path : String) : Prop :=
  (save disk path "").isOk = true

instance (disk : Disk) (path : String) : Decidable (Writable disk path) :=
  inferInstanceAs (Decidable (_ = true))

/-- Where a file can be made, any text can be written and is read back. -/
theorem exists_save {path : String} (h : Writable disk path) (text : String) :
    ∃ disk', save disk path text = .ok disk' ∧ disk'.read path.toList = .ok text := by
  rw [Writable] at h
  unfold save at h ⊢
  simp only at h ⊢
  split at h
  · cases h
  · rename_i made _
    cases hwrite : made.write path.toList "" with
    | error fault =>
      rw [hwrite] at h
      cases h
    | ok disk' =>
      obtain ⟨disk', hwritten⟩ := Disk.exists_write hwrite text
      rw [hwritten]
      exact ⟨disk', rfl, Disk.read_of_write hwritten⟩

/-! ### Runs -/

/-- The settings of a catalog run, with what is asked for on the command line. -/
def settingsOf (config : Config) (name baseUrl : Option String) : Config :=
  let config := withBaseUrl config baseUrl
  { config with catalog := { config.catalog with name := name.or config.catalog.name } }

/-- The catalog of the scripts at some paths that hold a text. -/
def readableCatalog (s : Surroundings) (config : Config) (inputs : List String)
    (root : Option String) (paths : List (List Char)) : Catalog :=
  Catalog.build config programVersion s.now
    ((textsAt s.disk paths).map (reportOf config (catalogRoot s.disk root inputs)))

/-- A text has been written: to the standard output, or to the file at a path. -/
def Outcome.Writes (o : Outcome) (text : String) : Option String → Prop
  | none => o.output = text ∧ o.written = none
  | some path => o.disk.read path.toList = .ok text ∧ o.written = some (path, text)

/-- The catalog of the scripts that hold a text is written before the others are listed. -/
theorem runCatalog_writes (hcollect : Collection.collect s.disk inputs = .ok paths)
    (hfiles : ∀ p ∈ paths, ∃ text?, s.disk.find p = .ok (.file text?))
    (hwritable : ∀ path ∈ output, Writable s.disk path) (config : Config) (root : Option String)
    (format : Format) :
    let o := runCatalog s config inputs root output format
    o.Writes (format.catalog (readableCatalog s config inputs root paths)) output ∧
      o.complaints = failureText (unreadableAt s.disk paths) ∧
      o.status = if unreadableAt s.disk paths = [] then 0 else 1 := by
  intro o
  have hinspect := inspectAll_eq config (catalogRoot s.disk root inputs) hfiles
  cases output with
  | none =>
    have ho : o = withFailures
        { output := format.catalog (readableCatalog s config inputs root paths), disk := s.disk }
        ((unreadableAt s.disk paths).map failureLine) := by
      simp only [o, runCatalog, hcollect, hinspect, readableCatalog]
    rw [ho, withFailures_eq _ rfl rfl]
    exact ⟨⟨rfl, rfl⟩, rfl, rfl⟩
  | some path =>
    obtain ⟨disk', hsave, hread⟩ := exists_save (hwritable path rfl)
      (format.catalog (readableCatalog s config inputs root paths))
    rw [readableCatalog] at hsave
    obtain ⟨line, ho⟩ : ∃ line, o = withFailures
        { output := line, disk := disk'
          written := some (path, format.catalog (readableCatalog s config inputs root paths)) }
        ((unreadableAt s.disk paths).map failureLine) := by
      simp only [o, runCatalog, hcollect, hinspect, hsave, readableCatalog]
      exact ⟨_, rfl⟩
    rw [ho, withFailures_eq _ rfl rfl]
    exact ⟨⟨hread, rfl⟩, rfl, rfl⟩

/-- **Scripts that cannot be read.** A catalog run over inputs that are accepted writes a text that
holds the catalog of the scripts that hold a text, in the order of their paths, and lists each of
the others once, in the same order; the status tells whether there are some. -/
theorem answer_catalog (hwf : s.disk.root.WellFormed)
    (hcollect : Collection.collect s.disk inputs = .ok paths)
    (hwritable : ∀ path ∈ output, Writable s.disk path) (config : Config)
    (root name baseUrl : Option String) (jobs : Option Nat) (format : Format) :
    let o := answer s config (.catalog inputs root output name baseUrl jobs format)
    let unreadable := unreadableAt s.disk paths
    let catalog := readableCatalog s (settingsOf config name baseUrl) inputs root paths
    o.Writes (format.catalog catalog) output ∧ format.Holds catalog (format.catalog catalog) ∧
      paths.Perm ((textsAt s.disk paths).map Prod.fst ++ unreadable) ∧
      Sorted ((textsAt s.disk paths).map Prod.fst) ∧ Sorted unreadable ∧
      o.complaints = failureText unreadable ∧ o.status = if unreadable = [] then 0 else 1 := by
  intro o unreadable catalog
  have hfiles : ∀ p ∈ paths, ∃ text?, s.disk.find p = .ok (.file text?) :=
    fun p => Collection.exists_file_of_collect hwf hcollect
  have hsorted : Sorted paths := Collection.sorted_collect hcollect
  obtain ⟨hwrites, hcomplaints, hstatus⟩ :=
    runCatalog_writes hcollect hfiles hwritable (settingsOf config name baseUrl) root format
  exact ⟨hwrites, format.holds_catalog catalog, perm_textsAt_unreadableAt hfiles,
    hsorted.sublist (sublist_textsAt s.disk paths), hsorted.filter _, hcomplaints, hstatus⟩

/-- The older version of a script stands in the catalog if the newer one cannot be read. -/
theorem answer_catalog_of_unreadable_version :
    let versions := FileTree.directory [("1.0.py", .file (some "")), ("2.0.py", .file none)]
    let scripts := FileTree.directory [("t", versions), ("b.py", .file none),
      ("a.py", .file (some ""))]
    let s : Surroundings := { disk := ⟨.directory [("lib", scripts)], []⟩, now := "now" }
    let paths := ["lib/a.py", "lib/b.py", "lib/t/1.0.py", "lib/t/2.0.py"].map String.toList
    let o := answer s {} (.catalog ["lib"] none (some "out/all.json") none none none .json)
    let catalog := readableCatalog s {} ["lib"] none paths
    s.disk.root.WellFormed ∧ Collection.collect s.disk ["lib"] = .ok paths ∧
      Writable s.disk "out/all.json" ∧
      (∃ text, o.disk.read "out/all.json".toList = .ok text ∧
        Json.decodeText? Catalog.decode text = some catalog) ∧
      catalog.scripts.map Catalog.Record.path = ["a.py", "t/1.0.py"] ∧
      unreadableAt s.disk paths = ["lib/b.py", "lib/t/2.0.py"].map String.toList ∧
      o.complaints = failureText (unreadableAt s.disk paths) ∧ o.status = 1 := by
  intro versions scripts s paths o catalog
  have hwf : s.disk.root.WellFormed := by decide +kernel
  have hcollect : Collection.collect s.disk ["lib"] = .ok paths := by decide +kernel
  have hwritable : Writable s.disk "out/all.json" := by decide +kernel
  have hunreadable :
      unreadableAt s.disk paths = ["lib/b.py", "lib/t/2.0.py"].map String.toList := by
    decide +kernel
  have houtput : ∀ path ∈ some "out/all.json", Writable s.disk path := by
    simpa using hwritable
  obtain ⟨hwrites, hholds, _, _, _, hcomplaints, hstatus⟩ :=
    answer_catalog hwf hcollect houtput {} none none none none .json
  have hsome : unreadableAt s.disk paths ≠ [] := ne_of_eq_of_ne hunreadable (List.cons_ne_nil _ _)
  have hfloat : catalog.FloatFree := by
    have hcommands : (catalog.scripts.all fun r => r.commands.isEmpty) = true := by
      decide +kernel
    intro r hr c hc
    rw [List.isEmpty_iff.mp (List.all_eq_true.mp hcommands r hr)] at hc
    cases hc
  have hread := hholds.2 hfloat Json.depthLimit (by decide +kernel)
  exact ⟨hwf, hcollect, hwritable, ⟨_, hwrites.1, hread⟩, by decide +kernel, hunreadable,
    hcomplaints, hstatus.trans (if_neg hsome)⟩

end Scriptorium.CommandLine
