/-
What an input of a collection stands for: a script that is named, or the scripts below a directory.

A walk finds the files with the ending of scripts to which names lead of which none is hidden
(`mem_scriptsAmong`). A file that is named has to end as a script does; the ending alone is a hidden
name without an ending, so a file `.py` is refused (`isScript_iff_of_find`).
-/

import Scriptorium.Collection
import Scriptorium.Proofs.FileTree.Following

namespace Scriptorium.Collection

open Catalog (lastName)
open FileTree (IsEntryName)
open Scriptorium.Path (Component components descend join)

variable {disk : Disk} {input : String} {path p name : List Char} {t : FileTree}
  {entries : List (String × FileTree)} {names : List String} {text? : Option String}
  {cs : List Component}

/-! ### Names of scripts -/

/-- A path that ends as a script does and has a name before the ending. -/
def EndsAsScript (path : List Char) : Prop :=
  ".py".toList <:+ path ∧ lastName path ≠ ".py".toList

instance (path : List Char) : Decidable (EndsAsScript path) :=
  inferInstanceAs (Decidable (_ ∧ _))

theorem isScript_iff_of_fileName (h : Path.fileName? path = some name) :
    isScript path = true ↔ ".py".toList <:+ name ∧ name ≠ ".py".toList := by
  have hending : isScript path = true ↔ (Path.splitName name).2 = some "py".toList := by
    rw [isScript, Path.ending?, h, Option.bind_some, beq_iff_eq]
  rw [hending, Path.splitName]
  constructor
  · intro hname
    split at hname
    · cases hname
    · cases hname
    · rename_i stem ending hempty hcut
      cases hname
      obtain ⟨rfl, _⟩ := Text.cutAtLast_eq_some_iff.mp hcut
      refine ⟨List.suffix_append _ _, fun heq => ?_⟩
      exact hempty (List.append_left_eq_self.mp heq)
  · rintro ⟨⟨stem, rfl⟩, hne⟩
    have hcut : Text.cutAtLast '.' (stem ++ ".py".toList) = some (stem, "py".toList) :=
      Text.cutAtLast_eq_some_iff.mpr ⟨rfl, by decide⟩
    rw [hcut]
    cases stem with
    | nil => exact absurd rfl hne
    | cons c stem => rfl

/-- The way of a path ends with the text behind its last slash. -/
theorem exists_resolve_eq (disk : Disk) (hpath : path ≠ []) :
    ∃ start front, disk.resolve path = disk.follow start (front ++ [lastName path]) := by
  cases path with
  | nil => exact absurd rfl hpath
  | cons c rest =>
    have hpieces := Catalog.splitAt_eq (c :: rest)
    rw [Disk.resolve]
    split
    · rename_i hslash
      subst hslash
      rw [Text.splitAt, if_pos rfl] at hpieces
      cases hfront : ((Catalog.directoryOf ('/' :: rest)).map (Text.splitAt '/')).getD [] with
      | nil =>
        rw [hfront] at hpieces
        exact absurd (List.cons.inj hpieces).2 (Text.splitAt_ne_nil '/' rest)
      | cons first front =>
        rw [hfront] at hpieces
        exact ⟨[], front, congrArg (disk.follow []) (List.cons.inj hpieces).2⟩
    · exact ⟨disk.here, _, congrArg (disk.follow disk.here) hpieces⟩

/-- The last step of a way to a file is a name. -/
theorem ofPiece?_of_follow {start : List String} {step : List Char}
    (h : disk.follow start [step] = .ok names)
    (hget : disk.root.get? names = some (.file text?)) :
    Component.ofPiece? step = some (.normal step) := by
  obtain ⟨entries, hstart⟩ := Disk.follow_cons_eq_ok h
  rw [Disk.follow, hstart] at h
  simp only at h
  split_ifs at h with hidle hparent
  · cases h
    rw [hstart] at hget
    cases hget
  · cases h
    obtain ⟨entries', habove⟩ := Disk.exists_directory_dropLast hstart
    rw [habove] at hget
    cases hget
  · rw [Component.ofPiece?, if_neg hidle, if_neg hparent]

/-- The name of a file that is there is the text behind the last slash. -/
theorem fileName?_of_find (h : disk.find path = .ok (.file text?)) :
    Path.fileName? path = some (lastName path) := by
  obtain ⟨names, hresolve, hget⟩ := Disk.find_eq_ok_iff.mp h
  obtain ⟨start, front, heq⟩ := exists_resolve_eq disk (Disk.ne_nil_of_find h)
  rw [heq, Disk.follow_append] at hresolve
  cases hfront : disk.follow start front with
  | error fault =>
    rw [hfront] at hresolve
    cases hresolve
  | ok before =>
    rw [hfront] at hresolve
    have hpiece := ofPiece?_of_follow hresolve hget
    rw [Path.fileName?_eq, Path.body, Catalog.splitAt_eq path, List.filterMap_append,
      List.filterMap_cons_some hpiece, List.filterMap_nil, List.getLast?_concat]
    rfl

theorem lastName_isSuffix (path : List Char) : lastName path <:+ path := by
  cases hcut : Text.cutAtLast '/' path with
  | none => simp [lastName, hcut]
  | some cut =>
    obtain ⟨hpath, _⟩ := Text.cutAtLast_eq_some_iff.mp hcut
    simp only [lastName, hcut, Option.map_some, Option.getD_some]
    exact ⟨cut.1 ++ ['/'], by rw [List.append_assoc, List.singleton_append, ← hpath]⟩

/-- A file that is there has the ending of scripts exactly if its path ends so, and not with the
ending alone. -/
theorem isScript_iff_of_find (h : disk.find path = .ok (.file text?)) :
    isScript path = true ↔ EndsAsScript path := by
  rw [isScript_iff_of_fileName (fileName?_of_find h), EndsAsScript]
  refine and_congr_left fun _ => ⟨fun hname => ?_, Catalog.isSuffix_lastName⟩
  exact hname.trans (lastName_isSuffix path)

/-! ### Walks -/

theorem scriptsAmong_eq (path : List Char) (entries : List (String × FileTree)) :
    scriptsAmong path entries = entries.flatMap fun e =>
      if isHidden e.1.toList then [] else scriptsAt (join path e.1.toList) e.2 := by
  induction entries with
  | nil => rw [scriptsAmong, List.flatMap_nil]
  | cons e entries ih => rw [scriptsAmong, List.flatMap_cons, ih]

/-- A walk finds the scripts to which names lead that are not hidden. -/
theorem mem_scriptsAt (hwf : t.WellFormed) : p ∈ scriptsAt path t ↔
    ∃ names text?, t.get? names = some (.file text?) ∧
      (∀ name ∈ names, isHidden name.toList = false) ∧ p = descend path names ∧
        isScript p = true := by
  induction hwf generalizing path with
  | file text? =>
    rw [scriptsAt]
    constructor
    · intro h
      split at h
      · rename_i hscript
        rw [List.mem_singleton.mp h]
        exact ⟨[], text?, rfl, by simp, rfl, hscript⟩
      · cases h
    · rintro ⟨names, text?', hget, _, rfl, hscript⟩
      cases names with
      | nil =>
        have hscript : isScript path = true := hscript
        rw [if_pos hscript]
        exact List.mem_singleton_self path
      | cons name names => cases hget
  | @directory entries hnames hnodup hentries ih =>
    -- the first name stands for one entry only, so the walk below it and the names behind it agree
    rw [scriptsAt, scriptsAmong_eq, List.mem_flatMap]
    constructor
    · rintro ⟨e, he, hp⟩
      split at hp
      · cases hp
      · rename_i hhidden
        obtain ⟨names, text?, hget, hnot, hpath, hscript⟩ := (ih e he).mp hp
        refine ⟨e.1 :: names, text?, ?_, ?_, hpath, hscript⟩
        · have hlookup := (FileTree.lookup_eq_some_iff hnodup).mpr he
          rw [FileTree.get?, FileTree.entries, hlookup, Option.bind_some, hget]
        · exact List.forall_mem_cons.mpr ⟨Bool.eq_false_of_not_eq_true hhidden, hnot⟩
    · rintro ⟨names, text?, hget, hnot, hpath, hscript⟩
      cases names with
      | nil => cases hget
      | cons name names =>
        obtain ⟨child, hchild, hget⟩ := Option.bind_eq_some_iff.mp hget
        have he := (FileTree.lookup_eq_some_iff hnodup).mp hchild
        rw [List.forall_mem_cons] at hnot
        refine ⟨(name, child), he, ?_⟩
        rw [if_neg (Bool.eq_false_iff.mp hnot.1)]
        exact (ih _ he).mpr ⟨names, text?, hget, hnot.2, hpath, hscript⟩

/-- The scripts that are found below a directory have names that are not hidden. -/
theorem isScript_descend_concat {front : List String} {last : String}
    (hnames : ∀ name ∈ front ++ [last], IsEntryName name)
    (hhidden : ∀ name ∈ front ++ [last], isHidden name.toList = false) :
    isScript (descend path (front ++ [last])) = true ↔ ".py".toList <:+ last.toList := by
  have hfile : Path.fileName? (descend path (front ++ [last])) = some last.toList := by
    rw [Path.fileName?, Path.components_descend hnames, List.map_append, ← List.append_assoc]
    exact Path.fileNameOf?_concat _ _
  rw [isScript_iff_of_fileName hfile, and_iff_left_iff_imp]
  -- the ending alone would be a hidden name
  rintro - hlast
  have hlasthidden := hhidden last (by simp)
  rw [hlast] at hlasthidden
  cases hlasthidden

/-- A walk from a directory finds the files whose names end as scripts do. -/
theorem mem_scriptsAmong (hwf : (FileTree.directory entries).WellFormed) :
    p ∈ scriptsAmong path entries ↔ ∃ front last text?,
      (FileTree.directory entries).get? (front ++ [last]) = some (.file text?) ∧
        (∀ name ∈ front ++ [last], isHidden name.toList = false) ∧
          ".py".toList <:+ last.toList ∧ p = descend path (front ++ [last]) := by
  have hmem : p ∈ scriptsAt path (.directory entries) ↔ _ := mem_scriptsAt hwf
  rw [scriptsAt] at hmem
  rw [hmem]
  constructor
  · rintro ⟨names, text?, hget, hhidden, rfl, hscript⟩
    rcases List.eq_nil_or_concat names with rfl | ⟨front, last, rfl⟩
    · cases hget
    · rw [List.concat_eq_append] at hget hhidden hscript ⊢
      have hlast := (isScript_descend_concat (hwf.get? hget).2 hhidden).mp hscript
      exact ⟨front, last, text?, hget, hhidden, hlast, rfl⟩
  · rintro ⟨front, last, text?, hget, hhidden, hlast, rfl⟩
    exact ⟨_, text?, hget, hhidden, rfl,
      (isScript_descend_concat (hwf.get? hget).2 hhidden).mpr hlast⟩

/-! ### Inputs -/

/-- An input that stands for scripts: a directory, or a file that ends as a script does. -/
def Accepted (disk : Disk) (input : String) : Prop :=
  match disk.find input.toList with
  | .ok (.directory _) => True
  | .ok (.file _) => EndsAsScript input.toList
  | .error _ => False

instance (disk : Disk) (input : String) : Decidable (Accepted disk input) :=
  match h : disk.find input.toList with
  | .ok (.directory _) => isTrue (by rw [Accepted, h]; trivial)
  | .ok (.file _) => decidable_of_iff (EndsAsScript input.toList) (by rw [Accepted, h])
  | .error _ => isFalse (by rw [Accepted, h]; exact id)

/-- What an input stands for, by components: the file that it names, or a script to which names lead
from the directory that it names, of which none is hidden. -/
inductive StandsFor (disk : Disk) (input : String) : List Component → Prop
  | named {text? : Option String} : disk.find input.toList = .ok (.file text?) →
      StandsFor disk input (components input.toList)
  | found {entries : List (String × FileTree)} {front : List String} {last : String}
      {text? : Option String} : disk.find input.toList = .ok (.directory entries) →
      (FileTree.directory entries).get? (front ++ [last]) = some (.file text?) →
      (∀ name ∈ front ++ [last], isHidden name.toList = false) → ".py".toList <:+ last.toList →
      StandsFor disk input
        (components input.toList ++ (front ++ [last]).map fun name => .normal name.toList)

/-- The scripts of a directory that an input names are, by their components, what it stands for. -/
theorem mem_components_scriptsAmong (hwf : disk.root.WellFormed)
    (hfind : disk.find input.toList = .ok (.directory entries)) :
    cs ∈ (scriptsAmong input.toList entries).map components ↔ StandsFor disk input cs := by
  have hdirectory := Disk.wellFormed_of_find hwf hfind
  rw [List.mem_map]
  constructor
  · rintro ⟨p, hp, rfl⟩
    obtain ⟨front, last, text?, hget, hhidden, hlast, rfl⟩ := (mem_scriptsAmong hdirectory).mp hp
    rw [Path.components_descend (hdirectory.get? hget).2]
    exact .found hfind hget hhidden hlast
  · intro h
    cases h with
    | named hfile => cases hfile.symm.trans hfind
    | found hfound hget hhidden hlast =>
      cases hfound.symm.trans hfind
      exact ⟨_, (mem_scriptsAmong hdirectory).mpr ⟨_, _, _, hget, hhidden, hlast, rfl⟩,
        Path.components_descend (hdirectory.get? hget).2 _⟩

theorem exists_find_of_mem_scriptsAmong (hwf : disk.root.WellFormed)
    (hfind : disk.find input.toList = .ok (.directory entries))
    (hp : p ∈ scriptsAmong input.toList entries) : ∃ text?, disk.find p = .ok (.file text?) := by
  have hdirectory := Disk.wellFormed_of_find hwf hfind
  obtain ⟨front, last, text?, hget, _, _, rfl⟩ := (mem_scriptsAmong hdirectory).mp hp
  exact ⟨text?, Disk.find_descend (hdirectory.get? hget).2 hfind hget⟩

/-- **Inputs.** An input that is accepted stands for the paths of files, and these are, by their
components, what it stands for. -/
theorem exists_scriptsOf (hwf : disk.root.WellFormed) (h : Accepted disk input) :
    ∃ found, scriptsOf disk input = .ok found ∧
      (∀ cs, cs ∈ found.map components ↔ StandsFor disk input cs) ∧
        ∀ p ∈ found, ∃ text?, disk.find p = .ok (.file text?) := by
  rw [Accepted] at h
  rw [scriptsOf]
  split at h
  · rename_i entries hfind
    rw [hfind]
    exact ⟨_, rfl, fun cs => mem_components_scriptsAmong hwf hfind,
      fun p => exists_find_of_mem_scriptsAmong hwf hfind⟩
  · rename_i text? hfind
    simp only [hfind, if_pos ((isScript_iff_of_find hfind).mpr h)]
    refine ⟨_, rfl, fun cs => ?_, ?_⟩
    · rw [List.map_singleton, List.mem_singleton]
      constructor
      · rintro rfl
        exact .named hfind
      · intro hcs
        cases hcs with
        | named _ => rfl
        | found hfound => cases hfound.symm.trans hfind
    · intro p hp
      rw [List.mem_singleton.mp hp]
      exact ⟨text?, hfind⟩
  · exact h.elim

/-- Why an input is not accepted. -/
def refusal (disk : Disk) (input : String) : Error :=
  match disk.find input.toList with
  | .ok _ => .notScript input
  | .error _ => .missing input

theorem scriptsOf_of_not_accepted (h : ¬Accepted disk input) :
    scriptsOf disk input = .error (refusal disk input) := by
  rw [Accepted] at h
  rw [scriptsOf, refusal]
  split at h
  · exact absurd trivial h
  · rename_i text? hfind
    simp only [hfind, if_neg (mt (isScript_iff_of_find hfind).mp h)]
  · rename_i fault hfind
    rw [hfind]

end Scriptorium.Collection
