/-
Trees of files as there can be some, and where the path of an entry leads.

In a well-formed tree the entries of a directory have distinct names, and each name is one piece of
a path. The path of an entry has one more component than that of its directory
(`components_join_entry`) and leads to what the directory holds under the name (`find_join`).
-/

import Mathlib.Data.List.Basic
import Mathlib.Data.List.Nodup
import Scriptorium.FileTree
import Scriptorium.Proofs.Catalog.Seed

namespace Scriptorium

open Scriptorium.Path (Component components join)

/-! ### Trees -/

namespace FileTree

variable {t child : FileTree} {name : String} {names : List String}
  {entries : List (String × FileTree)}

/-- A name that an entry of a directory can have. -/
structure IsEntryName (name : String) : Prop where
  isName : Catalog.IsName name.toList
  no_slash : '/' ∉ name.toList

instance (name : String) : Decidable (IsEntryName name) :=
  decidable_of_iff (Catalog.IsName name.toList ∧ '/' ∉ name.toList)
    ⟨fun h => ⟨h.1, h.2⟩, fun h => ⟨h.isName, h.no_slash⟩⟩

/-- A tree whose directories have no two entries of one name. -/
inductive WellFormed : FileTree → Prop
  | file (text? : Option String) : WellFormed (.file text?)
  | directory {entries : List (String × FileTree)} :
      (∀ e ∈ entries, IsEntryName e.1) → (entries.map Prod.fst).Nodup →
        (∀ e ∈ entries, WellFormed e.2) → WellFormed (.directory entries)

theorem wellFormed_directory : (FileTree.directory entries).WellFormed ↔
    (∀ e ∈ entries, IsEntryName e.1) ∧ (entries.map Prod.fst).Nodup ∧
      ∀ e ∈ entries, e.2.WellFormed := by
  constructor
  · intro h
    cases h with
    | directory hnames hnodup hentries => exact ⟨hnames, hnodup, hentries⟩
  · rintro ⟨hnames, hnodup, hentries⟩
    exact .directory hnames hnodup hentries

mutual

/-- Whether a tree is well formed can be found out. -/
def decideWellFormed : (t : FileTree) → Decidable t.WellFormed
  | .file text? => isTrue (.file text?)
  | .directory entries =>
    have := decideEntries entries
    decidable_of_iff _ wellFormed_directory.symm

/-- Whether the trees of entries are well formed can be found out. -/
def decideEntries : (entries : List (String × FileTree)) →
    Decidable (∀ e ∈ entries, e.2.WellFormed)
  | [] => isTrue fun _ he => absurd he List.not_mem_nil
  | (_, t) :: rest =>
    have := decideWellFormed t
    have := decideEntries rest
    decidable_of_iff _ List.forall_mem_cons.symm

end

instance : DecidablePred WellFormed := decideWellFormed

/-- Among distinct names each stands for the tree that it stands with. -/
theorem lookup_eq_some_iff (h : (entries.map Prod.fst).Nodup) :
    entries.lookup name = some child ↔ (name, child) ∈ entries := by
  induction entries with
  | nil => simp
  | cons e entries ih =>
    obtain ⟨n, t⟩ := e
    rw [List.map_cons, List.nodup_cons] at h
    rw [List.lookup_cons, List.mem_cons, Prod.mk.injEq]
    by_cases hname : name = n
    · subst hname
      have hout : (name, child) ∉ entries := fun hmem =>
        h.1 (List.mem_map.mpr ⟨(name, child), hmem, rfl⟩)
      simp [hout, eq_comm]
    · have hne : (name == n) = false := beq_eq_false_iff_ne.mpr hname
      simp [hne, hname, ih h.2]

theorem get?_append (t : FileTree) (names names' : List String) :
    t.get? (names ++ names') = (t.get? names).bind fun t => t.get? names' := by
  induction names generalizing t with
  | nil => rfl
  | cons name names ih =>
    rw [List.cons_append, get?, get?, Option.bind_assoc]
    congr 1
    funext child
    exact ih child

/-- What is in a well-formed tree is well formed, and so are the names that lead there. -/
theorem WellFormed.get? (h : t.WellFormed) (hget : t.get? names = some child) :
    child.WellFormed ∧ ∀ name ∈ names, IsEntryName name := by
  induction names generalizing t with
  | nil =>
    cases hget
    exact ⟨h, by simp⟩
  | cons name names ih =>
    obtain ⟨next, hnext, hrest⟩ := Option.bind_eq_some_iff.mp hget
    cases h with
    | file text? => cases hnext
    | directory hnames hnodup hentries =>
      have hmem := (lookup_eq_some_iff hnodup).mp hnext
      obtain ⟨hchild, hmore⟩ := ih (hentries _ hmem) hrest
      exact ⟨hchild, List.forall_mem_cons.mpr ⟨hnames _ hmem, hmore⟩⟩

end FileTree

open FileTree (IsEntryName)

/-! ### Paths of entries -/

namespace Path

variable {path q : List Char} {name : String}

/-- The path to which names lead from the path of a directory. -/
def descend (path : List Char) (names : List String) : List Char :=
  names.foldl (fun path name => join path name.toList) path

/-- An entry has one more component than its directory. -/
theorem components_join_entry (h : IsEntryName name) (path : List Char) :
    components (join path name.toList) = components path ++ [.normal name.toList] := by
  have hpieces : Text.splitAt '/' name.toList = [name.toList] :=
    Text.splitAt_of_not_mem h.no_slash
  have hnames : ∀ piece ∈ Text.splitAt '/' name.toList, Catalog.IsName piece := by
    rw [hpieces]
    exact List.forall_mem_singleton.mpr h.isName
  rw [components_join (Catalog.lead?_of_names hnames), Catalog.components_of_names hnames, hpieces,
    List.map_singleton]

theorem components_descend {names : List String} (h : ∀ name ∈ names, IsEntryName name)
    (path : List Char) : components (descend path names) =
      components path ++ names.map fun name => .normal name.toList := by
  induction names generalizing path with
  | nil => exact (List.append_nil _).symm
  | cons name names ih =>
    rw [List.forall_mem_cons] at h
    have hmore := ih h.2 (join path name.toList)
    rw [components_join_entry h.1, List.append_assoc] at hmore
    exact hmore

end Path

/-! ### Following paths -/

namespace Disk

variable {disk : Disk} {path q : List Char} {name : String} {names names' : List String}
  {t child : FileTree}

theorem follow_append (disk : Disk) (names : List String) (steps steps' : List (List Char)) :
    disk.follow names (steps ++ steps') =
      (disk.follow names steps).bind fun names => disk.follow names steps' := by
  induction steps generalizing names with
  | nil => rfl
  | cons step steps ih =>
    rw [List.cons_append, follow, follow]
    cases disk.root.get? names with
    | none => rfl
    | some t =>
      cases t with
      | file text? => rfl
      | directory entries =>
        simp only [ih]
        split_ifs <;> rfl

/-- A step is made from a directory. -/
theorem follow_cons_eq_ok {step : List Char} {steps : List (List Char)}
    (h : disk.follow names (step :: steps) = .ok names') :
    ∃ entries, disk.root.get? names = some (.directory entries) := by
  rw [follow] at h
  split at h
  · cases h
  · cases h
  · rename_i entries hget
    exact ⟨entries, hget⟩

/-- What is above something is a directory. -/
theorem exists_directory_dropLast {entries : List (String × FileTree)}
    (h : disk.root.get? names = some (.directory entries)) :
    ∃ entries, disk.root.get? names.dropLast = some (.directory entries) := by
  rcases List.eq_nil_or_concat names with rfl | ⟨above, name, rfl⟩
  · exact ⟨entries, h⟩
  · rw [List.concat_eq_append] at h ⊢
    rw [FileTree.get?_append] at h
    obtain ⟨t, ht, hname⟩ := Option.bind_eq_some_iff.mp h
    rw [List.dropLast_concat]
    cases t with
    | file text? => cases hname
    | directory entries => exact ⟨entries, ht⟩

/-- A slash at the end changes nothing behind a directory. -/
theorem eq_of_follow_empty (h : disk.follow names [[]] = .ok names') : names' = names := by
  obtain ⟨entries, hget⟩ := follow_cons_eq_ok h
  rw [follow, hget] at h
  cases h
  rfl

theorem follow_name (h : disk.root.get? names = some t) (hdirectory : t.isDirectory = true)
    (hname : IsEntryName name) : disk.follow names [name.toList] = .ok (names ++ [name]) := by
  cases t with
  | file text? => cases hdirectory
  | directory entries =>
    rw [follow, h]
    have hidle := not_or.mpr ⟨hname.isName.ne_nil, hname.isName.ne_current⟩
    simp only [if_neg hidle, if_neg hname.isName.ne_parent, String.ofList_toList]
    rfl

theorem resolve_append_sep (h : q ≠ []) (r : List Char) : disk.resolve (q ++ '/' :: r) =
    (disk.resolve q).bind fun names => disk.follow names (Text.splitAt '/' r) := by
  cases q with
  | nil => exact absurd rfl h
  | cons c q =>
    rw [List.cons_append, resolve, resolve]
    split
    · rw [Text.splitAt_append_sep, follow_append]
    · rw [← List.cons_append, Text.splitAt_append_sep, follow_append]

theorem find_eq_ok_iff : disk.find path = .ok t ↔
    ∃ names, disk.resolve path = .ok names ∧ disk.root.get? names = some t := by
  rw [find]
  cases disk.resolve path with
  | error fault => simp
  | ok names => cases h : disk.root.get? names <;> simp [h]

theorem ne_nil_of_find (h : disk.find path = .ok t) : path ≠ [] := by
  rintro rfl
  cases h

theorem wellFormed_of_find (hwf : disk.root.WellFormed) (h : disk.find path = .ok t) :
    t.WellFormed := by
  obtain ⟨names, _, hget⟩ := find_eq_ok_iff.mp h
  exact (hwf.get? hget).1

theorem resolve_join (h : disk.resolve path = .ok names) (hget : disk.root.get? names = some t)
    (hdirectory : t.isDirectory = true) (hname : IsEntryName name) :
    disk.resolve (join path name.toList) = .ok (names ++ [name]) := by
  have hstep : disk.follow names (Text.splitAt '/' name.toList) = .ok (names ++ [name]) := by
    rw [Text.splitAt_of_not_mem hname.no_slash]
    exact follow_name hget hdirectory hname
  have hpath : path ≠ [] := by
    rintro rfl
    cases h
  rw [join]
  split
  · rename_i hslash
    obtain ⟨q, rfl⟩ := List.getLast?_eq_some_iff.mp (hslash.resolve_left hpath)
    rw [List.append_assoc, List.singleton_append]
    cases q with
    | nil =>
      have hnames : names = [] := eq_of_follow_empty h
      rw [hnames] at hstep ⊢
      exact hstep
    | cons c q =>
      rw [resolve_append_sep (List.cons_ne_nil c q)] at h ⊢
      cases hq : disk.resolve (c :: q) with
      | error fault =>
        rw [hq] at h
        cases h
      | ok before =>
        rw [hq] at h
        have hnames : names = before := eq_of_follow_empty h
        rw [← hnames]
        exact hstep
  · rw [resolve_append_sep hpath, h]
    exact hstep

/-- The path of an entry leads to what the directory holds under its name. -/
theorem find_join (h : disk.find path = .ok t) (hget : t.get? [name] = some child)
    (hname : IsEntryName name) : disk.find (join path name.toList) = .ok child := by
  obtain ⟨names, hresolve, ht⟩ := find_eq_ok_iff.mp h
  have hdirectory : t.isDirectory = true := by
    cases t with
    | file text? => cases hget
    | directory entries => rfl
  refine find_eq_ok_iff.mpr ⟨names ++ [name], resolve_join hresolve ht hdirectory hname, ?_⟩
  rw [FileTree.get?_append, ht, Option.bind_some, hget]

/-- What a tree holds under names is found on the path to which they lead. -/
theorem find_descend (hnames : ∀ name ∈ names, IsEntryName name) (h : disk.find path = .ok t)
    (hget : t.get? names = some child) : disk.find (Path.descend path names) = .ok child := by
  induction names generalizing path t with
  | nil =>
    cases hget
    exact h
  | cons name names ih =>
    rw [List.forall_mem_cons] at hnames
    have hcons : t.get? ([name] ++ names) = some child := hget
    obtain ⟨next, hnext, hrest⟩ := Option.bind_eq_some_iff.mp (FileTree.get?_append t _ _ ▸ hcons)
    exact ih hnames.2 (find_join h hnext hnames.1) hrest

end Disk

end Scriptorium
