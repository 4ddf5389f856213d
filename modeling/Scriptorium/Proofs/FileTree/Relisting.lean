/-
The order in which directories list their entries is of no account for what paths lead to.

Trees that differ only in this order hold the same files under the same names
(`FileTree.Relisted.map_get?`), and so do the trees to which a path leads in them
(`Disk.Relisted.exists_find`).
-/

import Mathlib.Data.List.Nodup
import Scriptorium.Proofs.FileTree.Following

namespace Scriptorium

namespace FileTree

variable {t t' : FileTree} {text? : Option String}

/-! ### Trees -/

/-- Trees that differ only in the order in which directories list their entries. -/
inductive Relisted : FileTree → FileTree → Prop
  | refl (t : FileTree) : Relisted t t
  | order {entries entries' : List (String × FileTree)} : entries.Perm entries' →
      Relisted (.directory entries) (.directory entries')
  | inside {before after : List (String × FileTree)} {name : String} {child child' : FileTree} :
      Relisted child child' → Relisted (.directory (before ++ (name, child) :: after))
        (.directory (before ++ (name, child') :: after))
  | trans {t t' t'' : FileTree} : Relisted t t' → Relisted t' t'' → Relisted t t''

/-- The text of a file, if it has one; a directory is no file. -/
def file? : FileTree → Option (Option String)
  | .file text? => some text?
  | .directory _ => none

theorem file?_eq_some_iff : t.file? = some text? ↔ t = .file text? := by
  cases t <;> simp [file?]

theorem Relisted.symm (h : Relisted t t') : Relisted t' t := by
  induction h with
  | refl t => exact .refl t
  | order hperm => exact .order hperm.symm
  | inside _ ih => exact .inside ih
  | trans _ _ ih ih' => exact .trans ih' ih

theorem Relisted.wellFormed (h : Relisted t t') (hwf : t.WellFormed) : t'.WellFormed := by
  induction h with
  | refl t => exact hwf
  | order hperm =>
    cases hwf with
    | directory hnames hnodup hentries =>
      exact .directory (fun e he => hnames e (hperm.mem_iff.mpr he))
        ((hperm.map Prod.fst).nodup_iff.mp hnodup) (fun e he => hentries e (hperm.mem_iff.mpr he))
  | @inside before after name child child' _ ih =>
    cases hwf with
    | directory hnames hnodup hentries =>
      simp only [List.forall_mem_append, List.forall_mem_cons] at hnames hentries
      refine .directory ?_ (by simpa using hnodup) ?_
      · simp only [List.forall_mem_append, List.forall_mem_cons]
        exact hnames
      · simp only [List.forall_mem_append, List.forall_mem_cons]
        exact ⟨hentries.1, ih hentries.2.1, hentries.2.2⟩
  | trans _ _ ih ih' => exact ih' (ih hwf)

/-- Relisted trees hold the same files under the same names, and directories where the others do. -/
theorem Relisted.map_get? (h : Relisted t t') (hwf : t.WellFormed) (names : List String) :
    (t'.get? names).map file? = (t.get? names).map file? := by
  induction h generalizing names with
  | refl t => rfl
  | @order listed listed' hperm =>
    cases names with
    | nil => rfl
    | cons name names =>
      cases hwf with
      | directory _ hnodup _ =>
        -- with a name twice, the first of its entries would count
        have hlookup : listed'.lookup name = listed.lookup name := by
          refine Option.ext fun child => ?_
          rw [lookup_eq_some_iff ((hperm.map Prod.fst).nodup_iff.mp hnodup),
            lookup_eq_some_iff hnodup, hperm.mem_iff]
        rw [get?, get?, entries, entries, hlookup]
  | @inside before after name child child' _ ih =>
    cases names with
    | nil => rfl
    | cons first names =>
      have hchild : child.WellFormed := by
        cases hwf with
        | directory _ _ hentries => exact hentries (name, child) (by simp)
      simp only [get?, entries, List.lookup_append, List.lookup_cons]
      cases before.lookup first with
      | some found => rfl
      | none =>
        cases first == name with
        | true => exact ih hchild names
        | false => rfl
  | trans hfirst _ ih ih' => rw [ih' (hfirst.wellFormed hwf), ih hwf]

end FileTree

/-! ### Paths -/

namespace Disk

open FileTree (file?)

/-- Disks that differ only in the order in which directories list their entries. -/
structure Relisted (disk disk' : Disk) : Prop where
  root : FileTree.Relisted disk.root disk'.root
  here : disk'.here = disk.here

namespace Relisted

variable {disk disk' : Disk} {t : FileTree} {path : List Char}

theorem symm (h : Relisted disk disk') : Relisted disk' disk :=
  ⟨h.root.symm, h.here.symm⟩

theorem follow_eq (h : Relisted disk disk') (hwf : disk.root.WellFormed) (names : List String)
    (steps : List (List Char)) : disk'.follow names steps = disk.follow names steps := by
  induction steps generalizing names with
  | nil => rfl
  | cons step steps ih =>
    have hkind := h.root.map_get? hwf names
    rw [follow, follow]
    simp only [ih]
    rcases hget : disk.root.get? names with _ | text? | entries <;>
      rcases hget' : disk'.root.get? names with _ | text?' | entries' <;>
        simp_all [file?]

/-- A path leads to a file or a directory as before, which holds the same files under the same
names. -/
theorem exists_find (h : Relisted disk disk') (hwf : disk.root.WellFormed)
    (hfind : disk.find path = .ok t) : ∃ t', disk'.find path = .ok t' ∧
      t'.isDirectory = t.isDirectory ∧
        ∀ names text?, t.get? names = some (.file text?) → t'.get? names = some (.file text?) := by
  obtain ⟨place, hplace, ht⟩ := find_eq_ok_iff.mp hfind
  have hresolve : disk'.resolve path = .ok place := by
    rw [← hplace]
    cases path with
    | nil => rfl
    | cons c rest => simp only [resolve, h.here, h.follow_eq hwf]
  have hkind := h.root.map_get? hwf place
  rw [ht, Option.map_some] at hkind
  obtain ⟨t', ht', hfile⟩ := Option.map_eq_some_iff.mp hkind
  refine ⟨t', find_eq_ok_iff.mpr ⟨place, hresolve, ht'⟩, ?_, fun names text? hget => ?_⟩
  · cases t <;> cases t' <;> first | rfl | cases hfile
  · have hmore := h.root.map_get? hwf (place ++ names)
    rw [FileTree.get?_append, FileTree.get?_append, ht, ht', Option.bind_some, Option.bind_some,
      hget, Option.map_some] at hmore
    obtain ⟨child, hchild, hsame⟩ := Option.map_eq_some_iff.mp hmore
    rw [hchild, FileTree.file?_eq_some_iff.mp hsame]

end Relisted

end Disk

end Scriptorium
