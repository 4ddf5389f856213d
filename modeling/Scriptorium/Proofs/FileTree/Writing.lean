/-
What has been written at a path is read back there.

Putting a file where there is no directory leaves every directory a directory
(`exists_directory_set`), so a path leads to the same names as before (`follow_set`).
-/

import Scriptorium.Proofs.FileTree.Following

namespace Scriptorium

namespace FileTree

variable {name other : String} {names names' : List String} {new : FileTree}

theorem lookup_setEntry_of_ne (h : other ≠ name) (child : FileTree)
    (entries : List (String × FileTree)) :
    (setEntry name child entries).lookup other = entries.lookup other := by
  have hother : (other == name) = false := beq_eq_false_iff_ne.mpr h
  induction entries with
  | nil => rw [setEntry, List.lookup_cons, hother]
  | cons e entries ih =>
    obtain ⟨n, t⟩ := e
    rw [setEntry]
    split
    · rename_i hname
      rw [List.lookup_cons, List.lookup_cons, hname, hother]
    · rw [List.lookup_cons, List.lookup_cons, ih]

/-- A directory stays one when something is put where there is no directory. -/
theorem exists_directory_set {t : FileTree} {entries : List (String × FileTree)}
    (h : t.get? names = some (.directory entries))
    (hplace : ∀ entries, t.get? names' ≠ some (.directory entries)) (new : FileTree) :
    ∃ entries, (t.set names' new).get? names = some (.directory entries) := by
  induction names' generalizing t names with
  | nil =>
    cases t with
    | file text? => cases names <;> cases h
    | directory entries => exact absurd rfl (hplace entries)
  | cons name' names' ih =>
    cases names with
    | nil => exact ⟨_, rfl⟩
    | cons name names =>
      obtain ⟨child, hchild, hrest⟩ := Option.bind_eq_some_iff.mp h
      rw [set, get?, FileTree.entries]
      -- the way to the directory parts from that to the new tree, or both go on below one entry
      by_cases hname : name = name'
      · subst hname
        rw [lookup_setEntry, Option.bind_some, hchild, Option.getD_some]
        refine ih hrest fun entries hget => hplace entries ?_
        rw [get?, hchild, Option.bind_some, hget]
      · rw [lookup_setEntry_of_ne hname, hchild]
        exact ⟨_, hrest⟩

end FileTree

namespace Disk

variable {disk disk' : Disk} {path : List Char} {place names names' : List String}
  {text text' : String}

theorem follow_set {steps : List (List Char)} (h : disk.follow names steps = .ok names')
    (hplace : ∀ entries, disk.root.get? place ≠ some (.directory entries)) (new : FileTree) :
    { disk with root := disk.root.set place new }.follow names steps = .ok names' := by
  induction steps generalizing names with
  | nil => exact h
  | cons step steps ih =>
    obtain ⟨entries, hget⟩ := follow_cons_eq_ok h
    obtain ⟨entries', hget'⟩ := FileTree.exists_directory_set hget hplace new
    rw [follow, hget] at h
    rw [follow, hget']
    simp only at h ⊢
    split_ifs at h ⊢ <;> exact ih h

/-- Whether a file can be written does not depend on its text. -/
theorem exists_write (h : disk.write path text = .ok disk') (text' : String) :
    ∃ disk', disk.write path text' = .ok disk' := by
  rw [write] at h ⊢
  split at h
  · cases h
  · rename_i names hresolve
    split at h
    · cases h
    · rename_i hplace
      exact ⟨_, rfl⟩

/-- What has been written at a path is read there. -/
theorem read_of_write (h : disk.write path text = .ok disk') : disk'.read path = .ok text := by
  rw [write] at h
  split at h
  · cases h
  · rename_i names hresolve
    have hplace : ∀ entries, disk.root.get? names ≠ some (.directory entries) := by
      intro entries hget
      rw [hget] at h
      cases h
    have hwritten : disk' = { disk with root := disk.root.set names (.file (some text)) } := by
      split at h
      · cases h
      · cases h
        rfl
    have hresolve' : disk'.resolve path = .ok names := by
      subst hwritten
      cases path with
      | nil => cases hresolve
      | cons c rest =>
        rw [resolve] at hresolve ⊢
        split_ifs at hresolve ⊢ <;> exact follow_set hresolve hplace _
    have hget : disk'.root.get? names = some (.file (some text)) := by
      rw [hwritten]
      exact FileTree.get?_set _ _ _
    rw [read, find_eq_ok_iff.mpr ⟨names, hresolve', hget⟩]

end Disk

end Scriptorium
