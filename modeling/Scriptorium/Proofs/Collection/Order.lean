/-
Collected paths stand in the order of their components, and no two of them have the same components.

Paths are compared by keys, which order them linearly (`before_iff`) and tell different components
apart (`key_injective`). Inserting a path keeps a list in order (`sorted_insertPath`), so what is
collected is in order, whatever the inputs (`sorted_collect`).
-/

import Mathlib.Data.List.Lex
import Mathlib.Data.List.Nodup
import Mathlib.Data.Prod.Lex
import Scriptorium.Collection
import Scriptorium.Proofs.Catalog.VersionOrder

namespace Scriptorium

namespace Path

variable {c d : Component} {p q : List Char}

/-! ### Keys -/

/-- What components are compared by: their kinds, and names among themselves. -/
def Component.key (c : Component) : Nat ×ₗ List Char :=
  toLex (c.rank, c.name?.getD [])

/-- What paths are compared by. -/
def key (path : List Char) : List (Nat ×ₗ List Char) :=
  (components path).map Component.key

theorem Component.key_injective : Function.Injective Component.key := by
  intro c d h
  obtain ⟨hrank, hname⟩ := Prod.mk.inj (toLex.injective h)
  cases c <;> cases d <;> simp_all [Component.rank, Component.name?]

theorem Component.before_iff : c.before d = true ↔ c.key < d.key := by
  cases c <;> cases d <;>
    simp [Component.before, Component.key, Component.rank, Component.name?,
      Prod.Lex.toLex_lt_toLex, nameBefore_iff]

theorem before_iff {a b : List Component} :
    before a b = true ↔ a.map Component.key < b.map Component.key := by
  induction a generalizing b with
  | nil => cases b <;> simp [before]
  | cons c a ih =>
    cases b with
    | nil => simp [before]
    | cons d b =>
      simp [before, ih, List.cons_lt_cons_iff, Component.before_iff,
        Component.key_injective.eq_iff]

theorem key_eq_iff : key p = key q ↔ components p = components q :=
  (List.map_injective_iff.mpr Component.key_injective).eq_iff

end Path

namespace Collection

open Scriptorium.Path (key)

variable {path p : List Char} {paths : List (List Char)}

/-! ### Insertion -/

/-- Paths in strictly increasing order. -/
def Sorted (paths : List (List Char)) : Prop :=
  paths.Pairwise fun p q => key p < key q

theorem eq_or_mem_of_mem_insertPath (h : p ∈ insertPath path paths) : p = path ∨ p ∈ paths := by
  induction paths with
  | nil => exact .inl (List.mem_singleton.mp h)
  | cons q rest ih =>
    simp only [insertPath] at h
    split at h
    · exact List.mem_cons.mp h
    · split at h
      · exact .inr h
      · rcases List.mem_cons.mp h with rfl | h
        · exact .inr List.mem_cons_self
        · exact (ih h).imp_right (List.mem_cons_of_mem q)

theorem sorted_insertPath (h : Sorted paths) (path : List Char) :
    Sorted (insertPath path paths) := by
  induction paths with
  | nil => exact List.pairwise_singleton _ path
  | cons q rest ih =>
    obtain ⟨hq, hrest⟩ := List.pairwise_cons.mp h
    simp only [insertPath]
    split
    · rename_i hbefore
      have hlt : key path < key q := Path.before_iff.mp hbefore
      refine List.pairwise_cons.mpr ⟨?_, h⟩
      intro p hp
      rcases List.mem_cons.mp hp with rfl | hp
      · exact hlt
      · exact hlt.trans (hq p hp)
    · rename_i hbefore
      split
      · exact h
      · rename_i hne
        have hlt : key q < key path :=
          lt_of_le_of_ne (not_lt.mp (mt Path.before_iff.mpr hbefore))
            fun heq => hne (Path.key_eq_iff.mp heq.symm)
        refine List.pairwise_cons.mpr ⟨?_, ih hrest⟩
        intro p hp
        rcases eq_or_mem_of_mem_insertPath hp with rfl | hp
        · exact hlt
        · exact hq p hp

/-! ### Collecting -/

theorem sorted_foldl (found : List (List Char)) (h : Sorted paths) :
    Sorted (found.foldl (fun paths path => insertPath path paths) paths) := by
  induction found generalizing paths with
  | nil => exact h
  | cons path found ih => exact ih (sorted_insertPath h path)

theorem sorted_collect {disk : Disk} {inputs : List String} (h : collect disk inputs = .ok paths) :
    Sorted paths := by
  rw [collect] at h
  split at h
  · cases h
  · cases hfound : inputs.mapM (scriptsOf disk) with
    | error e =>
      rw [hfound] at h
      cases h
    | ok found =>
      rw [hfound] at h
      cases h
      exact sorted_foldl found.flatten List.Pairwise.nil

theorem Sorted.nodup (h : Sorted paths) : paths.Nodup :=
  h.imp fun hlt heq => absurd (congrArg key heq) hlt.ne

theorem Sorted.components_ne (h : Sorted paths) {q : List Char} (hp : p ∈ paths) (hq : q ∈ paths)
    (hne : p ≠ q) : Path.components p ≠ Path.components q := by
  have hkeys : (paths.map key).Nodup := (List.pairwise_map.mpr h).imp fun hlt => hlt.ne
  intro heq
  exact hne (List.inj_on_of_nodup_map hkeys hp hq (Path.key_eq_iff.mpr heq))

end Collection

end Scriptorium
