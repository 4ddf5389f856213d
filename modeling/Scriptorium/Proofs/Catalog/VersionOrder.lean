/-
The order of versions is linear: versions are compared by their keys, a key being the numbers of a
version with the name of its file.

Two versions of one directory have the same key only if they stand at the same path.
-/

import Mathlib.Data.List.Lex
import Mathlib.Data.Prod.Lex
import Mathlib.Data.Char
import Scriptorium.Catalog.Version

namespace Scriptorium

/-! ### Cuts -/

theorem Text.cutAtLast_eq_some_iff {sep : Char} {s before after : List Char} :
    cutAtLast sep s = some (before, after) ↔ s = before ++ sep :: after ∧ sep ∉ after := by
  simp only [cutAtLast, Option.map_eq_some_iff, Prod.exists, Prod.mk.injEq]
  constructor
  · rintro ⟨front, back, hcut, rfl, rfl⟩
    obtain ⟨hs, hfront⟩ := cutAt_eq_some_iff.mp hcut
    refine ⟨?_, by simpa using hfront⟩
    rw [← List.reverse_reverse s, hs]
    simp
  · rintro ⟨rfl, hafter⟩
    refine ⟨after.reverse, before.reverse, cutAt_eq_some_iff.mpr ⟨?_, ?_⟩, ?_, ?_⟩
    · simp
    · simpa using hafter
    · simp
    · simp

theorem Text.cutAt_eq_none_iff {sep : Char} {s : List Char} : cutAt sep s = none ↔ sep ∉ s := by
  induction s with
  | nil => simp [cutAt]
  | cons c s ih =>
    by_cases h : c = sep
    · simp [cutAt, h]
    · simp [cutAt, h, Ne.symm h, ih]

theorem Text.cutAtLast_eq_none_iff {sep : Char} {s : List Char} :
    cutAtLast sep s = none ↔ sep ∉ s := by
  rw [cutAtLast, Option.map_eq_none_iff, cutAt_eq_none_iff, List.mem_reverse]

/-! ### Lists in lexicographic order -/

theorem Path.nameBefore_iff {a b : List Char} : Path.nameBefore a b = true ↔ a < b := by
  induction a generalizing b with
  | nil => cases b <;> simp [Path.nameBefore]
  | cons c a ih =>
    cases b with
    | nil => simp [Path.nameBefore]
    | cons d b => simp [Path.nameBefore, ih, List.cons_lt_cons_iff]

namespace Catalog

theorem numbersBefore_iff {a b : List Nat} : numbersBefore a b = true ↔ a < b := by
  induction a generalizing b with
  | nil => cases b <;> simp [numbersBefore]
  | cons m a ih =>
    cases b with
    | nil => simp [numbersBefore]
    | cons n b => simp [numbersBefore, ih, List.cons_lt_cons_iff]

/-! ### Keys -/

/-- What versions are compared by: their numbers, then the names of their files. -/
def versionKey (path : List Char) : List Nat ×ₗ List Char :=
  toLex (release path, lastName path)

theorem older_iff {a b : List Char} : older a b = true ↔ versionKey a < versionKey b := by
  simp [older, versionKey, Prod.Lex.toLex_lt_toLex, numbersBefore_iff, Path.nameBefore_iff]

/-- In one directory no two versions have the same key. -/
theorem eq_of_versionKey_eq {a b directory : List Char}
    (ha : versionDirectory? a = some directory) (hb : versionDirectory? b = some directory)
    (hkey : versionKey a = versionKey b) : a = b := by
  have hpath {path : List Char} (h : versionDirectory? path = some directory) :
      path = directory ++ '/' :: lastName path := by
    obtain ⟨⟨front, file⟩, hcut, hfile⟩ := Option.bind_eq_some_iff.mp h
    obtain ⟨_, rfl⟩ : isVersion (scriptStem file) = true ∧ front = directory := by
      simpa using hfile
    have hname : lastName path = file := by simp [lastName, hcut]
    rw [hname]
    exact (Text.cutAtLast_eq_some_iff.mp hcut).1
  have hname : lastName a = lastName b := (Prod.mk.inj (toLex.injective hkey)).2
  rw [hpath ha, hpath hb, hname]

end Catalog

end Scriptorium
