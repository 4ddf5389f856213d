/-
Which scripts are left out of catalogs: those whose path or file name is listed without `./` before
it.

Any number of `./` before a path says nothing. It is dropped from the path of a script, but not from
an entry, so an entry that begins with `./` meets no path at all (`isExcluded_iff_exists_names`).
-/

import Scriptorium.Proofs.Catalog.Selection
import Scriptorium.Proofs.Path.Component

namespace Scriptorium.Catalog

open Manifest (dropCurrent)

variable {config : Config} {p q path entry : List Char}

/-! ### Paths with `./` before them -/

/-- The path with a number of `./` before it. -/
def dotted (n : Nat) (path : List Char) : List Char :=
  (List.replicate n ['.', '/']).flatten ++ path

/-- Two texts of one path, with any number of `./` before either. -/
def SameScript (p q : List Char) : Prop :=
  ∃ path m n, p = dotted m path ∧ q = dotted n path

theorem dropCurrent_dotted (n : Nat) (path : List Char) :
    dropCurrent (dotted n path) = dropCurrent path := by
  induction n with
  | zero => rfl
  | succ n ih => exact ih

theorem exists_eq_dotted (path : List Char) : ∃ n, path = dotted n (dropCurrent path) := by
  fun_induction dropCurrent path with
  | case1 s ih =>
    obtain ⟨n, hn⟩ := ih
    refine ⟨n + 1, ?_⟩
    rw [dotted, List.replicate_succ, List.flatten_cons, List.append_assoc, ← dotted, ← hn]
    rfl
  | case2 s _ => exact ⟨0, rfl⟩

theorem not_isPrefix_dropCurrent (path : List Char) : ¬['.', '/'] <+: dropCurrent path := by
  fun_induction dropCurrent path with
  | case1 s ih => exact ih
  | case2 s hs =>
    rintro ⟨t, rfl⟩
    exact hs t rfl

theorem dropCurrent_eq_self (h : ¬['.', '/'] <+: path) : dropCurrent path = path := by
  obtain ⟨n, hn⟩ := exists_eq_dotted path
  cases n with
  | zero => exact hn.symm
  | succ n =>
    refine absurd ⟨dotted n (dropCurrent path), ?_⟩ h
    conv_rhs => rw [hn]
    rfl

theorem sameScript_iff : SameScript p q ↔ dropCurrent p = dropCurrent q := by
  constructor
  · rintro ⟨path, m, n, rfl, rfl⟩
    rw [dropCurrent_dotted, dropCurrent_dotted]
  · intro h
    obtain ⟨m, hm⟩ := exists_eq_dotted p
    obtain ⟨n, hn⟩ := exists_eq_dotted q
    exact ⟨dropCurrent p, m, n, hm, h ▸ hn⟩

/-- What is dropped before a path is not the name of its file. -/
theorem fileName?_dropCurrent (path : List Char) :
    Path.fileName? (dropCurrent path) = Path.fileName? path := by
  fun_induction dropCurrent path with
  | case1 s ih =>
    rw [ih, Path.fileName?_eq, Path.fileName?_eq]
    rfl
  | case2 s _ => rfl

/-! ### Entries -/

/-- An entry that leaves out the script at a path: nothing is before it, and it is the path or the
name of its file. -/
structure Names (entry path : List Char) : Prop where
  bare : ¬['.', '/'] <+: entry
  path_or_file : SameScript entry path ∨ Path.fileName? path = some entry

theorem names_iff : Names entry path ↔
    entry = dropCurrent path ∨
      entry = (Path.fileName? (dropCurrent path)).getD (dropCurrent path) := by
  rw [fileName?_dropCurrent]
  constructor
  · rintro ⟨hbare, hsame | hfile⟩
    · rw [sameScript_iff, dropCurrent_eq_self hbare] at hsame
      exact .inl hsame
    · rw [hfile]
      exact .inr rfl
  · have hpath : Names (dropCurrent path) path := by
      have hbare := not_isPrefix_dropCurrent path
      exact ⟨hbare, .inl (sameScript_iff.mpr (dropCurrent_eq_self hbare))⟩
    rintro (rfl | rfl)
    · exact hpath
    · cases hfile : Path.fileName? path with
      | none => exact hpath
      | some name =>
        refine ⟨fun hdotted => ?_, .inr hfile⟩
        exact Path.slash_not_mem_fileName hfile (hdotted.subset (by simp))

/-- A script is excluded exactly if some entry names it. -/
theorem isExcluded_iff {path : String} :
    config.isExcluded path = true ↔ ∃ entry ∈ config.exclude, Names entry.toList path.toList := by
  simp only [Config.isExcluded, List.any_eq_true, Bool.or_eq_true, beq_iff_eq, names_iff]

/-! ### Catalogs -/

/-- A report alone stays unless it is excluded. -/
theorem stays_alone {r : Report} (h : config.isExcluded r.path = false) : Stays config [] r [] where
  included := h
  newest := by simp
  first := by simp

/-- A path is in no catalog exactly if it is excluded. -/
theorem absent_iff {path : String} :
    (∀ version generatedAt reports,
        path ∉ (build config version generatedAt reports).scripts.map Record.path) ↔
      config.isExcluded path = true := by
  simp only [map_path_scripts, select_eq, List.mem_map, Prod.exists, exists_and_right,
    exists_eq_right]
  constructor
  · intro h
    by_contra hincluded
    rw [Bool.not_eq_true] at hincluded
    refine h "" "" [⟨path, "", {}, [], []⟩] ⟨_, ⟨0, mem_kept.mpr ⟨[], [], rfl, rfl, ?_⟩⟩, rfl⟩
    exact stays_alone hincluded
  · rintro hexcluded version generatedAt reports ⟨r, ⟨i, hkept⟩, rfl⟩
    obtain ⟨before, after, _, _, hstays⟩ := mem_kept.mp hkept
    rw [hstays.included] at hexcluded
    cases hexcluded

/-- **Exclusion.** A script is excluded, and dropped from every catalog, exactly if its path, with
any number of `./` before it, or the name of its file is listed by an entry that has no `./` before
it. -/
theorem isExcluded_iff_exists_names (config : Config) (path : String) :
    (config.isExcluded path = true ↔
        ∃ entry ∈ config.exclude, Names entry.toList path.toList) ∧
      ((∀ version generatedAt reports,
          path ∉ (build config version generatedAt reports).scripts.map Record.path) ↔
        ∃ entry ∈ config.exclude, Names entry.toList path.toList) := by
  constructor
  · exact isExcluded_iff
  · rw [absent_iff, isExcluded_iff]

/-- An entry that begins with `./` does not leave out the path that it is. -/
theorem isExcluded_of_dotted_entry :
    let config : Config := { exclude := ["./a.py"] }
    "./a.py" ∈ config.exclude ∧ SameScript "./a.py".toList "a.py".toList ∧
      config.isExcluded "./a.py" = false ∧ config.isExcluded "a.py" = false ∧
      (build config "1" "now" [⟨"a.py", "a", {}, [], []⟩]).scripts.map Record.path = ["a.py"] := by
  intro config
  refine ⟨List.mem_cons_self, ⟨"a.py".toList, 1, 0, rfl, rfl⟩, ?_, ?_, ?_⟩
  all_goals decide +kernel

end Scriptorium.Catalog
