/-
What is collected for some inputs, and which input decides the error.

An ordered insertion keeps one path for each list of components that is inserted
(`mem_components_foldl`), so what is collected for inputs that are accepted is, by components, what
they stand for, in one order that they alone determine (`Sorted.map_components_eq`).
-/

import Mathlib.Data.List.Sort
import Scriptorium.Proofs.Collection.Order
import Scriptorium.Proofs.Collection.Walk
import Scriptorium.Proofs.FileTree.Relisting

namespace Scriptorium.Collection

open Scriptorium.Path (Component components key)

variable {disk disk' : Disk} {inputs before after : List String} {input : String}
  {path p : List Char} {paths paths' found : List (List Char)} {cs : List Component}

/-! ### Order -/

theorem mem_components_insertPath : cs ∈ (insertPath path paths).map components ↔
    cs = components path ∨ cs ∈ paths.map components := by
  induction paths with
  | nil => simp [insertPath]
  | cons q rest ih =>
    simp only [insertPath]
    split
    · simp
    · split
      · rename_i heq
        rw [List.map_cons, List.mem_cons, heq, ← or_assoc, or_self]
      · rw [List.map_cons, List.mem_cons, ih, List.map_cons, List.mem_cons, or_left_comm]

theorem mem_components_foldl :
    cs ∈ (found.foldl (fun paths path => insertPath path paths) paths).map components ↔
      cs ∈ found.map components ∨ cs ∈ paths.map components := by
  induction found generalizing paths with
  | nil => simp
  | cons path found ih =>
    rw [List.foldl_cons, ih, mem_components_insertPath, List.map_cons, List.mem_cons, or_left_comm,
      or_assoc]

theorem mem_or_mem_of_mem_foldl
    (h : p ∈ found.foldl (fun paths path => insertPath path paths) paths) :
    p ∈ found ∨ p ∈ paths := by
  induction found generalizing paths with
  | nil => exact .inr h
  | cons path found ih =>
    rcases ih h with hp | hp
    · exact .inl (List.mem_cons_of_mem path hp)
    · refine (eq_or_mem_of_mem_insertPath hp).imp_left ?_
      rintro rfl
      exact List.mem_cons_self

/-- Lists in order with the same components have them at the same places. -/
theorem Sorted.map_components_eq (h : Sorted paths) (h' : Sorted paths')
    (hmem : ∀ cs, cs ∈ paths.map components ↔ cs ∈ paths'.map components) :
    paths.map components = paths'.map components := by
  have hkey (l : List (List Char)) :
      l.map key = (l.map components).map (List.map Component.key) := by
    rw [List.map_map]
    rfl
  refine List.map_injective_iff.mpr (List.map_injective_iff.mpr Component.key_injective) ?_
  rw [← hkey, ← hkey]
  refine (List.pairwise_map.mpr h).eq_of_mem_iff (List.pairwise_map.mpr h') fun k => ?_
  simp only [hkey, List.mem_map (f := List.map Component.key), hmem]

/-! ### Several inputs -/

/-- Inputs are expanded one after the other, until one is not accepted. -/
theorem exists_mapM_scriptsOf (hwf : disk.root.WellFormed)
    (h : ∀ input ∈ inputs, Accepted disk input) :
    ∃ found, inputs.mapM (scriptsOf disk) = .ok found ∧
      (∀ cs, cs ∈ found.flatten.map components ↔ ∃ input ∈ inputs, StandsFor disk input cs) ∧
        ∀ p ∈ found.flatten, ∃ text?, disk.find p = .ok (.file text?) := by
  induction inputs with
  | nil => exact ⟨[], rfl, by simp, by simp⟩
  | cons input inputs ih =>
    rw [List.forall_mem_cons] at h
    obtain ⟨scripts, hscripts, hmem, hfiles⟩ := exists_scriptsOf hwf h.1
    obtain ⟨found, hfound, hmems, hmore⟩ := ih h.2
    refine ⟨scripts :: found, ?_, fun cs => ?_, ?_⟩
    · rw [List.mapM_cons, hscripts, hfound]
      rfl
    · simp only [List.flatten_cons, List.map_append, List.mem_append, hmem, hmems, List.mem_cons,
        exists_eq_or_imp]
    · rw [List.flatten_cons, List.forall_mem_append]
      exact ⟨hfiles, hmore⟩

theorem mapM_scriptsOf_eq_error (hwf : disk.root.WellFormed)
    (hbefore : ∀ input ∈ before, Accepted disk input) (h : ¬Accepted disk input) :
    (before ++ input :: after).mapM (scriptsOf disk) = .error (refusal disk input) := by
  induction before with
  | nil =>
    rw [List.nil_append, List.mapM_cons, scriptsOf_of_not_accepted h]
    rfl
  | cons first before ih =>
    rw [List.forall_mem_cons] at hbefore
    obtain ⟨scripts, hscripts, _⟩ := exists_scriptsOf hwf hbefore.1
    rw [List.cons_append, List.mapM_cons, hscripts, ih hbefore.2]
    rfl

/-- What is collected for inputs that are accepted. -/
theorem exists_collect (hwf : disk.root.WellFormed) (hinputs : inputs ≠ [])
    (h : ∀ input ∈ inputs, Accepted disk input) :
    ∃ paths, collect disk inputs = .ok paths ∧ Sorted paths ∧
      (∀ cs, cs ∈ paths.map components ↔ ∃ input ∈ inputs, StandsFor disk input cs) ∧
        ∀ p ∈ paths, ∃ text?, disk.find p = .ok (.file text?) := by
  obtain ⟨found, hfound, hmem, hfiles⟩ := exists_mapM_scriptsOf hwf h
  have hcollect : collect disk inputs =
      .ok (found.flatten.foldl (fun paths path => insertPath path paths) []) := by
    rw [collect, if_neg (mt List.isEmpty_iff.mp hinputs), hfound]
    rfl
  refine ⟨_, hcollect, sorted_collect hcollect, fun cs => ?_, fun p hp => ?_⟩
  · rw [mem_components_foldl, List.map_nil, ← hmem]
    exact or_iff_left List.not_mem_nil
  · exact hfiles p ((mem_or_mem_of_mem_foldl hp).resolve_right List.not_mem_nil)

/-- The first input that is not accepted decides the error. -/
theorem exists_collect_eq_error (hwf : disk.root.WellFormed)
    (h : ¬∀ input ∈ inputs, Accepted disk input) :
    ∃ before input after, inputs = before ++ input :: after ∧
      (∀ earlier ∈ before, Accepted disk earlier) ∧ ¬Accepted disk input ∧
        collect disk inputs = .error (refusal disk input) := by
  have hfirst : (inputs.find? fun input => !decide (Accepted disk input)).isSome = true := by
    simpa using h
  obtain ⟨input, hinput⟩ := Option.isSome_iff_exists.mp hfirst
  obtain ⟨hnot, before, after, rfl, hbefore⟩ := List.find?_eq_some_iff_append.mp hinput
  simp only [Bool.not_eq_eq_eq_not, Bool.not_true, decide_eq_false_iff_not, Bool.not_not,
    decide_eq_true_eq] at hnot hbefore
  refine ⟨before, input, after, rfl, hbefore, hnot, ?_⟩
  rw [collect, if_neg (by simp), mapM_scriptsOf_eq_error hwf hbefore hnot]
  rfl

/-- What is collected are paths of files. -/
theorem exists_file_of_collect (hwf : disk.root.WellFormed) (h : collect disk inputs = .ok paths)
    (hp : p ∈ paths) : ∃ text?, disk.find p = .ok (.file text?) := by
  have hinputs : inputs ≠ [] := by
    rintro rfl
    cases h
  by_cases haccepted : ∀ input ∈ inputs, Accepted disk input
  · obtain ⟨paths', hcollect, _, _, hfiles⟩ := exists_collect hwf hinputs haccepted
    cases h.symm.trans hcollect
    exact hfiles p hp
  · obtain ⟨_, _, _, _, _, _, herror⟩ := exists_collect_eq_error hwf haccepted
    cases h.symm.trans herror

/-! ### The order of listings -/

theorem accepted_of_relisted (h : Disk.Relisted disk disk') (hwf : disk.root.WellFormed)
    (haccepted : Accepted disk input) : Accepted disk' input := by
  rw [Accepted] at haccepted
  split at haccepted
  all_goals rename_i hfind
  · obtain ⟨t', hfind', hkind, _⟩ := h.exists_find hwf hfind
    rw [Accepted, hfind']
    cases t' with
    | file text? => cases hkind
    | directory entries => trivial
  · obtain ⟨t', hfind', hkind, _⟩ := h.exists_find hwf hfind
    rw [Accepted, hfind']
    cases t' with
    | file text? => exact haccepted
    | directory entries => cases hkind
  · exact haccepted.elim

theorem standsFor_of_relisted (h : Disk.Relisted disk disk') (hwf : disk.root.WellFormed)
    (hcs : StandsFor disk input cs) : StandsFor disk' input cs := by
  cases hcs with
  | named hfind =>
    obtain ⟨t', hfind', _, hfiles⟩ := h.exists_find hwf hfind
    cases hfiles [] _ rfl
    exact .named hfind'
  | found hfind hget hhidden hlast =>
    obtain ⟨t', hfind', hkind, hfiles⟩ := h.exists_find hwf hfind
    cases t' with
    | file text? => cases hkind
    | directory entries => exact .found hfind' (hfiles _ _ hget) hhidden hlast

/-! ### What is collected -/

/-- **Collected scripts.** Inputs that are accepted are expanded into paths in strictly increasing
order, which are by their components what the inputs stand for; neither the order and the repetition
of the inputs nor the order in which directories are listed changes the components. Otherwise the
first input that is not accepted decides the error. -/
theorem collect_gathers (hwf : disk.root.WellFormed) (hinputs : inputs ≠ []) :
    ((∀ input ∈ inputs, Accepted disk input) →
      ∃ paths, collect disk inputs = .ok paths ∧ Sorted paths ∧
        (∀ cs, cs ∈ paths.map components ↔ ∃ input ∈ inputs, StandsFor disk input cs) ∧
        ∀ disk' inputs', Disk.Relisted disk disk' → (∀ input, input ∈ inputs' ↔ input ∈ inputs) →
          ∃ paths', collect disk' inputs' = .ok paths' ∧
            paths'.map components = paths.map components) ∧
    ((¬∀ input ∈ inputs, Accepted disk input) →
      ∃ before input after, inputs = before ++ input :: after ∧
        (∀ earlier ∈ before, Accepted disk earlier) ∧ ¬Accepted disk input ∧
          collect disk inputs = .error (refusal disk input)) := by
  constructor
  · intro haccepted
    obtain ⟨paths, hcollect, hsorted, hmem, _⟩ := exists_collect hwf hinputs haccepted
    refine ⟨paths, hcollect, hsorted, hmem, fun disk' inputs' hlisted hsame => ?_⟩
    have hwf' := hlisted.root.wellFormed hwf
    have hinputs' : inputs' ≠ [] := by
      obtain ⟨input, hinput⟩ := List.exists_mem_of_ne_nil inputs hinputs
      exact List.ne_nil_of_mem ((hsame input).mpr hinput)
    have haccepted' : ∀ input ∈ inputs', Accepted disk' input := fun input hinput =>
      accepted_of_relisted hlisted hwf (haccepted input ((hsame input).mp hinput))
    obtain ⟨paths', hcollect', hsorted', hmem', _⟩ := exists_collect hwf' hinputs' haccepted'
    refine ⟨paths', hcollect', hsorted'.map_components_eq hsorted fun cs => ?_⟩
    rw [hmem, hmem']
    constructor
    · rintro ⟨input, hinput, hcs⟩
      exact ⟨input, (hsame input).mp hinput, standsFor_of_relisted hlisted.symm hwf' hcs⟩
    · rintro ⟨input, hinput, hcs⟩
      exact ⟨input, (hsame input).mpr hinput, standsFor_of_relisted hlisted hwf hcs⟩
  · exact exists_collect_eq_error hwf

/-- Scripts that are named beside the directory that holds them are collected once, and a directory
may have the name of a script. -/
theorem collect_overlapping_inputs :
    let scripts := FileTree.directory [("z.py", .file (some "")),
      (".git", .directory [("hook.py", .file (some ""))]),
      ("d.py", .directory [("inner.py", .file (some "")), ("notes.txt", .file none)])]
    let disk : Disk := ⟨.directory [("lib", scripts), ("a.py", .file none)], []⟩
    disk.root.WellFormed ∧
      (∃ paths, collect disk ["lib", "a.py", "lib/z.py", "lib"] = .ok paths ∧ Sorted paths ∧
        (∀ cs, cs ∈ paths.map components ↔
          ∃ input ∈ ["lib", "a.py", "lib/z.py", "lib"], StandsFor disk input cs) ∧
        paths = ["a.py", "lib/d.py/inner.py", "lib/z.py"].map String.toList) ∧
      collect disk ["a.py", "lib/d.py/notes.txt", "lib/none.py"] =
        .error (.notScript "lib/d.py/notes.txt") := by
  intro scripts disk
  have hwf : disk.root.WellFormed := by decide +kernel
  have hcollect : collect disk ["lib", "a.py", "lib/z.py", "lib"] =
      .ok (["a.py", "lib/d.py/inner.py", "lib/z.py"].map String.toList) := by decide +kernel
  refine ⟨hwf, ?_, ?_⟩
  · have haccepted : ∀ input ∈ ["lib", "a.py", "lib/z.py", "lib"], Accepted disk input := by
      decide +kernel
    obtain ⟨paths, hpaths, hsorted, hmem, _⟩ :=
      (collect_gathers hwf (List.cons_ne_nil _ _)).1 haccepted
    refine ⟨paths, hpaths, hsorted, hmem, ?_⟩
    rw [hcollect] at hpaths
    exact (Except.ok.inj hpaths).symm
  · decide +kernel

/-- A file whose name is the ending of scripts alone ends as they do, and is refused. -/
theorem collect_refuses_bare_ending :
    let disk : Disk := ⟨.directory [(".py", .file (some ""))], []⟩
    disk.root.WellFormed ∧ disk.find ".py".toList = .ok (.file (some "")) ∧
      ".py".toList <:+ ".py".toList ∧ collect disk [".py"] = .error (.notScript ".py") := by
  intro disk
  exact ⟨by decide +kernel, rfl, List.suffix_refl _, by decide +kernel⟩

end Scriptorium.Collection
