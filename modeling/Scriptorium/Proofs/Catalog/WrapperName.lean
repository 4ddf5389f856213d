/-
Names of wrappers: an identifier, an underscore, and what a function's name leaves of itself.

An identifier is left as it is when the joined text is sanitized, so the name of a wrapper begins
with the identifier of its script (`toList_wrapperName`). Under one identifier the names of wrappers
are as distinct as the names of functions; under two, they meet exactly where the longer identifier
takes up the beginning of the other function's name (`wrapperName_eq_iff`).
-/

import Scriptorium.Inspection
import Scriptorium.Proofs.Catalog.Records
import Scriptorium.Proofs.Identifier.Parts

namespace Scriptorium

namespace Identifier

/-! ### The beginning of a name -/

/-- The name of a wrapper begins with the identifier of its script. -/
theorem toList_wrapperName {script : String} (h : IsIdentifier script.toList)
    (function : String) :
    (wrapperName script function).toList = script.toList ++ '_' :: parts function.toList := by
  rw [toList_wrapperName_eq, sanitizeChars_eq, parts_append, parts_of_isIdentifier h,
    parts_underscore, guardDigit_append h]

/-! ### Names that meet -/

/-- Two texts that are cut differently at a mark are one if the longer front takes up the beginning
of the other's back. -/
theorem append_mark_eq_iff {α : Type*} {mark : α} {i j s t : List α} (hne : i ≠ j) :
    i ++ mark :: s = j ++ mark :: t ↔
      (∃ w, j = i ++ mark :: w ∧ s = w ++ mark :: t) ∨
        ∃ w, i = j ++ mark :: w ∧ t = w ++ mark :: s := by
  rw [List.append_eq_append_iff]
  constructor
  · rintro (⟨middle, rfl, hmiddle⟩ | ⟨middle, rfl, hmiddle⟩)
    · cases middle with
      | nil => exact absurd (List.append_nil i).symm hne
      | cons a w =>
        obtain ⟨rfl, rfl⟩ := List.cons.inj hmiddle
        exact .inl ⟨w, rfl, rfl⟩
    · cases middle with
      | nil => exact absurd (List.append_nil j) hne
      | cons a w =>
        obtain ⟨rfl, rfl⟩ := List.cons.inj hmiddle
        exact .inr ⟨w, rfl, rfl⟩
  · rintro (⟨w, rfl, rfl⟩ | ⟨w, rfl, rfl⟩)
    · exact .inl ⟨mark :: w, rfl, rfl⟩
    · exact .inr ⟨mark :: w, rfl, rfl⟩

/-- The name of a function under an identifier runs into a longer identifier: what this one has
more, behind an underscore, is the beginning of the name, and the other function's name is the rest
behind another underscore. -/
def RunsInto (script function longer rest : String) : Prop :=
  ∃ w, longer.toList = script.toList ++ '_' :: w ∧
    parts function.toList = w ++ '_' :: parts rest.toList

theorem wrapperName_eq_iff {i j : String} (hi : IsIdentifier i.toList) (hj : IsIdentifier j.toList)
    (hne : i ≠ j) (f g : String) :
    wrapperName i f = wrapperName j g ↔ RunsInto i f j g ∨ RunsInto j g i f := by
  have hne' : i.toList ≠ j.toList := by
    intro heq
    exact hne (String.toList_inj.mp heq)
  rw [← String.toList_inj, toList_wrapperName hi, toList_wrapperName hj]
  exact append_mark_eq_iff hne'

/-- All identifiers of a run of claims have the form. -/
theorem isIdentifier_of_mem_claimAll {a : Allocator} {names : List String} {identifier : String}
    (h : identifier ∈ a.claimAll names) : IsIdentifier identifier.toList := by
  induction names generalizing a with
  | nil => cases h
  | cons name names ih =>
    rcases List.mem_cons.mp h with rfl | h
    · exact (Allocator.grants_fresh a name).isIdentifier
    · exact ih h

end Identifier

namespace Catalog

open Identifier (RunsInto wrapperName)

variable {config : Config} {version generatedAt : String} {reports : List Report} {r s : Record}

/-! ### Catalogs -/

theorem isIdentifier_of_mem_scripts
    (h : r ∈ (build config version generatedAt reports).scripts) :
    Identifier.IsIdentifier r.identifier.toList := by
  have hmem : r.identifier ∈
      (build config version generatedAt reports).scripts.map Record.identifier :=
    List.mem_map_of_mem h
  rw [map_identifier_scripts] at hmem
  exact Identifier.isIdentifier_of_mem_claimAll hmem

/-- **Names of wrappers.** Commands of two scripts of a catalog have one wrapper name only where the
name of one function runs into the identifier of the other script; elsewhere the names differ. -/
theorem wrapperName_eq_iff_of_mem_scripts
    (hr : r ∈ (build config version generatedAt reports).scripts)
    (hs : s ∈ (build config version generatedAt reports).scripts)
    (hne : r.identifier ≠ s.identifier) :
    ∀ c ∈ r.commands, ∀ d ∈ s.commands,
      (wrapperName r.identifier c.name = wrapperName s.identifier d.name ↔
        RunsInto r.identifier c.name s.identifier d.name ∨
          RunsInto s.identifier d.name r.identifier c.name) := by
  intro c _ d _
  exact Identifier.wrapperName_eq_iff (isIdentifier_of_mem_scripts hr)
    (isIdentifier_of_mem_scripts hs) hne c.name d.name

/-- The reports of two files with a command in each. -/
def twoScripts (first firstCommand second secondCommand : String) : List Report :=
  [Report.ofSource {} first ("@app.command()\ndef " ++ firstCommand ++ "():\n    pass\n"),
    Report.ofSource {} second ("@app.command()\ndef " ++ secondCommand ++ "():\n    pass\n")]

/-- A suffix that tells two identifiers apart also tells their wrappers apart. -/
theorem wrapperName_ne_of_suffix :
    let scripts := (build {} "1" "now" (twoScripts "a/tool.py" "run" "b/tool.py" "run")).scripts
    ∃ r ∈ scripts, ∃ s ∈ scripts, r.identifier = "tool" ∧ s.identifier = "tool_2" ∧
      ∃ c ∈ r.commands, ∃ d ∈ s.commands, c.name = "run" ∧ d.name = "run" ∧
        wrapperName r.identifier c.name ≠ wrapperName s.identifier d.name := by
  intro scripts
  have hscripts : ∃ r ∈ scripts, ∃ s ∈ scripts, r.identifier = "tool" ∧ s.identifier = "tool_2" ∧
      ∃ c ∈ r.commands, ∃ d ∈ s.commands, c.name = "run" ∧ d.name = "run" := by
    decide +kernel
  obtain ⟨r, hr, s, hs, hfirst, hsecond, c, hc, d, hd, hrun, hrun'⟩ := hscripts
  refine ⟨r, hr, s, hs, hfirst, hsecond, c, hc, d, hd, hrun, hrun', ?_⟩
  intro heq
  have hne : r.identifier ≠ s.identifier := by
    rw [hfirst, hsecond]
    decide
  have hmeets := (wrapperName_eq_iff_of_mem_scripts hr hs hne c hc d hd).mp heq
  rw [hfirst, hsecond, hrun, hrun'] at hmeets
  have hparts : Identifier.parts "run".toList = "run".toList := by decide +kernel
  rcases hmeets with ⟨w, hlonger, hname⟩ | ⟨w, hlonger, _⟩
  · -- The name would have to begin with the suffix.
    have hcut : "tool_".toList ++ ['2'] = "tool_".toList ++ w := hlonger
    obtain rfl : ['2'] = w := List.append_cancel_left hcut
    rw [hparts] at hname
    exact absurd (List.cons.inj hname).1 (by decide)
  · have hlength := congrArg List.length hlonger
    simp at hlength

/-- An identifier may take up the beginning of a function's name, and then two wrappers have one
name. -/
theorem wrapperName_eq_of_extension :
    let scripts := (build {} "1" "now" (twoScripts "a.py" "b_c" "a_b.py" "c")).scripts
    ∃ r ∈ scripts, ∃ s ∈ scripts, r.identifier ≠ s.identifier ∧
      ∃ c ∈ r.commands, ∃ d ∈ s.commands,
        wrapperName r.identifier c.name = wrapperName s.identifier d.name := by
  decide +kernel

end Catalog

end Scriptorium
