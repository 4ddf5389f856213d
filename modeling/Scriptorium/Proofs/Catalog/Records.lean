/-
The records of a catalog: each is found by its identifier, each is its report under that identifier,
and the reports that were kept make the same catalog again.

Identifiers are claimed for the kept reports only, so a report that is left out reserves no name.
What keeps a report is kept when others are left out (`Stays.mono`); hence of the kept reports all
stay (`stays_of_select`), and selecting again changes nothing (`select_select`).
-/

import Mathlib
import Scriptorium.Proofs.Catalog.Selection
import Scriptorium.Proofs.Identifier.Allocation

namespace Scriptorium.Catalog

open Identifier (Allocator)

variable {config : Config} {before after reports : List Report} {r s : Report}

/-! ### Selecting again -/

/-- A report stays when some of the others are left out. -/
theorem Stays.mono {before' after' : List Report} (h : Stays config before r after)
    (hbefore : before' ⊆ before) (hafter : after' ⊆ after) : Stays config before' r after' where
  included := h.included
  newest directory hversion s hs hrival := by
    refine h.newest directory hversion s ?_ hrival
    rcases List.mem_append.mp hs with hs | hs
    · exact List.mem_append_left after (hbefore hs)
    · exact List.mem_append_right before (hafter hs)
  first directory hversion s hs hrival := h.first directory hversion s (hbefore hs) hrival

/-- Among the reports that are kept, every one stays. -/
theorem stays_of_select (h : select config reports = before ++ r :: after) :
    Stays config before r after := by
  rw [select_eq, List.map_eq_append_iff] at h
  obtain ⟨earlier, rest, hkept, rfl, hrest⟩ := h
  obtain ⟨⟨r', i⟩, later, rfl, rfl, rfl⟩ := List.map_eq_cons_iff.mp hrest
  have hplaces := pairwise_places config reports
  rw [hkept, List.map_append, List.map_cons, List.pairwise_append, List.pairwise_cons] at hplaces
  obtain ⟨_, ⟨hlater, _⟩, hearlier⟩ := hplaces
  have hr : (r', i) ∈ kept config reports := by
    rw [hkept]
    exact List.mem_append_right earlier List.mem_cons_self
  obtain ⟨front, back, hreports, hlength, hstays⟩ := mem_kept.mp hr
  refine hstays.mono (fun s hs => ?_) (fun s hs => ?_)
  · obtain ⟨⟨s', j⟩, hmem, rfl⟩ := List.mem_map.mp hs
    have hj : j < i := hearlier j (List.mem_map_of_mem hmem) i List.mem_cons_self
    have hget := getElem?_of_mem_kept (hkept ▸ List.mem_append_left _ hmem)
    rw [hreports, List.getElem?_append_left (hlength ▸ hj)] at hget
    exact List.mem_of_getElem? hget
  · obtain ⟨⟨s', j⟩, hmem, rfl⟩ := List.mem_map.mp hs
    have hj : i < j := hlater j (List.mem_map_of_mem hmem)
    have hget := getElem?_of_mem_kept
      (hkept ▸ List.mem_append_right earlier (List.mem_cons_of_mem _ hmem))
    rw [hreports, List.getElem?_append_right (by omega),
      show j - front.length = (j - i - 1) + 1 by omega, List.getElem?_cons_succ] at hget
    exact List.mem_of_getElem? hget

/-- Reports that all stay are all kept. -/
theorem select_eq_self
    (h : ∀ before r after, reports = before ++ r :: after → Stays config before r after) :
    select config reports = reports := by
  have hkept : kept config reports = reports.zipIdx := by
    rw [kept, List.filter_eq_self]
    rintro ⟨r, i⟩ hmem
    have hget : reports[i]? = some r := List.mem_zipIdx_iff_getElem?.mp hmem
    obtain ⟨hi, rfl⟩ := List.getElem?_eq_some_iff.mp hget
    have hsplit : reports = reports.take i ++ reports[i] :: reports.drop (i + 1) := by
      rw [List.getElem_cons_drop, List.take_append_drop]
    have hin : (reports[i], i) ∈ kept config reports :=
      mem_kept.mpr ⟨_, _, hsplit, List.length_take_of_le hi.le, h _ _ _ hsplit⟩
    exact (List.mem_filter.mp hin).2
  rw [select_eq, hkept, List.zipIdx_map_fst]

theorem select_select (config : Config) (reports : List Report) :
    select config (select config reports) = select config reports :=
  select_eq_self fun _ _ _ h => stays_of_select h

/-! ### Records and identifiers -/

theorem map_identifier_scripts (config : Config) (version generatedAt : String)
    (reports : List Report) :
    (build config version generatedAt reports).scripts.map Record.identifier =
      Allocator.claimAll {} ((select config reports).map (·.identifierSeed)) := by
  have hidentifiers (rs : List Report) (ids : List String) (h : ids.length = rs.length) :
      (List.zipWith Report.toRecord rs ids).map Record.identifier = ids := by
    induction rs generalizing ids with
    | nil => exact (List.eq_nil_of_length_eq_zero h).symm
    | cons r rs ih =>
      cases ids with
      | nil => cases h
      | cons id ids => rw [List.zipWith_cons_cons, List.map_cons, ih ids (Nat.succ.inj h)]; rfl
  exact hidentifiers _ _ (by rw [Allocator.length_claimAll, List.length_map])

theorem nodup_identifiers (config : Config) (version generatedAt : String)
    (reports : List Report) :
    ((build config version generatedAt reports).scripts.map Record.identifier).Nodup := by
  rw [map_identifier_scripts]
  exact Allocator.nodup_claimAll _

/-- Where identifiers are distinct, a record is found by its own. -/
theorem find?_eq_some {c : Catalog} (hnodup : (c.scripts.map Record.identifier).Nodup)
    {record : Record} (h : record ∈ c.scripts) : c.find? record.identifier = some record := by
  have hsome : (c.find? record.identifier).isSome = true := by
    rw [find?, List.find?_isSome]
    exact ⟨record, h, beq_self_eq_true _⟩
  obtain ⟨found, hfound⟩ := Option.isSome_iff_exists.mp hsome
  have hmem : found ∈ c.scripts := List.mem_of_find?_eq_some hfound
  have hsame : found.identifier = record.identifier := by
    simpa using List.find?_some hfound
  rw [hfound, List.inj_on_of_nodup_map hnodup hmem h hsame]

/-! ### Catalogs -/

/-- The record holds what the report holds. -/
structure Carries (record : Record) (r : Report) : Prop where
  path : record.path = r.path
  manifest : record.manifest = r.manifest
  commands : record.commands = r.commands
  warnings : record.warnings = r.warnings

/-- **Records of a catalog.** The identifiers of a catalog are distinct, and every record is found
by its own; the records carry the contents of the kept reports, in order; and the kept reports
alone make the same catalog. -/
theorem find?_build (config : Config) (version generatedAt : String) (reports : List Report) :
    ((build config version generatedAt reports).scripts.map Record.identifier).Nodup ∧
      (∀ record ∈ (build config version generatedAt reports).scripts,
        (build config version generatedAt reports).find? record.identifier = some record) ∧
      (select config reports).Sublist reports ∧
      List.Forall₂ Carries (build config version generatedAt reports).scripts
        (select config reports) ∧
      build config version generatedAt (select config reports) =
        build config version generatedAt reports := by
  have hnodup := nodup_identifiers config version generatedAt reports
  refine ⟨hnodup, fun record h => find?_eq_some hnodup h, ?_, ?_, ?_⟩
  · rw [select_eq]
    exact (List.filter_sublist.map Prod.fst).trans (by rw [List.zipIdx_map_fst])
  · refine (forall₂_records config version generatedAt reports).imp ?_
    rintro record r ⟨identifier, rfl⟩
    exact ⟨rfl, rfl, rfl, rfl⟩
  · rw [build, select_select]
    rfl

theorem find?_build_of_collision :
    ∃ record ∈ (build {} "1" "now" [Report.mk "a/t/1.0.py" "t" {} [] [],
        Report.mk "b/t/2.0.py" "t" {} [] []]).scripts, record.identifier = "t_2" ∧
      (build {} "1" "now" [Report.mk "a/t/1.0.py" "t" {} [] [],
        Report.mk "b/t/2.0.py" "t" {} [] []]).find? record.identifier = some record := by
  have hmem : "t_2" ∈ (build {} "1" "now" [Report.mk "a/t/1.0.py" "t" {} [] [],
      Report.mk "b/t/2.0.py" "t" {} [] []]).scripts.map Record.identifier := by
    decide +kernel
  obtain ⟨record, hrecord, hidentifier⟩ := List.mem_map.mp hmem
  exact ⟨record, hrecord, hidentifier, (find?_build {} "1" "now" _).2.1 record hrecord⟩

end Scriptorium.Catalog
