/-
What a catalog keeps: of the scripts that are not excluded, those that are no versions, and in each
directory the first of the newest versions.

While the reports are passed, the leader of a directory is the first of the newest so far
(`isLeader_leadersOf`); in the end a report leads exactly if it is the first of the newest of all
(`leads_iff`). Excluded reports are left out before, and `map_fst_filter_leads` puts the places
among the others back into the whole list. As no two paths of one directory are equal versions, the
order of the reports does not count when their paths are distinct.
-/

import Mathlib.Data.List.Induction
import Mathlib.Data.List.Nodup
import Scriptorium.Catalog.Assembly
import Scriptorium.Proofs.Catalog.VersionOrder

namespace Scriptorium.Catalog

variable {config : Config} {directory : List Char} {before after reports : List Report}
  {r s t : Report}

/-! ### Versions -/

/-- The directory of a report whose file is named for a version. -/
def directory? (r : Report) : Option (List Char) :=
  versionDirectory? r.path.toList

/-- The version of `s` is newer than that of `r`. -/
def OlderThan (r s : Report) : Prop :=
  older r.path.toList s.path.toList = true

/-- Neither version is newer. -/
def SameVersion (r s : Report) : Prop :=
  ¬OlderThan r s ∧ ¬OlderThan s r

theorem olderThan_iff :
    OlderThan r s ↔ versionKey r.path.toList < versionKey s.path.toList :=
  older_iff

theorem not_olderThan_iff :
    ¬OlderThan r s ↔ versionKey s.path.toList ≤ versionKey r.path.toList := by
  rw [olderThan_iff, not_lt]

/-! ### Leaders of directories -/

theorem leader?_enter (version : Leader) (leaders : List Leader) :
    leader? directory (enter version leaders) =
      if version.directory = directory then
        match leader? directory leaders with
        | none => some version
        | some leader => some (if older leader.path version.path then version else leader)
      else leader? directory leaders := by
  induction leaders with
  | nil => by_cases h : version.directory = directory <;> simp [leader?, enter, h]
  | cons leader leaders ih =>
    simp only [leader?] at ih ⊢
    by_cases hsame : leader.directory = version.directory
    · by_cases h : version.directory = directory
      · by_cases holder : older leader.path version.path = true <;>
          simp [enter, hsame, h, holder]
      · by_cases holder : older leader.path version.path = true <;>
          simp [enter, hsame, h, holder]
    · rw [enter, if_neg hsame]
      by_cases h : leader.directory = directory
      · have hother : version.directory ≠ directory := fun heq => hsame (h.trans heq.symm)
        simp [h, hother]
      · simp [h, ih]

/-- What one more report does to the leader of a directory. -/
theorem leader?_leadersOf_concat (reports : List Report) (r : Report) :
    leader? directory (leadersOf (reports ++ [r])) =
      if directory? r = some directory then
        match leader? directory (leadersOf reports) with
        | none => some ⟨directory, r.path.toList, reports.length⟩
        | some leader =>
          some (if older leader.path r.path.toList then ⟨directory, r.path.toList, reports.length⟩
            else leader)
      else leader? directory (leadersOf reports) := by
  have hpass : leadersOf (reports ++ [r]) = pass (leadersOf reports) (r, reports.length) := by
    simp [leadersOf, List.zipIdx_append]
  rw [hpass, pass, directory?]
  cases versionDirectory? r.path.toList with
  | none => simp
  | some found =>
    simp only [leader?_enter, Option.some.injEq]
    by_cases h : found = directory
    · subst h
      simp
    · simp [h]

/-- `r` is the first of the newest versions in a directory. -/
structure IsFirstNewest (directory : List Char) (before : List Report) (r : Report)
    (after : List Report) : Prop where
  version : directory? r = some directory
  before : ∀ s ∈ before, directory? s = some directory → OlderThan s r
  after : ∀ s ∈ after, directory? s = some directory → ¬OlderThan r s

/-- A leader is the first of the newest versions in its directory, with its place. -/
def IsLeader (directory : List Char) (reports : List Report) (leader : Leader) : Prop :=
  ∃ before r after, reports = before ++ r :: after ∧
    leader = ⟨directory, r.path.toList, before.length⟩ ∧ IsFirstNewest directory before r after

/-- A leader stays when the next report is of another directory or is not newer. -/
theorem IsLeader.concat {leader : Leader} (h : IsLeader directory reports leader)
    (hr : directory? r = some directory → older leader.path r.path.toList = false) :
    IsLeader directory (reports ++ [r]) leader := by
  obtain ⟨before, t, after, rfl, rfl, hfirst⟩ := h
  refine ⟨before, t, after ++ [r], by simp, rfl, hfirst.version, hfirst.before, ?_⟩
  intro s hs hversion
  rcases List.mem_append.mp hs with hs | hs
  · exact hfirst.after s hs hversion
  · rw [List.mem_singleton.mp hs] at hversion ⊢
    simp [OlderThan, hr hversion]

/-- A newer version takes the lead: all versions passed are older. -/
theorem IsLeader.supersede {leader : Leader} (h : IsLeader directory reports leader)
    (hversion : directory? r = some directory) (hr : older leader.path r.path.toList = true) :
    IsLeader directory (reports ++ [r]) ⟨directory, r.path.toList, reports.length⟩ := by
  obtain ⟨before, t, after, rfl, rfl, hfirst⟩ := h
  have ht : OlderThan t r := hr
  refine ⟨before ++ t :: after, r, [], rfl, rfl, hversion, ?_, by simp⟩
  intro s hs hrival
  rw [olderThan_iff] at ht ⊢
  rcases List.mem_append.mp hs with hs | hs
  · exact lt_trans (olderThan_iff.mp (hfirst.before s hs hrival)) ht
  rcases List.mem_cons.mp hs with rfl | hs
  · exact ht
  · exact lt_of_le_of_lt (not_olderThan_iff.mp (hfirst.after s hs hrival)) ht

/-- A directory with a version has a leader, which is the first of its newest versions. -/
theorem isLeader_leadersOf (directory : List Char) (reports : List Report) :
    (∀ leader, leader? directory (leadersOf reports) = some leader →
        IsLeader directory reports leader) ∧
      (leader? directory (leadersOf reports) = none →
        ∀ s ∈ reports, directory? s ≠ some directory) := by
  induction reports using List.reverseRecOn with
  | nil => simp [leadersOf, leader?]
  | append_singleton reports r ih =>
    obtain ⟨hsome, hnone⟩ := ih
    rw [leader?_leadersOf_concat]
    by_cases hversion : directory? r = some directory
    · rw [if_pos hversion]
      refine ⟨?_, by cases leader? directory (leadersOf reports) <;> simp⟩
      cases hleader : leader? directory (leadersOf reports) with
      | none =>
        rintro _ ⟨⟩
        refine ⟨reports, r, [], rfl, rfl, hversion, ?_, by simp⟩
        exact fun s hs hrival => absurd hrival (hnone hleader s hs)
      | some leader =>
        rintro _ ⟨⟩
        by_cases holder : older leader.path r.path.toList = true
        · rw [if_pos holder]
          exact (hsome leader hleader).supersede hversion holder
        · rw [if_neg holder]
          exact (hsome leader hleader).concat fun _ => by simpa using holder
    · rw [if_neg hversion]
      refine ⟨fun leader hleader => (hsome leader hleader).concat (absurd · hversion), ?_⟩
      intro hleader s hs
      rcases List.mem_append.mp hs with hs | hs
      · exact hnone hleader s hs
      · rwa [List.mem_singleton.mp hs]

/-- In a directory there is only one first of the newest versions. -/
theorem IsFirstNewest.length_eq {before' after' : List Report} {r' : Report}
    (h : IsFirstNewest directory before r after) (h' : IsFirstNewest directory before' r' after')
    (heq : before ++ r :: after = before' ++ r' :: after') : before.length = before'.length := by
  rcases List.append_eq_append_iff.mp heq with ⟨c, rfl, hc⟩ | ⟨c, rfl, hc⟩
  · cases c with
    | nil => simp
    | cons x c =>
      obtain ⟨rfl, rfl⟩ := List.cons.inj hc
      exact absurd (h'.before r (by simp) h.version) (h.after r' (by simp) h'.version)
  · cases c with
    | nil => simp
    | cons x c =>
      obtain ⟨rfl, rfl⟩ := List.cons.inj hc
      exact absurd (h.before r' (by simp) h'.version) (h'.after r (by simp) h.version)

/-- In the end a version leads exactly if it is the first of the newest in its directory. -/
theorem leads_iff : leads (leadersOf (before ++ r :: after)) (r, before.length) = true ↔
    ∀ directory, directory? r = some directory → IsFirstNewest directory before r after := by
  cases hversion : directory? r with
  | none =>
    rw [directory?] at hversion
    simp [leads, hversion]
  | some directory =>
    have hleads : leads (leadersOf (before ++ r :: after)) (r, before.length) = true ↔
        (leader? directory (leadersOf (before ++ r :: after))).map Leader.place =
          some before.length := by
      rw [directory?] at hversion
      simp [leads, hversion]
    obtain ⟨hsome, hnone⟩ := isLeader_leadersOf directory (before ++ r :: after)
    simp only [hleads, Option.some.injEq, forall_eq']
    constructor
    · intro hplace
      obtain ⟨leader, hleader, hplace⟩ := Option.map_eq_some_iff.mp hplace
      obtain ⟨before', r', after', heq, rfl, hfirst⟩ := hsome leader hleader
      obtain ⟨rfl, htail⟩ := List.append_inj heq hplace.symm
      obtain ⟨rfl, rfl⟩ := List.cons.inj htail
      exact hfirst
    · intro hfirst
      cases hleader : leader? directory (leadersOf (before ++ r :: after)) with
      | none => exact absurd hversion (hnone hleader r (by simp))
      | some leader =>
        obtain ⟨before', r', after', heq, rfl, hfirst'⟩ := hsome leader hleader
        simp [hfirst.length_eq hfirst' heq]

/-! ### What stays -/

/-- A report that is not excluded and is a version in a directory. -/
structure IsRival (config : Config) (directory : List Char) (s : Report) : Prop where
  included : config.isExcluded s.path = false
  version : directory? s = some directory

/-- What keeps a report that stands between `before` and `after` in a catalog: it is not excluded,
and in its directory no version is newer and none before it is the same. -/
structure Stays (config : Config) (before : List Report) (r : Report) (after : List Report) :
    Prop where
  included : config.isExcluded r.path = false
  newest : ∀ directory, directory? r = some directory → ∀ s ∈ before ++ after,
    IsRival config directory s → ¬OlderThan r s
  first : ∀ directory, directory? r = some directory → ∀ s ∈ before,
    IsRival config directory s → ¬SameVersion s r

/-- The reports that are not excluded. -/
def candidates (config : Config) (reports : List Report) : List Report :=
  reports.filter fun r => !config.isExcluded r.path

theorem mem_candidates :
    s ∈ candidates config reports ↔ s ∈ reports ∧ config.isExcluded s.path = false := by
  simp [candidates]

/-- Among the reports that are not excluded, those stay that lead their directories. -/
theorem stays_iff (hr : config.isExcluded r.path = false) : Stays config before r after ↔
    ∀ directory, directory? r = some directory →
      IsFirstNewest directory (candidates config before) r (candidates config after) := by
  constructor
  · intro h directory hversion
    refine ⟨hversion, fun s hs hrival => ?_, fun s hs hrival => ?_⟩
    · obtain ⟨hmem, hincluded⟩ := mem_candidates.mp hs
      have hrival : IsRival config directory s := ⟨hincluded, hrival⟩
      have hnewest := h.newest directory hversion s (by simp [hmem]) hrival
      by_contra holder
      exact h.first directory hversion s hmem hrival ⟨holder, hnewest⟩
    · obtain ⟨hmem, hincluded⟩ := mem_candidates.mp hs
      exact h.newest directory hversion s (by simp [hmem]) ⟨hincluded, hrival⟩
  · intro h
    refine ⟨hr, fun directory hversion s hs hrival => ?_, fun directory hversion s hs hrival => ?_⟩
    · have hfirst := h directory hversion
      rcases List.mem_append.mp hs with hs | hs
      · have holder := hfirst.before s (mem_candidates.mpr ⟨hs, hrival.included⟩) hrival.version
        rw [olderThan_iff] at holder
        exact not_olderThan_iff.mpr holder.le
      · exact hfirst.after s (mem_candidates.mpr ⟨hs, hrival.included⟩) hrival.version
    · have hfirst := h directory hversion
      have holder := hfirst.before s (mem_candidates.mpr ⟨hs, hrival.included⟩) hrival.version
      exact fun hsame => hsame.1 holder

/-- The report at a place of the list stays. -/
def StaysAt (config : Config) (reports : List Report) (report : Report × Nat) : Prop :=
  Stays config (reports.take report.2) report.1 (reports.drop (report.2 + 1))

theorem staysAt_iff : StaysAt config (before ++ r :: after) (r, before.length) ↔
    Stays config before r after := by
  have hdrop : (before ++ r :: after).drop (before.length + 1) = after := by
    rw [← List.drop_drop, List.drop_left, List.drop_one, List.tail_cons]
  rw [StaysAt, List.take_left, hdrop]

open Classical in
/-- The reports that stay, with their places. -/
noncomputable def kept (config : Config) (reports : List Report) : List (Report × Nat) :=
  reports.zipIdx.filter fun report => StaysAt config reports report

theorem mem_kept {i : Nat} : (r, i) ∈ kept config reports ↔
    ∃ before after, reports = before ++ r :: after ∧ before.length = i ∧
      Stays config before r after := by
  simp only [kept, List.mem_filter, List.mem_zipIdx_iff_getElem?, decide_eq_true_eq]
  constructor
  · rintro ⟨hget, hstays⟩
    obtain ⟨hi, rfl⟩ := List.getElem?_eq_some_iff.mp hget
    refine ⟨reports.take i, reports.drop (i + 1), ?_, by simp [hi.le], hstays⟩
    rw [List.getElem_cons_drop, List.take_append_drop]
  · rintro ⟨before, after, rfl, rfl, hstays⟩
    exact ⟨by simp, staysAt_iff.mpr hstays⟩

theorem candidates_append (config : Config) (before after : List Report) :
    candidates config (before ++ after) = candidates config before ++ candidates config after :=
  List.filter_append before after

theorem candidates_cons_of_included (hr : config.isExcluded r.path = false) :
    candidates config (r :: reports) = r :: candidates config reports :=
  List.filter_cons_of_pos (by simp [hr])

theorem candidates_cons_of_excluded (hr : config.isExcluded r.path = true) :
    candidates config (r :: reports) = candidates config reports :=
  List.filter_cons_of_neg (by simp [hr])

open Classical in
/-- Behind `before`, the candidates that lead are the reports that stay. -/
theorem map_fst_filter_leads (config : Config) (before after : List Report) :
    (((candidates config after).zipIdx (candidates config before).length).filter
      (leads (leadersOf (candidates config (before ++ after))))).map Prod.fst =
    ((after.zipIdx before.length).filter
      fun report => StaysAt config (before ++ after) report).map Prod.fst := by
  induction after generalizing before with
  | nil => simp [candidates]
  | cons r after ih =>
    have hmore := ih (before ++ [r])
    rw [List.append_assoc, List.singleton_append, candidates_append config before [r],
      List.length_append, List.length_append, List.length_singleton] at hmore
    rw [List.zipIdx_cons]
    cases hr : config.isExcluded r.path with
    | true =>
      have hout : ¬StaysAt config (before ++ r :: after) (r, before.length) := by
        rw [staysAt_iff]
        intro hstays
        rw [hstays.included] at hr
        cases hr
      rw [candidates_cons_of_excluded hr, List.filter_cons_of_neg (by simpa using hout), ← hmore,
        candidates_cons_of_excluded hr]
      rfl
    | false =>
      have hleads : leads (leadersOf (candidates config (before ++ r :: after)))
          (r, (candidates config before).length) = true ↔
          StaysAt config (before ++ r :: after) (r, before.length) := by
        rw [staysAt_iff, stays_iff hr, ← leads_iff, candidates_append,
          candidates_cons_of_included hr]
      rw [candidates_cons_of_included hr] at hmore ⊢
      rw [List.zipIdx_cons]
      by_cases hstays : StaysAt config (before ++ r :: after) (r, before.length)
      · rw [List.filter_cons_of_pos (hleads.mpr hstays),
          List.filter_cons_of_pos (by simpa using hstays), List.map_cons, List.map_cons, ← hmore]
        rfl
      · rw [List.filter_cons_of_neg (mt hleads.mp hstays),
          List.filter_cons_of_neg (by simpa using hstays), ← hmore]
        rfl

theorem select_eq (config : Config) (reports : List Report) :
    select config reports = (kept config reports).map Prod.fst :=
  map_fst_filter_leads config [] reports

theorem mem_select : r ∈ select config reports ↔
    ∃ before after, reports = before ++ r :: after ∧ Stays config before r after := by
  simp only [select_eq, List.mem_map, Prod.exists, exists_and_right, exists_eq_right, mem_kept]
  constructor
  · rintro ⟨_, before, after, heq, _, hstays⟩
    exact ⟨before, after, heq, hstays⟩
  · rintro ⟨before, after, heq, hstays⟩
    exact ⟨_, before, after, heq, rfl, hstays⟩

/-- In the directory of a version that is not excluded some version stays. -/
theorem exists_mem_select (hr : r ∈ reports) (hincluded : config.isExcluded r.path = false)
    (hversion : directory? r = some directory) :
    ∃ s ∈ select config reports, directory? s = some directory := by
  obtain ⟨hsome, hnone⟩ := isLeader_leadersOf directory (candidates config reports)
  cases hleader : leader? directory (leadersOf (candidates config reports)) with
  | none => exact absurd hversion (hnone hleader r (mem_candidates.mpr ⟨hr, hincluded⟩))
  | some leader =>
    obtain ⟨before, s, after, heq, _, hfirst⟩ := hsome leader hleader
    have hleads : leads (leadersOf (before ++ s :: after)) (s, before.length) = true := by
      rw [leads_iff]
      intro other hother
      rw [hfirst.version] at hother
      cases hother
      exact hfirst
    have hmem : (s, before.length) ∈ (before ++ s :: after).zipIdx := by
      simp [List.mem_zipIdx_iff_getElem?]
    refine ⟨s, ?_, hfirst.version⟩
    rw [select, ← candidates, heq, newest]
    exact List.mem_map.mpr ⟨_, List.mem_filter.mpr ⟨hmem, hleads⟩, rfl⟩

/-! ### Records -/

/-- Records are made of the kept reports, in order. -/
theorem forall₂_records (config : Config) (version generatedAt : String) (reports : List Report) :
    List.Forall₂ (fun record r => ∃ identifier, record = r.toRecord identifier)
      (build config version generatedAt reports).scripts (select config reports) := by
  have hrecords (rs : List Report) (ids : List String) (h : ids.length = rs.length) :
      List.Forall₂ (fun record r => ∃ identifier, record = Report.toRecord r identifier)
        (List.zipWith Report.toRecord rs ids) rs := by
    induction rs generalizing ids with
    | nil => exact .nil
    | cons r rs ih =>
      cases ids with
      | nil => cases h
      | cons id ids => exact .cons ⟨id, rfl⟩ (ih ids (Nat.succ.inj h))
  exact hrecords _ _ (by simp)

theorem map_path_scripts (config : Config) (version generatedAt : String)
    (reports : List Report) :
    (build config version generatedAt reports).scripts.map Record.path =
      (select config reports).map Report.path := by
  rw [← List.forall₂_eq_eq_eq, List.forall₂_map_left_iff, List.forall₂_map_right_iff]
  refine (forall₂_records config version generatedAt reports).imp ?_
  rintro record r ⟨identifier, rfl⟩
  rfl

theorem getElem?_of_mem_kept {i : Nat} (h : (r, i) ∈ kept config reports) :
    reports[i]? = some r := by
  obtain ⟨before, after, rfl, rfl, _⟩ := mem_kept.mp h
  simp

/-- The records of a catalog belong to the places of the reports that stay, one to each. -/
theorem forall₂_scripts (config : Config) (version generatedAt : String)
    (reports : List Report) :
    List.Forall₂ (fun record i => ∃ r identifier, reports[i]? = some r ∧
        record = r.toRecord identifier)
      (build config version generatedAt reports).scripts
      ((kept config reports).map Prod.snd) := by
  have hrecords := forall₂_records config version generatedAt reports
  rw [select_eq, List.forall₂_map_right_iff] at hrecords
  have hplaces : ∀ report ∈ kept config reports, reports[report.2]? = some report.1 :=
    fun report hmem => getElem?_of_mem_kept hmem
  rw [List.forall₂_map_right_iff]
  refine (((List.forall₂_and_left _ _).mpr ⟨hplaces, hrecords.flip⟩).imp ?_).flip
  rintro ⟨r, i⟩ record ⟨hget, identifier, hrecord⟩
  exact ⟨r, identifier, hget, hrecord⟩

theorem pairwise_places (config : Config) (reports : List Report) :
    ((kept config reports).map Prod.snd).Pairwise (· < ·) := by
  have hsublist : ((kept config reports).map Prod.snd).Sublist (reports.zipIdx.map Prod.snd) :=
    List.filter_sublist.map _
  rw [List.zipIdx_map_snd] at hsublist
  exact (List.pairwise_lt_range' 1).sublist hsublist

/-! ### Distinct paths -/

/-- A report that is not excluded, and newer than every other version in its directory. -/
def Prevails (config : Config) (reports : List Report) (r : Report) : Prop :=
  config.isExcluded r.path = false ∧
    ∀ directory, directory? r = some directory → ∀ s ∈ reports, s.path ≠ r.path →
      IsRival config directory s → OlderThan s r

/-- Versions of one directory at distinct paths are not the same. -/
theorem olderThan_of_path_ne (hr : directory? r = some directory)
    (hs : directory? s = some directory) (hne : s.path ≠ r.path) (h : ¬OlderThan r s) :
    OlderThan s r := by
  rw [olderThan_iff]
  refine lt_of_le_of_ne (not_olderThan_iff.mp h) fun hkey => hne ?_
  exact String.toList_injective (eq_of_versionKey_eq hs hr hkey)

theorem stays_iff_prevails (hnodup : ((before ++ r :: after).map Report.path).Nodup) :
    Stays config before r after ↔ Prevails config (before ++ r :: after) r := by
  have hne : ∀ s ∈ before ++ after, s.path ≠ r.path := by
    rw [List.map_append, List.map_cons, List.nodup_middle, List.nodup_cons] at hnodup
    intro s hs heq
    refine hnodup.1 ?_
    rw [← List.map_append, List.mem_map]
    exact ⟨s, hs, heq⟩
  have hmem : ∀ s ∈ before ++ r :: after, s.path ≠ r.path → s ∈ before ++ after := by
    intro s hs hpath
    simp only [List.mem_append, List.mem_cons] at hs ⊢
    rcases hs with hs | rfl | hs
    · exact .inl hs
    · exact absurd rfl hpath
    · exact .inr hs
  constructor
  · intro h
    refine ⟨h.included, fun directory hversion s hs hpath hrival => ?_⟩
    exact olderThan_of_path_ne hversion hrival.version hpath
      (h.newest directory hversion s (hmem s hs hpath) hrival)
  · rintro ⟨hincluded, h⟩
    have holder : ∀ directory, directory? r = some directory → ∀ s ∈ before ++ after,
        IsRival config directory s → OlderThan s r := by
      intro directory hversion s hs hrival
      refine h directory hversion s ?_ (hne s hs) hrival
      simp only [List.mem_append, List.mem_cons] at hs ⊢
      exact hs.imp_right .inr
    refine ⟨hincluded, fun directory hversion s hs hrival => ?_,
      fun directory hversion s hs hrival hsame => ?_⟩
    · have := olderThan_iff.mp (holder directory hversion s hs hrival)
      exact not_olderThan_iff.mpr this.le
    · exact hsame.1 (holder directory hversion s (by simp [hs]) hrival)

theorem mem_paths_iff (hnodup : (reports.map Report.path).Nodup) (path : String) :
    path ∈ (select config reports).map Report.path ↔
      ∃ r ∈ reports, r.path = path ∧ Prevails config reports r := by
  simp only [select_eq, List.mem_map, Prod.exists, exists_and_right, exists_eq_right]
  constructor
  · rintro ⟨r, ⟨i, hmem⟩, rfl⟩
    obtain ⟨before, after, rfl, _, hstays⟩ := mem_kept.mp hmem
    exact ⟨r, by simp, rfl, (stays_iff_prevails hnodup).mp hstays⟩
  · rintro ⟨r, hr, rfl, hprevails⟩
    obtain ⟨before, after, rfl⟩ := List.append_of_mem hr
    refine ⟨r, ⟨before.length, mem_kept.mpr ⟨before, after, rfl, rfl, ?_⟩⟩, rfl⟩
    exact (stays_iff_prevails hnodup).mpr hprevails

theorem Prevails.perm {reports' : List Report} (hperm : reports.Perm reports') :
    Prevails config reports r ↔ Prevails config reports' r := by
  simp only [Prevails, hperm.mem_iff]

/-- A report that is not excluded and no version stays anywhere. -/
theorem stays_of_directory?_eq_none (hincluded : config.isExcluded r.path = false)
    (hversion : directory? r = none) : Stays config before r after where
  included := hincluded
  newest directory hdirectory := by
    rw [hversion] at hdirectory
    cases hdirectory
  first directory hdirectory := by
    rw [hversion] at hdirectory
    cases hdirectory

/-- Of two versions at one path the second does not stay. -/
theorem not_stays_of_path_eq (hs : s ∈ before) (hpath : s.path = r.path)
    (hdirectory : directory? r = some directory) : ¬Stays config before r after := by
  intro hstays
  have hrival : IsRival config directory s :=
    ⟨hpath ▸ hstays.included, by rwa [directory?, hpath]⟩
  refine hstays.first directory hdirectory s hs hrival ⟨?_, ?_⟩
  · rw [not_olderThan_iff, hpath]
  · rw [not_olderThan_iff, hpath]

/-- The paths of the kept reports are distinct exactly if a path that is repeated is excluded or is
that of a version. -/
theorem nodup_paths_select_iff (config : Config) (reports : List Report) :
    ((select config reports).map Report.path).Nodup ↔
      reports.Pairwise fun r s => r.path = s.path →
        config.isExcluded r.path = true ∨ (directory? r).isSome = true := by
  rw [select_eq, kept, List.map_map, List.Nodup, List.pairwise_map, List.pairwise_filter,
    List.pairwise_iff_getElem, List.pairwise_iff_getElem]
  simp only [List.length_zipIdx, List.getElem_zipIdx, decide_eq_true_eq, Function.comp_apply,
    Nat.zero_add]
  refine forall₅_congr fun i j hi hj hij => ?_
  have hbefore : reports[i] ∈ reports.take j := List.mem_take_iff_getElem.mpr ⟨i, by omega, rfl⟩
  constructor
  · intro h hpath
    cases hexcluded : config.isExcluded reports[i].path with
    | true => exact .inl rfl
    | false =>
      refine .inr (Option.isSome_iff_ne_none.mpr fun hversion => ?_)
      have hstays : StaysAt config reports (reports[i], i) :=
        stays_of_directory?_eq_none hexcluded hversion
      have hstays' : StaysAt config reports (reports[j], j) :=
        stays_of_directory?_eq_none (hpath ▸ hexcluded) (by rwa [directory?, ← hpath])
      exact h hstays hstays' hpath
  · intro h hstays hstays' hpath
    rcases h hpath with hexcluded | hversion
    · rw [hstays.included] at hexcluded
      cases hexcluded
    · obtain ⟨directory, hdirectory⟩ := Option.isSome_iff_exists.mp hversion
      have hlater : directory? reports[j] = some directory := by rwa [directory?, ← hpath]
      exact not_stays_of_path_eq hbefore hpath hlater hstays'

/-! ### Displacement -/

/-- The version at `a` displaces that at `b`: no catalog of both keeps the one at `b`. -/
def Displaces (a b : String) : Prop :=
  ∀ (config : Config) (version generatedAt : String) (reports : List Report),
    a ∈ reports.map Report.path → config.isExcluded a = false →
      b ∉ (build config version generatedAt reports).scripts.map Record.path

/-- A newer version in the directory leaves no place for an older one. -/
theorem not_stays_of_olderThan (hs : s ∈ before ++ r :: after) (holder : OlderThan r s)
    (hincluded : config.isExcluded s.path = false) (hr : directory? r = some directory)
    (hversion : directory? s = some directory) : ¬Stays config before r after := by
  intro hstays
  have hother : s ∈ before ++ after := by
    rw [List.mem_append, List.mem_cons] at hs
    rcases hs with hs | rfl | hs
    · exact List.mem_append_left after hs
    · exact absurd (olderThan_iff.mp holder) (lt_irrefl _)
    · exact List.mem_append_right before hs
  exact hstays.newest directory hr s hother ⟨hincluded, hversion⟩ holder

/-- Of two versions in a directory the newer displaces the older, and nothing else does so. -/
theorem displaces_iff {a b : String} (ha : versionDirectory? a.toList = some directory)
    (hb : versionDirectory? b.toList = some directory) :
    Displaces a b ↔ older b.toList a.toList = true := by
  simp only [Displaces, map_path_scripts, select_eq, List.mem_map, Prod.exists, exists_and_right,
    exists_eq_right]
  constructor
  · intro h
    by_contra holder
    -- Of the two paths alone, in this order, the first is kept.
    have hstays : Stays {} [] ⟨b, "", {}, [], []⟩ [⟨a, "", {}, [], []⟩] :=
      ⟨rfl, by simpa [OlderThan] using fun _ _ _ => holder, by simp⟩
    refine h {} "" "" [⟨b, "", {}, [], []⟩, ⟨a, "", {}, [], []⟩] ?_ rfl ?_
    · exact ⟨_, List.mem_cons_of_mem _ List.mem_cons_self, rfl⟩
    · exact ⟨_, ⟨0, mem_kept.mpr ⟨[], _, rfl, rfl, hstays⟩⟩, rfl⟩
  · rintro holder config _ _ reports ⟨s, hs, rfl⟩ hincluded ⟨r, ⟨i, hkept⟩, rfl⟩
    obtain ⟨before, after, rfl, _, hstays⟩ := mem_kept.mp hkept
    exact not_stays_of_olderThan hs holder hincluded hb ha hstays

/-! ### Selection -/

/-- **Selection of scripts.** The records of a catalog are those of the reports that stay, each
once and in order; and when the paths are distinct, the order of the reports does not change which
paths are kept. -/
theorem build_keeps (config : Config) (version generatedAt : String) (reports : List Report) :
    (∃ places : List Nat, places.Pairwise (· < ·) ∧
      (∀ i, i ∈ places ↔ ∃ before r after, reports = before ++ r :: after ∧ before.length = i ∧
        Stays config before r after) ∧
      List.Forall₂ (fun record i => ∃ r identifier, reports[i]? = some r ∧
          record = r.toRecord identifier)
        (build config version generatedAt reports).scripts places) ∧
    ∀ reports' : List Report, reports.Perm reports' → (reports.map Report.path).Nodup →
      ∀ path, path ∈ (build config version generatedAt reports).scripts.map Record.path ↔
        path ∈ (build config version generatedAt reports').scripts.map Record.path := by
  constructor
  · refine ⟨(kept config reports).map Prod.snd, pairwise_places config reports, fun i => ?_,
      forall₂_scripts config version generatedAt reports⟩
    simp only [List.mem_map, Prod.exists, exists_eq_right, mem_kept]
    constructor
    · rintro ⟨r, before, after, h⟩
      exact ⟨before, r, after, h⟩
    · rintro ⟨before, r, after, h⟩
      exact ⟨r, before, after, h⟩
  · intro reports' hperm hnodup path
    have hnodup' : (reports'.map Report.path).Nodup := (hperm.map _).nodup_iff.mp hnodup
    rw [map_path_scripts, map_path_scripts, mem_paths_iff hnodup, mem_paths_iff hnodup']
    simp only [hperm.mem_iff, Prevails.perm hperm]

theorem build_keeps_of_swapped :
    [Report.mk "t/0.9.py" "t" {} [] [], Report.mk "t/0.10.py" "t" {} [] []].Perm
        [Report.mk "t/0.10.py" "t" {} [] [], Report.mk "t/0.9.py" "t" {} [] []] ∧
      ([Report.mk "t/0.9.py" "t" {} [] [],
        Report.mk "t/0.10.py" "t" {} [] []].map Report.path).Nodup ∧
      ("t/0.10.py" ∈ (build {} "1" "now" [Report.mk "t/0.9.py" "t" {} [] [],
          Report.mk "t/0.10.py" "t" {} [] []]).scripts.map Record.path ↔
        "t/0.10.py" ∈ (build {} "1" "now" [Report.mk "t/0.10.py" "t" {} [] [],
          Report.mk "t/0.9.py" "t" {} [] []]).scripts.map Record.path) := by
  have hperm := List.Perm.swap (Report.mk "t/0.10.py" "t" {} [] [])
    (Report.mk "t/0.9.py" "t" {} [] []) []
  have hnodup : ([Report.mk "t/0.9.py" "t" {} [] [],
      Report.mk "t/0.10.py" "t" {} [] []].map Report.path).Nodup := by
    simp
  exact ⟨hperm, hnodup, (build_keeps {} "1" "now" _).2 _ hperm hnodup "t/0.10.py"⟩

end Scriptorium.Catalog
