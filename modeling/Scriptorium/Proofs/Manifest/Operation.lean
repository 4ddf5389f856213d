/-
Manifests that are built step by step.

Entries are inserted, and the source is set or resolved, in any order. The entries come from the
insertions alone (`entries_after`): a key stays where it was first inserted and holds what was
inserted last under it (`get?_after_iff`). The source comes from the other operations alone, and a
resolution leaves it as it is once it is known (`source_after_append`).
-/

import Scriptorium.Proofs.Manifest.Insertion
import Scriptorium.Proofs.Text.Solid

namespace Scriptorium.Manifest

variable {key source : String} {value stored : Value}

/-! ### Operations -/

/-- What may be done to a manifest. -/
inductive Operation where
  | insert (key : String) (value : Value)
  /-- The source is set, or taken away. -/
  | setSource (source : Option String)
  | resolve (baseUrl path : String)
deriving DecidableEq, Repr

variable {operation : Operation} {operations more : List Operation}

/-- The manifest behind an operation. -/
def Operation.apply (m : Manifest) : Operation → Manifest
  | .insert key value => m.insert key value
  | .setSource source => { m with source }
  | .resolve baseUrl path => m.resolve baseUrl path

/-- What a resolution returns: the source behind it. -/
def resolution (m : Manifest) (baseUrl path : String) : String :=
  (m.resolve baseUrl path).source.getD ""

/-- The manifest that operations make of an empty one. -/
def after (operations : List Operation) : Manifest :=
  operations.foldl Operation.apply {}

theorem after_concat (operations : List Operation) (operation : Operation) :
    after (operations ++ [operation]) = operation.apply (after operations) :=
  List.foldl_concat ..

/-! ### Keys -/

/-- The entry that an operation inserts. -/
def Operation.entry? : Operation → Option (String × Value)
  | .insert key value => some (key, value)
  | .setSource _ | .resolve _ _ => none

/-- The entries that operations insert, in order. -/
def inserted (operations : List Operation) : List (String × Value) :=
  operations.filterMap Operation.entry?

theorem inserted_concat (operations : List Operation) (operation : Operation) :
    inserted (operations ++ [operation]) = inserted operations ++ operation.entry?.toList := by
  rw [inserted, List.filterMap_append]
  cases operation <;> rfl

/-- An operation that inserts nothing leaves the entries as they are. -/
theorem entries_apply_of_none (h : operation.entry? = none) (m : Manifest) :
    (operation.apply m).entries = m.entries := by
  cases operation with
  | insert key value => cases h
  | setSource source => rfl
  | resolve baseUrl path => rfl

/-- The entries are those of the insertions, whatever happens to the source. -/
theorem entries_after (operations : List Operation) :
    (after operations).entries = (ofEntries (inserted operations)).entries := by
  induction operations using List.reverseRecOn with
  | nil => rfl
  | append_singleton operations operation ih =>
    rw [after_concat, inserted_concat]
    cases hentry : operation.entry? with
    | none => rw [entries_apply_of_none hentry, ih, Option.toList_none, List.append_nil]
    | some entry =>
      cases operation with
      | insert key value =>
        cases hentry
        rw [Option.toList_some, ofEntries_concat, Operation.apply, insert, insert, ih]
      | setSource source => cases hentry
      | resolve baseUrl path => cases hentry

/-! ### Values -/

/-- The value that is stored for one inserted under a key. A scalar for the dependencies becomes a
list, without items if it is blank. -/
inductive IsStored (key : String) : (value stored : Value) → Prop
  | list (items : List String) : IsStored key (.list items) (.list items)
  | scalar (text : String) : key ≠ dependenciesKey → IsStored key (.scalar text) (.scalar text)
  | blank {text : String} : key = dependenciesKey → (∀ c ∈ text.toList, Text.isBlank c = true) →
      IsStored key (.scalar text) (.list [])
  | item {text : String} {c : Char} : key = dependenciesKey → c ∈ text.toList →
      Text.isBlank c = false → IsStored key (.scalar text) (.list [text])

theorem isStored_coerce (key : String) (value : Value) : IsStored key value (coerce key value) := by
  cases value with
  | list items => exact .list items
  | scalar text =>
    by_cases hkey : key = dependenciesKey
    · by_cases hblank : Text.trim text.toList = []
      · rw [coerce, if_pos hkey, if_pos hblank]
        exact .blank hkey (Text.trim_eq_nil_iff_forall.mp hblank)
      · rw [coerce, if_pos hkey, if_neg hblank]
        rw [Text.trim_eq_nil_iff_forall] at hblank
        push Not at hblank
        obtain ⟨c, hc, hsolid⟩ := hblank
        exact .item hkey hc (by simpa using hsolid)
    · rw [coerce, if_neg hkey]
      exact .scalar text hkey

theorem isStored_iff : IsStored key value stored ↔ stored = coerce key value := by
  constructor
  · intro h
    cases h with
    | list items => rfl
    | scalar text hkey => rw [coerce, if_neg hkey]
    | blank hkey hblank => rw [coerce, if_pos hkey, if_pos (Text.trim_eq_nil_iff_forall.mpr hblank)]
    | item hkey hc hsolid => rw [coerce, if_pos hkey, if_neg (Text.trim_ne_nil hsolid hc)]
  · rintro rfl
    exact isStored_coerce key value

/-- A value is the last one that operations insert under a key. -/
def LastInserted (operations : List Operation) (key : String) (value : Value) : Prop :=
  ∃ before behind, operations = before ++ .insert key value :: behind ∧
    ∀ other, .insert key other ∉ behind

theorem not_lastInserted_nil (key : String) (value : Value) : ¬LastInserted [] key value := by
  rintro ⟨before, behind, heq, _⟩
  simp at heq

theorem lastInserted_concat : LastInserted (operations ++ [operation]) key value ↔
    operation = .insert key value ∨
      (∀ other, operation ≠ .insert key other) ∧ LastInserted operations key value := by
  constructor
  · rintro ⟨before, behind, heq, hbehind⟩
    rcases List.eq_nil_or_concat behind with rfl | ⟨front, last, rfl⟩
    · obtain ⟨rfl, hlast⟩ := List.append_inj' heq rfl
      exact .inl (List.singleton_inj.mp hlast)
    · rw [List.concat_eq_append] at heq hbehind
      rw [← List.cons_append, ← List.append_assoc] at heq
      obtain ⟨rfl, hlast⟩ := List.append_inj' heq rfl
      cases List.singleton_inj.mp hlast
      refine .inr ⟨?_, before, front, rfl, fun other hmem => ?_⟩
      · rintro other rfl
        exact hbehind other (by simp)
      · exact hbehind other (List.mem_append_left _ hmem)
  · rintro (rfl | ⟨hother, before, behind, rfl, hbehind⟩)
    · exact ⟨operations, [], rfl, fun other => List.not_mem_nil⟩
    · refine ⟨before, behind ++ [operation], by simp, fun other hmem => ?_⟩
      rcases List.mem_append.mp hmem with hmem | hmem
      · exact hbehind other hmem
      · exact hother other (List.mem_singleton.mp hmem).symm

/-- A key holds what is stored for the value that was inserted last under it. -/
theorem get?_after_iff : (after operations).get? key = some stored ↔
    ∃ value, LastInserted operations key value ∧ IsStored key value stored := by
  induction operations using List.reverseRecOn with
  | nil =>
    have hnone : (after []).get? key = none := rfl
    simp [hnone, not_lastInserted_nil]
  | append_singleton operations operation ih =>
    simp only [lastInserted_concat, after_concat]
    cases operation with
    | insert k v =>
      rw [Operation.apply, get?_insert]
      by_cases hkey : key = k
      · subst hkey
        simp [isStored_iff, eq_comm]
      · simp [hkey, Ne.symm hkey, ih]
    | setSource source => simpa [Operation.apply, get?] using ih
    | resolve baseUrl path => simpa [Operation.apply, get?, resolve] using ih

theorem get?_dependencies_ne_scalar (operations : List Operation) (text : String) :
    (after operations).get? dependenciesKey ≠ some (.scalar text) := by
  intro h
  obtain ⟨value, _, hstored⟩ := get?_after_iff.mp h
  cases hstored with
  | scalar _ hkey => exact hkey rfl

/-! ### The source -/

theorem resolve_of_source {m : Manifest} (h : m.source = some source) (baseUrl path : String) :
    m.resolve baseUrl path = m ∧ m.resolution baseUrl path = source := by
  have hsame : m.resolve baseUrl path = m := by
    rw [resolve, h, Option.getD_some, ← h]
  rw [resolution, hsame, h]
  exact ⟨rfl, rfl⟩

/-- Behind a resolution the source is what it returned. -/
theorem source_resolve (m : Manifest) (baseUrl path : String) :
    (m.resolve baseUrl path).source = some (m.resolution baseUrl path) := rfl

/-- A known source stays until another one is set. -/
theorem source_after_append (h : (after operations).source = some source)
    (hmore : ∀ operation ∈ more, ∀ other, operation ≠ .setSource other) :
    (after (operations ++ more)).source = some source := by
  induction more using List.reverseRecOn with
  | nil => rwa [List.append_nil]
  | append_singleton more operation ih =>
    rw [List.forall_mem_append, List.forall_mem_singleton] at hmore
    have hsource := ih hmore.1
    rw [← List.append_assoc, after_concat]
    cases operation with
    | insert key value => exact hsource
    | setSource other => exact absurd rfl (hmore.2 other)
    | resolve baseUrl path =>
      rw [Operation.apply, (resolve_of_source hsource baseUrl path).1, hsource]

/-- **Manifests under operations.** The keys are those that were inserted, each once and in the
order of first insertion; each holds what is stored for the value inserted last, so that the
dependencies are never a scalar; operations on the source change no entry, and insertions not the
source; and a source that is known is what every resolution returns and keeps, until another is
set. -/
theorem after_operations (operations : List Operation) :
    (after operations).entries.keys = ((inserted operations).map Prod.fst).eraseDups ∧
      (∀ key stored, (after operations).get? key = some stored ↔
        ∃ value, LastInserted operations key value ∧ IsStored key value stored) ∧
      (∀ text, (after operations).get? dependenciesKey ≠ some (.scalar text)) ∧
      (∀ operation : Operation, operation.entry? = none →
        (after (operations ++ [operation])).entries = (after operations).entries) ∧
      (∀ key value,
        (after (operations ++ [.insert key value])).source = (after operations).source) ∧
      (∀ baseUrl path, (after (operations ++ [.resolve baseUrl path])).source =
        some ((after operations).resolution baseUrl path)) ∧
      ∀ source, (after operations).source = some source →
        ∀ more : List Operation,
          (∀ operation ∈ more, ∀ other, operation ≠ .setSource other) →
          ∀ baseUrl path, (after (operations ++ more)).resolution baseUrl path = source ∧
            after (operations ++ more ++ [.resolve baseUrl path]) = after (operations ++ more) := by
  refine ⟨?_, fun _ _ => get?_after_iff, get?_dependencies_ne_scalar operations, ?_, ?_, ?_, ?_⟩
  · rw [entries_after, keys_ofEntries]
  · intro operation hnone
    rw [after_concat, entries_apply_of_none hnone]
  · intro key value
    rw [after_concat]
    rfl
  · intro baseUrl path
    rw [after_concat]
    exact source_resolve _ baseUrl path
  · intro source hsource more hmore baseUrl path
    obtain ⟨hsame, hreturned⟩ :=
      resolve_of_source (source_after_append hsource hmore) baseUrl path
    exact ⟨hreturned, (after_concat ..).trans hsame⟩

/-- A source that is set before the first resolution is kept, and a title inserted again stays
before what came between. -/
theorem after_operations_of_early_source :
    let operations : List Operation := [.insert "title" (.scalar "a"),
      .insert "dependencies" (.scalar " "), .setSource (some "s"), .insert "title" (.scalar "b")]
    let more : List Operation := [.resolve "u" "p", .insert "dependencies" (.scalar "rich")]
    (after operations).entries.toList = [("title", .scalar "b"), ("dependencies", .list [])] ∧
      (after operations).source = some "s" ∧
      (after (operations ++ more)).entries.toList =
        [("title", .scalar "b"), ("dependencies", .list ["rich"])] ∧
      (after (operations ++ more)).resolution "v" "q" = "s" := by
  intro operations more
  have hsource : (after operations).source = some "s" := by decide
  obtain ⟨_, _, _, _, _, _, hkept⟩ := after_operations operations
  refine ⟨by decide, hsource, by decide, (hkept "s" hsource more ?_ "v" "q").1⟩
  intro operation hmem other heq
  subst heq
  simp [more] at hmem

end Scriptorium.Manifest
