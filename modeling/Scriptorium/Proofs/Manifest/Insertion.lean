/-
What a manifest holds after entries were inserted one after the other: each key once, in the order
of first insertion, with what was inserted last under it.
-/

import Mathlib.Data.List.Induction
import Scriptorium.Manifest.Reader

namespace Scriptorium.Manifest

variable {key : String} {value : Value}

/-! ### One entry -/

theorem keys_put (key : String) (value : Value) (pairs : List (String × Value)) :
    (put key value pairs).map Prod.fst =
      if key ∈ pairs.map Prod.fst then pairs.map Prod.fst else pairs.map Prod.fst ++ [key] := by
  induction pairs with
  | nil => simp [put]
  | cons pair pairs ih =>
    obtain ⟨k, v⟩ := pair
    by_cases hk : k = key
    · simp [put, hk]
    · rw [put, if_neg hk, List.map_cons, ih]
      by_cases hmem : key ∈ pairs.map Prod.fst
      · simp [hmem]
      · simp [hmem, Ne.symm hk]

theorem put_of_not_mem {key : String} {value : Value} {pairs : List (String × Value)}
    (h : key ∉ pairs.map Prod.fst) : put key value pairs = pairs ++ [(key, value)] := by
  induction pairs with
  | nil => rfl
  | cons pair pairs ih =>
    obtain ⟨k, v⟩ := pair
    simp only [List.map_cons, List.mem_cons, not_or] at h
    rw [put, if_neg (Ne.symm h.1), ih h.2]
    rfl

theorem lookup_pair_cons (k j : String) (value : Value) (pairs : List (String × Value)) :
    ((j, value) :: pairs).lookup k = if k = j then some value else pairs.lookup k := by
  by_cases h : k = j
  · rw [if_pos h, h, List.lookup_cons_self]
  · rw [if_neg h, List.lookup_cons, beq_false_of_ne h]

theorem lookup_put (k key : String) (value : Value) (pairs : List (String × Value)) :
    (put key value pairs).lookup k = if k = key then some value else pairs.lookup k := by
  induction pairs with
  | nil => exact lookup_pair_cons k key value []
  | cons pair pairs ih =>
    obtain ⟨j, v⟩ := pair
    by_cases hj : j = key
    · rw [put, if_pos hj, lookup_pair_cons, lookup_pair_cons, hj]
      split <;> rfl
    · rw [put, if_neg hj, lookup_pair_cons, lookup_pair_cons, ih]
      by_cases hk : k = j
      · rw [if_pos hk, if_pos hk, if_neg (hk ▸ hj)]
      · rw [if_neg hk, if_neg hk]

/-- Pairs with distinct keys, put in order, stay as they are. -/
theorem toList_foldl_put {pairs : List (String × Value)} (entries : Entries)
    (h : ((entries.toList ++ pairs).map Prod.fst).Nodup) :
    (pairs.foldl (fun entries pair => entries.put pair.1 pair.2) entries).toList =
      entries.toList ++ pairs := by
  induction pairs generalizing entries with
  | nil => rw [List.foldl_nil, List.append_nil]
  | cons pair pairs ih =>
    have hnew : pair.1 ∉ entries.toList.map Prod.fst := by
      intro hmem
      rw [List.map_append, List.nodup_append] at h
      exact h.2.2 pair.1 hmem pair.1 (by simp) rfl
    have hput : (entries.put pair.1 pair.2).toList = entries.toList ++ [pair] := by
      rw [Entries.toList_put, put_of_not_mem hnew]
    have hmore := ih (entries.put pair.1 pair.2) (by rwa [hput, List.append_assoc])
    rw [List.foldl_cons, hmore, hput, List.append_assoc]
    rfl

theorem ofList_toList (entries : Entries) : Entries.ofList entries.toList = entries := by
  have htoList := toList_foldl_put Entries.empty entries.nodup
  rw [Entries.ofList]
  generalize entries.toList.foldl _ _ = put at htoList
  obtain ⟨list, hnodup⟩ := put
  obtain ⟨pairs, _⟩ := entries
  simp only [Entries.empty, List.nil_append] at htoList
  subst htoList
  rfl

theorem get?_insert (m : Manifest) (k key : String) (value : Value) :
    (m.insert key value).get? k = if k = key then some (coerce key value) else m.get? k :=
  lookup_put k key (coerce key value) m.entries.toList

/-! ### Entries of events -/

/-- The entries of events. -/
def entriesOf (events : List Event) : List (String × Value) :=
  events.filterMap Event.entry?

@[simp] theorem entriesOf_nil : entriesOf [] = [] := rfl

@[simp] theorem entriesOf_entry (key : String) (value : Value) (events : List Event) :
    entriesOf (.entry key value :: events) = (key, value) :: entriesOf events := rfl

@[simp] theorem entriesOf_warning (w : Warning) (events : List Event) :
    entriesOf (.warning w :: events) = entriesOf events := rfl

@[simp] theorem entriesOf_append (events more : List Event) :
    entriesOf (events ++ more) = entriesOf events ++ entriesOf more :=
  List.filterMap_append

@[simp] theorem entriesOf_enterScalar (key value : String) :
    entriesOf (enterScalar key value) = [(key, .scalar value)] := by
  unfold enterScalar
  split <;> rfl

/-! ### Entries in order -/

/-- The manifest of entries inserted in order. -/
def ofEntries (entries : List (String × Value)) : Manifest :=
  entries.foldl (fun m entry => m.insert entry.1 entry.2) {}

theorem ofEntries_concat (entries : List (String × Value)) (entry : String × Value) :
    ofEntries (entries ++ [entry]) = (ofEntries entries).insert entry.1 entry.2 := by
  simp [ofEntries]

theorem ofEvents_eq (events : List Event) : ofEvents events = ofEntries (entriesOf events) := rfl

/-- Keys stand in the order of their first insertion, each once. -/
theorem keys_ofEntries (entries : List (String × Value)) :
    (ofEntries entries).entries.keys = (entries.map Prod.fst).eraseDups := by
  induction entries using List.reverseRecOn with
  | nil => rfl
  | append_singleton entries entry ih =>
    rw [Entries.keys] at ih ⊢
    have hmem : entry.1 ∈ (entries.map Prod.fst).eraseDups ↔ entry.1 ∈ entries.map Prod.fst :=
      List.mem_eraseDups
    rw [ofEntries_concat, insert, Entries.toList_put, keys_put, ih, List.map_append,
      List.map_singleton, List.eraseDups_append]
    by_cases h : entry.1 ∈ entries.map Prod.fst
    · rw [if_pos (hmem.mpr h)]
      simp [List.removeAll, h]
    · rw [if_neg (mt hmem.mp h)]
      simp [List.removeAll, h, List.eraseDups_cons]

/-- A key holds what was inserted last under it. -/
theorem get?_ofEntries (entries : List (String × Value)) (key : String) :
    (ofEntries entries).get? key =
      (entries.reverse.find? fun entry => entry.1 == key).map fun entry => coerce key entry.2 := by
  induction entries using List.reverseRecOn with
  | nil => rfl
  | append_singleton entries entry ih =>
    rw [ofEntries_concat, get?_insert, ih, List.reverse_append, List.reverse_singleton,
      List.singleton_append, List.find?_cons]
    by_cases h : entry.1 = key
    · simp [h]
    · rw [if_neg (Ne.symm h), beq_false_of_ne h]

/-- The value of the dependencies is a list. -/
theorem coerce_dependencies (value : Value) :
    ∃ items, coerce dependenciesKey value = .list items := by
  cases value with
  | scalar text =>
    rw [coerce, if_pos rfl]
    exact ⟨_, rfl⟩
  | list items => exact ⟨items, rfl⟩

end Scriptorium.Manifest
