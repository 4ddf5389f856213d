/-
Entries in order: each key once, at the place of its first insertion, with its last value.
-/

namespace Scriptorium.Manifest

/-- The value of one entry. -/
inductive Value where
  | scalar (text : String)
  | list (items : List String)
deriving DecidableEq, Repr, Inhabited

/-- The text of a scalar. -/
def Value.scalar? : Value → Option String
  | .scalar text => some text
  | .list _ => none

/-- The items of a list. -/
def Value.list? : Value → Option (List String)
  | .scalar _ => none
  | .list items => some items

/-! ### Pairs of keys and values -/

/-- Replaces the value of a key where it stands, or adds the key at the end. -/
def put (key : String) (value : Value) : List (String × Value) → List (String × Value)
  | [] => [(key, value)]
  | (k, v) :: pairs => if k = key then (k, value) :: pairs else (k, v) :: put key value pairs

theorem mem_keys_put {key k : String} {value : Value} {pairs : List (String × Value)} :
    k ∈ (put key value pairs).map Prod.fst ↔ k = key ∨ k ∈ pairs.map Prod.fst := by
  induction pairs with
  | nil => simp [put]
  | cons pair pairs ih =>
    obtain ⟨j, v⟩ := pair
    by_cases h : j = key
    · simp [put, h]
    · simp only [put, h, if_false, List.map_cons, List.mem_cons, ih]
      grind

theorem nodup_keys_put {key : String} {value : Value} {pairs : List (String × Value)}
    (h : (pairs.map Prod.fst).Nodup) : ((put key value pairs).map Prod.fst).Nodup := by
  induction pairs with
  | nil => simp [put]
  | cons pair pairs ih =>
    obtain ⟨j, v⟩ := pair
    simp only [List.map_cons, List.nodup_cons] at h
    by_cases hj : j = key
    · rw [put, if_pos hj]
      exact List.nodup_cons.mpr h
    · rw [put, if_neg hj]
      refine List.nodup_cons.mpr ⟨fun hmem => ?_, ih h.2⟩
      exact (mem_keys_put.mp hmem).elim hj h.1

/-! ### The type -/

/-- Entries with distinct keys, in order. -/
structure Entries where
  toList : List (String × Value)
  nodup : (toList.map Prod.fst).Nodup
deriving DecidableEq

namespace Entries

/-- No entries. -/
def empty : Entries :=
  ⟨[], List.nodup_nil⟩

instance : Inhabited Entries := ⟨empty⟩

/-- Inserts or replaces an entry. -/
def put (entries : Entries) (key : String) (value : Value) : Entries :=
  ⟨Manifest.put key value entries.toList, nodup_keys_put entries.nodup⟩

/-- The value of a key. -/
def get? (entries : Entries) (key : String) : Option Value :=
  entries.toList.lookup key

/-- The keys in order. -/
def keys (entries : Entries) : List String :=
  entries.toList.map Prod.fst

/-- Entries put one after the other. -/
def ofList (pairs : List (String × Value)) : Entries :=
  pairs.foldl (fun entries pair => entries.put pair.1 pair.2) empty

@[simp] theorem toList_put (entries : Entries) (key : String) (value : Value) :
    (entries.put key value).toList = Manifest.put key value entries.toList := rfl

end Entries

end Scriptorium.Manifest
