/-
What the decoders do with the value of a tree.

A decoder reads a tree as `x` if it does so wherever containers may be nested as deep as they are
in the tree (`Decodes`). The fields of a map with distinct keys are looked up by name, so a
structure is decoded once each of its fields is.
-/

import Mathlib.Data.List.Nodup
import Scriptorium.Exchange.Decode
import Scriptorium.Proofs.Json.Text

namespace Scriptorium

/-! ### Nesting -/

namespace Data

mutual

/-- How deep containers are nested in a tree. -/
def nesting : Data → Nat
  | .seq items => nestingOfItems items + 1
  | .map entries => nestingOfEntries entries + 1
  | .null | .bool _ | .int _ | .float _ | .str _ => 0

/-- How deep containers are nested in items. -/
def nestingOfItems : List Data → Nat
  | [] => 0
  | item :: items => max (nesting item) (nestingOfItems items)

/-- How deep containers are nested in entries. -/
def nestingOfEntries : List (String × Data) → Nat
  | [] => 0
  | (_, value) :: entries => max (nesting value) (nestingOfEntries entries)

end

theorem nesting_lt_seq {d : Data} {items : List Data} (h : d ∈ items) :
    d.nesting < (seq items).nesting := by
  rw [nesting, Nat.lt_succ_iff]
  induction items with
  | nil => cases h
  | cons item items ih =>
    rw [nestingOfItems]
    rcases List.mem_cons.mp h with rfl | h
    · exact Nat.le_max_left _ _
    · exact Nat.le_trans (ih h) (Nat.le_max_right _ _)

theorem nesting_lt_map {e : String × Data} {entries : List (String × Data)} (h : e ∈ entries) :
    e.2.nesting < (map entries).nesting := by
  rw [nesting, Nat.lt_succ_iff]
  induction entries with
  | nil => cases h
  | cons entry entries ih =>
    rw [nestingOfEntries]
    rcases List.mem_cons.mp h with rfl | h
    · exact Nat.le_max_left _ _
    · exact Nat.le_trans (ih h) (Nat.le_max_right _ _)

end Data

namespace Json

/-- The decoder reads the tree as `x`, however much room it leaves for nested containers beyond
what the tree takes. -/
def Decodes (d : Decoder α) (tree : Data) (x : α) : Prop :=
  ∀ depth, tree.nesting ≤ depth → d depth (.ofData tree) = some x

/-! ### Simple values -/

theorem decodes_string (s : String) : Decodes string (.str s) s := fun _ _ => rfl

theorem decodes_nullable_string (s : Option String) :
    Decodes (nullable string) (.ofOption s) s := by
  intro depth _
  cases s <;> rfl

theorem mapM_map {f : β → Option α} {g : α → β} {xs : List α} (h : ∀ x ∈ xs, f (g x) = some x) :
    (xs.map g).mapM f = some xs := by
  induction xs with
  | nil => rfl
  | cons x xs ih =>
    rw [List.forall_mem_cons] at h
    rw [List.map_cons, List.mapM_cons, h.1, ih h.2]
    rfl

/-- A sequence is decoded item by item, with less room in each. -/
theorem arrayOf_ofData {d : Decoder α} {tree : α → Data} {xs : List α} {depth : Nat}
    (hdepth : (Data.seq (xs.map tree)).nesting ≤ depth)
    (h : ∀ x ∈ xs, ∀ k < depth, (tree x).nesting ≤ k → d k (.ofData (tree x)) = some x) :
    arrayOf d depth (.ofData (.seq (xs.map tree))) = some xs := by
  obtain ⟨depth, rfl⟩ : ∃ k, depth = k + 1 := Nat.exists_eq_add_one.mpr (Nat.zero_lt_of_lt hdepth)
  rw [Value.ofData_seq, arrayOf, List.map_map]
  apply mapM_map
  intro x hx
  have hlt := Data.nesting_lt_seq (List.mem_map_of_mem (f := tree) hx)
  exact h x hx depth (Nat.lt_succ_self depth) (Nat.le_of_lt_succ (Nat.lt_of_lt_of_le hlt hdepth))

theorem Decodes.arrayOf {d : Decoder α} {tree : α → Data} {xs : List α}
    (h : ∀ x ∈ xs, Decodes d (tree x) x) : Decodes (arrayOf d) (.seq (xs.map tree)) xs :=
  fun _ hdepth => arrayOf_ofData hdepth fun x hx k _ hk => h x hx k hk

/-! ### Structures -/

/-- The fields of the given names in a map. -/
def Fields.of (names : List String) (entries : List (String × Data)) (depth : Nat) : Fields where
  ordered := false
  values := names.map fun name => (entries.lookup name).map .ofData
  depth := depth

/-- Among distinct keys, a name has at most one value. -/
theorem valuesOf_ofData (name : String) {entries : List (String × Data)}
    (h : (entries.map Prod.fst).Nodup) :
    valuesOf name (entries.map fun e => (some e.1, Value.ofData e.2)) =
      ((entries.lookup name).map .ofData).toList := by
  induction entries with
  | nil => rfl
  | cons e entries ih =>
    obtain ⟨key, d⟩ := e
    rw [List.map_cons, List.nodup_cons] at h
    have hmore := ih h.2
    by_cases hkey : name = key
    · subst hkey
      have hnone : entries.lookup name = none := by
        rw [List.lookup_eq_none_iff]
        intro e he
        rw [bne_iff_ne]
        rintro rfl
        exact h.1 (List.mem_map.mpr ⟨e, he, rfl⟩)
      rw [hnone] at hmore
      simp only [valuesOf] at hmore ⊢
      simpa using hmore
    · simp only [valuesOf] at hmore ⊢
      simpa [List.lookup_cons, beq_false_of_ne hkey, Ne.symm hkey] using hmore

/-- The fields of a map with distinct keys. -/
theorem fields?_ofData (names : List String) {entries : List (String × Data)}
    (h : (entries.map Prod.fst).Nodup) (depth : Nat) :
    fields? names (depth + 1) (.ofData (.map entries)) = some (.of names entries depth) := by
  have hvalues : names.map (valuesOf · (entries.map fun e => (some e.1, Value.ofData e.2))) =
      names.map fun name => ((entries.lookup name).map Value.ofData).toList :=
    List.map_congr_left fun name _ => valuesOf_ofData name h
  have hlength (o : Option Value) : o.toList.length ≤ 1 := by
    cases o <;> simp
  rw [Value.ofData_map, fields?, hvalues]
  simp [Fields.of, hlength, Function.comp_def]

variable {names : List String} {entries : List (String × Data)} {depth i : Nat} {name : String}

theorem value?_of (hname : names[i]? = some name) :
    (Fields.of names entries depth).value? i = (entries.lookup name).map .ofData := by
  simp [Fields.value?, Fields.of, hname]

theorem nesting_of_lookup {tree : Data} (h : entries.lookup name = some tree)
    (hdepth : (Data.map entries).nesting ≤ depth + 1) : tree.nesting ≤ depth := by
  obtain ⟨before, after, rfl, -⟩ := List.lookup_eq_some_iff.mp h
  have hmem : (name, tree) ∈ before ++ (name, tree) :: after := by simp
  have hlt : tree.nesting < _ := Data.nesting_lt_map hmem
  omega

/-- A field that is written is read, whether it must be given or has a default. -/
theorem required_of {d : Decoder α} {tree : Data} {x : α} (hname : names[i]? = some name)
    (hentry : entries.lookup name = some tree)
    (hdepth : (Data.map entries).nesting ≤ depth + 1) (hd : Decodes d tree x) :
    (Fields.of names entries depth).required i d = some x := by
  rw [Fields.required, value?_of hname, hentry]
  exact hd depth (nesting_of_lookup hentry hdepth)

theorem orElse_of {d : Decoder α} {tree : Data} {x default : α} (hname : names[i]? = some name)
    (hentry : entries.lookup name = some tree)
    (hdepth : (Data.map entries).nesting ≤ depth + 1) (hd : Decodes d tree x) :
    (Fields.of names entries depth).orElse i default d = some x := by
  rw [Fields.orElse, value?_of hname, hentry]
  exact hd depth (nesting_of_lookup hentry hdepth)

theorem optional_of {s : Option String} (hname : names[i]? = some name)
    (hentry : entries.lookup name = some (.ofOption s)) :
    (Fields.of names entries depth).optional i string = some s := by
  rw [Fields.optional, value?_of hname, hentry]
  cases s <;> rfl

/-- A field that is left out has its default. -/
theorem orElse_of_missing {d : Decoder α} {default : α} (hname : names[i]? = some name)
    (hentry : entries.lookup name = none) :
    (Fields.of names entries depth).orElse i default d = some default := by
  rw [Fields.orElse, value?_of hname, hentry]
  rfl

/-- The entry at the end of a map that is left out if there is no value. -/
theorem lookup_entryOf {key : String} (h : entries.lookup key = none) (value : Option Data) :
    (entries ++ Data.entryOf key value).lookup key = value := by
  rw [List.lookup_append, h, Option.none_or]
  cases value <;> simp [Data.entryOf]

theorem nodup_entryOf {key : String} (h : (entries.map Prod.fst).Nodup)
    (hkey : key ∉ entries.map Prod.fst) (value : Option Data) :
    ((entries ++ Data.entryOf key value).map Prod.fst).Nodup := by
  cases value with
  | none => simpa [Data.entryOf] using h
  | some value =>
    rw [List.map_append, List.nodup_append]
    refine ⟨h, by simp [Data.entryOf], ?_⟩
    intro k hk j hj
    have hj : j = key := by simpa [Data.entryOf] using hj
    rintro rfl
    exact hkey (hj ▸ hk)

/-- A string that is left out where there is none. -/
theorem orElse_entryOf {key : String} (hname : names[i]? = some key)
    (h : entries.lookup key = none) (s : Option String) :
    (Fields.of names (entries ++ Data.entryOf key (s.map .str)) depth).orElse i none
      (nullable string) = some s := by
  rw [Fields.orElse, value?_of hname, lookup_entryOf h]
  cases s <;> rfl

/-- A structure is decoded from a map with distinct keys once it is built from the fields. -/
theorem Decodes.of_fields {decoder : Decoder α} {build : Fields → Option α} {x : α}
    (hdecoder : ∀ depth v, decoder depth v = (fields? names depth v).bind build)
    (hkeys : (entries.map Prod.fst).Nodup)
    (h : ∀ depth, (Data.map entries).nesting ≤ depth + 1 →
      build (.of names entries depth) = some x) : Decodes decoder (.map entries) x := by
  intro depth hdepth
  have hpos : 0 < (Data.map entries).nesting := Nat.succ_pos _
  obtain ⟨depth, rfl⟩ : ∃ k, depth = k + 1 := ⟨depth - 1, by omega⟩
  rw [hdecoder, fields?_ofData names hkeys, Option.bind_some]
  exact h depth hdepth

/-! ### Kinds with content -/

theorem tagged?_unit (tag content kind : String) (depth : Nat) :
    tagged? tag content (depth + 1) (.ofData (.map [(tag, .str kind)])) =
      some ⟨.string (some kind), none, false, depth⟩ := by
  simp [Value.ofData, Value.ofEntries, tagged?]

theorem tagged?_content {tag content : String} (hne : tag ≠ content) (kind : String) (tree : Data)
    (depth : Nat) :
    tagged? tag content (depth + 1) (.ofData (.map [(tag, .str kind), (content, tree)])) =
      some ⟨.string (some kind), some (.ofData tree), false, depth⟩ := by
  simp [Value.ofData, Value.ofEntries, tagged?, hne]

end Json

end Scriptorium
