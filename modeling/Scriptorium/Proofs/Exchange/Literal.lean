/-
Literals without floating-point numbers are read back from their exchange form, at any depth.

The reader has one turn for each level of containers, and every literal is a container, so the
turns suffice (`isReadBack`).
-/

import Scriptorium.Proofs.Exchange.Decoding
import Scriptorium.Proofs.Exchange.Form

namespace Scriptorium.Literal

open Json

theorem int64_ofInt (n : Int64) : Json.int64 (.number (.ofInt n.toInt)) = some n := by
  have hbounds : Int64.minValue.toInt ≤ n.toInt ∧ n.toInt ≤ Int64.maxValue.toInt := by
    have hmin : Int64.minValue.toInt = -0x8000000000000000 := by decide
    have hmax : Int64.maxValue.toInt = 0x7fffffffffffffff := by decide
    have hlow := Int64.le_toInt n
    have hhigh := Int64.toInt_lt n
    omega
  rw [Json.int64, int?_ofInt, Option.bind_some, if_pos hbounds, Int64.ofInt_toInt]

/-- The kind and the content of a literal with content. -/
theorem tagged?_tagged (kind : String) (tree : Data) (depth : Nat) :
    tagged? "type" "value" (depth + 1) (.ofData (tagged kind tree)) =
      some ⟨.string (some kind), some (.ofData tree), false, depth⟩ :=
  tagged?_content (by decide) kind tree depth

theorem nesting_tagged (kind : String) (tree : Data) :
    (tagged kind tree).nesting = tree.nesting + 1 := by
  simp [tagged, Data.nesting, Data.nestingOfEntries]

theorem ofJson_display (d : Display) (fuel depth : Nat) (tree : Data) :
    ofJson false (fuel + 1) (depth + 1) (.ofData (tagged d.word tree)) =
      (arrayOf (ofJson false fuel) depth (.ofData tree)).map d.value := by
  rw [ofJson, tagged?_tagged]
  cases d <;> rfl

/-- Reads a pair of literals. -/
def pairOf (fuel : Nat) : Decoder (Literal × Literal)
  | depth + 1, .array [a, b] => do
    return (← ofJson false fuel depth a, ← ofJson false fuel depth b)
  | _, _ => none

theorem ofJson_dict (fuel depth : Nat) (tree : Data) :
    ofJson false (fuel + 1) (depth + 1) (.ofData (tagged "dict" tree)) =
      (arrayOf (pairOf fuel) depth (.ofData tree)).map dict := by
  rw [ofJson, tagged?_tagged]
  rfl

/-- The literal is read back from its form, given a turn for each level of containers. -/
def IsReadBack (v : Literal) : Prop :=
  ∀ fuel depth, v.toData.nesting ≤ depth → depth < fuel →
    ofJson false fuel depth (.ofData v.toData) = some v

theorem isReadBack_of_tagged {v : Literal} {kind : String} {tree : Data}
    (hdata : v.toData = tagged kind tree)
    (h : ∀ fuel depth, tree.nesting ≤ depth → depth < fuel →
      ofJson false (fuel + 1) (depth + 1) (.ofData (tagged kind tree)) = some v) :
    IsReadBack v := by
  intro fuel depth hdepth hfuel
  rw [hdata, nesting_tagged] at hdepth
  rw [hdata]
  obtain ⟨depth, rfl⟩ : ∃ k, depth = k + 1 := ⟨depth - 1, by omega⟩
  obtain ⟨fuel, rfl⟩ : ∃ k, fuel = k + 1 := ⟨fuel - 1, by omega⟩
  exact h fuel depth (by omega) (by omega)

theorem isReadBack_display {d : Display} {vs : List Literal} (h : ∀ v ∈ vs, IsReadBack v) :
    IsReadBack (d.value vs) := by
  apply isReadBack_of_tagged (toData_display d vs)
  intro fuel depth hdepth hfuel
  have hitems : arrayOf (ofJson false fuel) depth (.ofData (.seq (vs.map toData))) = some vs :=
    arrayOf_ofData hdepth fun v hv k hk hnesting =>
      h v hv fuel k hnesting (Nat.lt_trans hk hfuel)
  rw [ofJson_display, hitems, Option.map_some]

theorem pairOf_pairToData {p : Literal × Literal} (h : IsReadBack p.1 ∧ IsReadBack p.2)
    {fuel depth : Nat} (hdepth : (pairToData p).nesting ≤ depth) (hfuel : depth < fuel) :
    pairOf fuel depth (.ofData (pairToData p)) = some p := by
  have hkey : p.1.toData.nesting < (pairToData p).nesting := Data.nesting_lt_seq (by simp)
  have hvalue : p.2.toData.nesting < (pairToData p).nesting := Data.nesting_lt_seq (by simp)
  obtain ⟨depth, rfl⟩ : ∃ k, depth = k + 1 := ⟨depth - 1, by omega⟩
  have hreadKey := h.1 fuel depth (by omega) (by omega)
  have hreadValue := h.2 fuel depth (by omega) (by omega)
  rw [pairToData, Value.ofData_seq]
  simp [pairOf, hreadKey, hreadValue]

theorem isReadBack_dict {pairs : List (Literal × Literal)}
    (h : ∀ p ∈ pairs, IsReadBack p.1 ∧ IsReadBack p.2) : IsReadBack (.dict pairs) := by
  apply isReadBack_of_tagged (toData_dict pairs)
  intro fuel depth hdepth hfuel
  have hpairs : arrayOf (pairOf fuel) depth (.ofData (.seq (pairs.map pairToData))) = some pairs :=
    arrayOf_ofData hdepth fun p hp k hk hnesting =>
      pairOf_pairToData (h p hp) hnesting (Nat.lt_trans hk hfuel)
  rw [ofJson_dict, hpairs, Option.map_some]

/-- A literal without floating-point numbers is read back from its form. -/
theorem isReadBack {v : Literal} (hfloat : FloatFree v) : IsReadBack v := by
  induction v using inductionOn with
  | null =>
    intro fuel depth hdepth hfuel
    have hlt : 0 < null.toData.nesting := Nat.succ_pos _
    obtain ⟨depth, rfl⟩ : ∃ k, depth = k + 1 := ⟨depth - 1, by omega⟩
    obtain ⟨fuel, rfl⟩ : ∃ k, fuel = k + 1 := ⟨fuel - 1, by omega⟩
    rw [toData, ofJson, tagged?_unit]
    rfl
  | bool b =>
    have hdata : (bool b).toData = tagged "bool" (.bool b) := rfl
    apply isReadBack_of_tagged hdata
    intro fuel depth _ _
    rw [ofJson, tagged?_tagged]
    rfl
  | int n =>
    have hdata : (int n).toData = tagged "int" (.int n.toInt) := rfl
    apply isReadBack_of_tagged hdata
    intro fuel depth _ _
    rw [ofJson, tagged?_tagged]
    exact congrArg (Option.map int) (int64_ofInt n)
  | float x => exact absurd (self_mem_parts _) (hfloat x)
  | str s =>
    have hdata : (str s).toData = tagged "str" (.str s) := rfl
    apply isReadBack_of_tagged hdata
    intro fuel depth _ _
    rw [ofJson, tagged?_tagged]
    rfl
  | list items ih =>
    exact isReadBack_display (d := .list) fun v hv => ih v hv (hfloat.of_mem (d := .list) hv)
  | tuple items ih =>
    exact isReadBack_display (d := .tuple) fun v hv => ih v hv (hfloat.of_mem (d := .tuple) hv)
  | set items ih =>
    exact isReadBack_display (d := .set) fun v hv => ih v hv (hfloat.of_mem (d := .set) hv)
  | dict pairs ih =>
    apply isReadBack_dict
    intro p hp
    obtain ⟨hkey, hvalue⟩ := hfloat.of_mem_dict hp
    exact ⟨(ih p hp).1 hkey, (ih p hp).2 hvalue⟩

theorem decodes_literal {v : Literal} (hfloat : FloatFree v) : Decodes decode v.toData v :=
  fun depth hdepth => isReadBack hfloat (depth + 1) depth hdepth (Nat.lt_succ_self depth)

end Scriptorium.Literal
