/-
A list of strings is written in one line and read back from it.
-/

import Scriptorium.Literal.Strings
import Scriptorium.Proofs.Literal.Enclosure
import Scriptorium.Proofs.Literal.SourceForm

namespace Scriptorium.Literal

/-- A list of strings as a literal. -/
def ofStrings (items : List String) : Literal :=
  .list (items.map .str)

/-! ### One line -/

theorem render_ofStrings (items : List String) :
    ∃ inner, (ofStrings items).render = '[' :: (inner ++ [']']) :=
  ⟨_, by rw [ofStrings, render]⟩

/-- Strings in a list are written without a line feed. -/
theorem newline_not_mem_render_ofStrings (items : List String) :
    '\n' ∉ (ofStrings items).render := fun hmem =>
  ((enclosed_render _).line _ hmem).1 rfl

/-! ### Reading -/

theorem mapM_itemText_str (items : List String) :
    (items.map str).mapM itemText = .ok items := by
  induction items with
  | nil => rfl
  | cons s items ih =>
    rw [List.map_cons, List.mapM_cons, ih]
    rfl

theorem mem_parts_ofStrings {v : Literal} {items : List String} (h : v ∈ (ofStrings items).parts) :
    v = ofStrings items ∨ ∃ s, v = .str s := by
  simp only [ofStrings, parts, List.mem_cons, mem_partsOfItems, List.mem_map] at h
  rcases h with rfl | ⟨_, ⟨s, _, rfl⟩, hv⟩
  · exact .inl rfl
  · simp only [parts, List.mem_singleton] at hv
    exact .inr ⟨s, hv⟩

/-- Strings that are written as a list are read back. -/
theorem parseStrings_text (items : List String) :
    parseStrings (ofStrings items).text = .ok items := by
  have hfloat : FloatFree (ofStrings items) := by
    intro x hx
    rcases mem_parts_ofStrings hx with h | ⟨s, h⟩ <;> cases h
  have hwritable : Writable (ofStrings items) := by
    constructor
    · intro hmem
      rcases mem_parts_ofStrings hmem with h | ⟨s, h⟩ <;> cases h
    · intro hmem
      rcases mem_parts_ofStrings hmem with h | ⟨s, h⟩ <;> cases h
  rw [parseStrings, parse_of_writable hfloat hwritable]
  exact mapM_itemText_str items

end Scriptorium.Literal
