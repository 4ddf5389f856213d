/-
Paths below a root, as text.

What is left of a path below a root are names, and their text is normal: single slashes stand
between the names, and nothing else (`isNormal_intercalate`). So the names are found again in the
text, also behind the root, and the text depends on the components of the root and the path only.
-/

import Scriptorium.Proofs.Path.Spelling

namespace Scriptorium.Path

variable {root path text : List Char} {cs : List Component}

/-! ### Normal texts -/

/-- A text of names with single slashes between them: no slash at the beginning, no empty name and
no lone point. The empty text has no names. -/
structure IsNormal (text : List Char) : Prop where
  head : text.head? ≠ some '/'
  pieces : text ≠ [] → ∀ piece ∈ Text.splitAt '/' text, piece ≠ [] ∧ piece ≠ ['.']

theorem isNormal_of_pieces
    (h : text ≠ [] → ∀ piece ∈ Text.splitAt '/' text, piece ≠ [] ∧ piece ≠ ['.']) :
    IsNormal text := by
  refine ⟨?_, h⟩
  cases text with
  | nil => exact nofun
  | cons c text => exact head?_ne_slash fun hmem => (h (List.cons_ne_nil c text) _ hmem).1 rfl

theorem isNormal_intercalate (h : ∀ c ∈ cs, c.IsNamed) :
    IsNormal (['/'].intercalate (cs.filterMap Component.text?)) := by
  have hnames : ∀ name ∈ cs.filterMap Component.text?,
      '/' ∉ name ∧ name ≠ [] ∧ name ≠ ['.'] := by
    intro name hname
    obtain ⟨c, hc, htext⟩ := List.mem_filterMap.mp hname
    obtain ⟨piece, hslash, hpiece⟩ := h c hc
    rw [Component.text?_of_ofPiece? hpiece] at htext
    cases htext
    refine ⟨hslash, not_or.mp fun hidle => ?_⟩
    rw [ofPiece?_eq_none_iff.mpr hidle] at hpiece
    cases hpiece
  refine isNormal_of_pieces fun hne piece hpiece => ?_
  rw [Text.splitAt_intercalate (fun hnil => hne (by rw [hnil]; rfl))
    fun name hname => (hnames name hname).1] at hpiece
  exact (hnames piece hpiece).2

/-- A normal text begins with a name. -/
theorem IsNormal.lead?_eq_none (h : IsNormal text) : lead? text = none := by
  cases text with
  | nil => rfl
  | cons c text => exact Path.lead?_eq_none (h.pieces (List.cons_ne_nil c text))

/-! ### Below a root -/

theorem isNormal_relative (root path : List Char) : IsNormal (relative root path) := by
  rw [relative, relativeOf_eq]
  exact isNormal_intercalate fun c => isNamed_of_mem_below

/-- The components of a path below a root are the names that are left. -/
theorem components_relative (root path : List Char) :
    components (relative root path) = below (components root) path := by
  rw [components_eq, (isNormal_relative root path).lead?_eq_none, relative, body_relativeOf]
  rfl

/-- A path elsewhere keeps all its names. -/
theorem relativeOf_of_not_prefix {root path : List Component} (h : ¬root <+: path) :
    relativeOf root path = ['/'].intercalate (path.filterMap Component.text?) := by
  have hnone : strip? root path = none := by
    rw [Option.eq_none_iff_forall_ne_some]
    intro rest hrest
    exact h ⟨rest, (strip?_eq_some_iff.mp hrest).symm⟩
  rw [relativeOf, hnone, Option.getD_none]

/-- **Paths below a root.** The relative path joins by slashes the names of what follows the root,
or of all of the path if it does not lie below the root; where only names follow the root, it leads
from there to the path. It is a normal text, which is its own relative path, and depends only on
the components of the root and the path; these are the same exactly for spellings of one path. -/
theorem relative_names (root path : List Char) :
    (∀ rest, components path = components root ++ rest →
        relative root path = ['/'].intercalate (rest.filterMap Component.text?) ∧
          ((∀ c ∈ rest, c.text?.isSome = true) →
            components (join root (relative root path)) = components path)) ∧
      (¬components root <+: components path →
        relative root path = ['/'].intercalate ((components path).filterMap Component.text?)) ∧
      IsNormal (relative root path) ∧
      relative [] (relative root path) = relative root path ∧
      (∀ root' path', Respelled root root' → Respelled path path' →
        relative root' path' = relative root path) ∧
      ∀ p q, Respelled p q ↔ components p = components q := by
  refine ⟨fun rest hrest => ⟨?_, fun hnamed => ?_⟩, relativeOf_of_not_prefix,
    isNormal_relative root path, ?_, fun root' path' hroot hpath => ?_, fun p q => respelled_iff⟩
  · rw [relative, hrest, relativeOf_append]
  · have hbelow : below (components root) path = rest := by
      rw [below, strip?_eq_some_iff.mpr hrest, Option.getD_some, List.filter_eq_self.mpr hnamed]
    rw [components_join (isNormal_relative root path).lead?_eq_none, components_relative, hbelow,
      hrest]
  · have hnone : components [] = [] := rfl
    rw [relative, components_relative, hnone, relative, relativeOf_eq]
    rfl
  · rw [relative, relative, hroot.components_eq, hpath.components_eq]

/-- A step back behind the root is kept, and the spelling of the root does not matter. -/
theorem relative_names_of_step_back :
    let root := "/srv//scripts/".toList
    let path := "/srv/./scripts/hello/../x.py".toList
    let rest : List Component := [.normal "hello".toList, .parent, .normal "x.py".toList]
    components path = components root ++ rest ∧
      relative root path = "hello/../x.py".toList ∧
      components (join root (relative root path)) = components path ∧
      relative "/srv/scripts".toList path = relative root path ∧
      ¬components "scripts".toList <+: components path ∧
      relative "scripts".toList path = "srv/scripts/hello/../x.py".toList := by
  intro root path rest
  have hrest : components path = components root ++ rest := by decide +kernel
  have houtside : ¬components "scripts".toList <+: components path := by decide +kernel
  obtain ⟨hbelow, _, _, _, hspelling, hiff⟩ := relative_names root path
  obtain ⟨hnames, hjoin⟩ := hbelow rest hrest
  have hroot : Respelled root "/srv/scripts".toList := (hiff _ _).mpr (by decide +kernel)
  refine ⟨hrest, hnames.trans (by decide +kernel), hjoin (by decide +kernel),
    hspelling _ _ hroot (.refl path), houtside, ?_⟩
  exact ((relative_names "scripts".toList path).2.1 houtside).trans (by decide +kernel)

end Scriptorium.Path
