/-
Spellings of a path.

Two texts have the same components exactly if one becomes the other by repeating slashes, by points
between slashes and by a slash at the end (`respelled_iff`). A text without such repetitions is that
of its components, so each change only leads there (`respelled_textOf`).
-/

import Mathlib.Logic.Relation
import Scriptorium.Proofs.Path.Component

namespace Scriptorium.Path

variable {c : Component} {cs : List Component} {p q u first piece t : List Char}
  {pieces : List (List Char)}

/-! ### Spellings -/

/-- One step to a shorter spelling of a path: of two slashes one is dropped, or a point between
slashes with one of them, or a slash at the end that is not all of the path. -/
inductive Shortens : (path shorter : List Char) → Prop
  | slash (p q : List Char) : Shortens (p ++ '/' :: '/' :: q) (p ++ '/' :: q)
  | point (p q : List Char) : Shortens (p ++ '/' :: '.' :: '/' :: q) (p ++ '/' :: q)
  | final {p : List Char} : p ≠ [] → Shortens (p ++ ['/']) p

/-- Two spellings of one path. -/
def Respelled : List Char → List Char → Prop :=
  Relation.EqvGen Shortens

theorem Shortens.components_eq (h : Shortens p q) : components p = components q := by
  have hbehind {p t t' : List Char} (hbody : body t = body t') :
      components (p ++ '/' :: t) = components (p ++ '/' :: t') := by
    cases p with
    | nil => rw [List.nil_append, List.nil_append, components_sep, components_sep, hbody]
    | cons a p =>
      have hp := List.cons_ne_nil a p
      rw [components_append_sep hp, components_append_sep hp, hbody]
  cases h with
  | slash p q => exact hbehind (body_append_sep [] q)
  | point p q => exact hbehind (body_append_sep ['.'] q)
  | final hp =>
    rw [components_append_sep hp]
    exact List.append_nil _

theorem Respelled.components_eq (h : Respelled p q) : components p = components q := by
  induction h with
  | rel p q h => exact h.components_eq
  | refl p => rfl
  | symm p q _ ih => exact ih.symm
  | trans p q r _ _ ihp ihq => exact ihp.trans ihq

/-! ### The spelling of components -/

/-- Pieces with a slash before each. -/
def trail (pieces : List (List Char)) : List Char :=
  pieces.flatMap ('/' :: ·)

theorem intercalate_cons (first : List Char) (pieces : List (List Char)) :
    ['/'].intercalate (first :: pieces) = first ++ trail pieces := by
  induction pieces generalizing first with
  | nil => rw [List.intercalate_singleton, trail, List.flatMap_nil, List.append_nil]
  | cons next pieces ih =>
    rw [List.intercalate_cons_cons, ih, List.append_assoc, List.singleton_append]
    simp [trail]

/-- The texts of the names that pieces leave. -/
def namesOf (pieces : List (List Char)) : List (List Char) :=
  (pieces.filterMap Component.ofPiece?).filterMap Component.text?

theorem namesOf_cons_of_none (h : Component.ofPiece? piece = none) (pieces : List (List Char)) :
    namesOf (piece :: pieces) = namesOf pieces := by
  rw [namesOf, List.filterMap_cons_none h, namesOf]

theorem namesOf_cons_of_some (h : Component.ofPiece? piece = some c)
    (pieces : List (List Char)) : namesOf (piece :: pieces) = piece :: namesOf pieces := by
  rw [namesOf, List.filterMap_cons_some h,
    List.filterMap_cons_some (Component.text?_of_ofPiece? h), namesOf]

theorem ofPiece?_eq_none_iff : Component.ofPiece? piece = none ↔ piece = [] ∨ piece = ['.'] := by
  rw [Component.ofPiece?]
  split
  · rename_i h
    exact iff_of_true rfl h
  · rename_i h
    split <;> simpa using h

theorem respelled_point (u t : List Char) :
    Respelled (u ++ '/' :: '.' :: '/' :: t) (u ++ '/' :: t) :=
  .rel _ _ (.point u t)

/-- A point at the end is one between slashes, once there is a slash behind it. -/
theorem respelled_final_point (u : List Char) : Respelled (u ++ ['/', '.']) (u ++ ['/']) := by
  have hlonger : Shortens (u ++ ['/', '.'] ++ ['/']) (u ++ ['/', '.']) := .final (by simp)
  rw [List.append_assoc] at hlonger
  exact .trans _ _ _ (.symm _ _ (.rel _ _ hlonger)) (respelled_point u [])

/-- A piece that leaves no name is dropped, unless it is all there is. -/
theorem respelled_idle (h : Component.ofPiece? piece = none) (hne : u ≠ [] ∨ pieces ≠ []) :
    Respelled (u ++ '/' :: (piece ++ trail pieces)) (u ++ trail pieces) := by
  cases pieces with
  | cons next pieces =>
    rcases ofPiece?_eq_none_iff.mp h with rfl | rfl
    · exact .rel _ _ (.slash u (next ++ trail pieces))
    · exact respelled_point u (next ++ trail pieces)
  | nil =>
    have hu : u ≠ [] := hne.resolve_right fun hnil => hnil rfl
    have hfinal : Respelled (u ++ ['/']) (u ++ []) := by
      rw [List.append_nil]
      exact .rel _ _ (.final hu)
    rcases ofPiece?_eq_none_iff.mp h with rfl | rfl
    · exact hfinal
    · exact .trans _ _ _ (respelled_final_point u) hfinal

/-- Behind a text that is not empty, only names are left of pieces. -/
theorem respelled_trail (hu : u ≠ []) (pieces : List (List Char)) :
    Respelled (u ++ trail pieces) (u ++ trail (namesOf pieces)) := by
  induction pieces generalizing u with
  | nil => exact .refl _
  | cons piece pieces ih =>
    cases hpiece : Component.ofPiece? piece with
    | none =>
      rw [namesOf_cons_of_none hpiece]
      exact .trans _ _ _ (respelled_idle hpiece (.inl hu)) (ih hu)
    | some c =>
      have hcut (ts : List (List Char)) : u ++ trail (piece :: ts) =
          u ++ '/' :: piece ++ trail ts := by simp [trail]
      rw [namesOf_cons_of_some hpiece, hcut, hcut]
      exact ih (by simp)

/-- Behind a slash at the beginning, only names are left of pieces. -/
theorem respelled_root (first : List Char) (pieces : List (List Char)) :
    Respelled ('/' :: (first ++ trail pieces))
      ('/' :: ['/'].intercalate (namesOf (first :: pieces))) := by
  have hnamed {first : List Char} {c : Component} (hfirst : Component.ofPiece? first = some c)
      (pieces : List (List Char)) : Respelled ('/' :: (first ++ trail pieces))
        ('/' :: ['/'].intercalate (namesOf (first :: pieces))) := by
    rw [namesOf_cons_of_some hfirst, intercalate_cons, ← List.cons_append, ← List.cons_append]
    exact respelled_trail (List.cons_ne_nil _ _) pieces
  induction pieces generalizing first with
  | nil =>
    cases hfirst : Component.ofPiece? first with
    | some c => exact hnamed hfirst []
    | none =>
      rw [namesOf_cons_of_none hfirst]
      rcases ofPiece?_eq_none_iff.mp hfirst with rfl | rfl
      · exact .refl _
      · exact respelled_final_point []
  | cons next pieces ih =>
    cases hfirst : Component.ofPiece? first with
    | some c => exact hnamed hfirst (next :: pieces)
    | none =>
      rw [namesOf_cons_of_none hfirst]
      exact .trans _ _ _ (respelled_idle (u := []) hfirst (.inr (List.cons_ne_nil _ _))) (ih next)

theorem Component.text_of_ofPiece? (h : Component.ofPiece? piece = some c) : c.text = piece := by
  have htext := Component.text?_of_ofPiece? h
  cases c with
  | root => cases htext
  | current => cases htext
  | parent => exact Option.some.inj htext
  | normal name => exact Option.some.inj htext

/-- The texts of the components that pieces leave are their names. -/
theorem map_text_filterMap (pieces : List (List Char)) :
    (pieces.filterMap Component.ofPiece?).map Component.text = namesOf pieces := by
  rw [namesOf, List.map_filterMap, List.filterMap_filterMap]
  refine List.filterMap_congr fun piece _ => ?_
  cases hpiece : Component.ofPiece? piece with
  | none => rfl
  | some c =>
    rw [Option.map_some, Option.bind_some, Component.text_of_ofPiece? hpiece,
      Component.text?_of_ofPiece? hpiece]

theorem textOf_root (pieces : List (List Char)) :
    textOf (.root :: pieces.filterMap Component.ofPiece?) =
      '/' :: ['/'].intercalate (namesOf pieces) := by
  rw [textOf, List.map_cons, ← map_text_filterMap]
  cases pieces.filterMap Component.ofPiece? with
  | nil => rfl
  | cons c cs =>
    rw [if_neg (by simp), List.map_cons, List.intercalate_cons_cons]
    rfl

theorem textOf_cons (hc : c ≠ .root) (pieces : List (List Char)) :
    textOf (c :: pieces.filterMap Component.ofPiece?) = c.text ++ trail (namesOf pieces) := by
  rw [textOf, if_neg (by simp [hc]), List.map_cons, map_text_filterMap, intercalate_cons]

theorem eq_of_splitAt (h : Text.splitAt '/' p = first :: pieces) : p = first ++ trail pieces := by
  rw [← intercalate_cons, ← h, Text.intercalate_splitAt]

/-- The first piece of a path that does not begin with a slash leaves a component, also if it is a
point. -/
theorem components_of_splitAt {a : Char} (h : Text.splitAt '/' p = (a :: first) :: pieces) :
    ∃ c, c ≠ .root ∧ c.text = a :: first ∧
      components p = c :: pieces.filterMap Component.ofPiece? := by
  have hslash : a ≠ '/' := by
    have hfirst : a :: first ∈ Text.splitAt '/' p := by
      rw [h]
      exact List.mem_cons_self
    rintro rfl
    exact Text.not_mem_of_mem_splitAt hfirst List.mem_cons_self
  have hlead : lead? p = if a :: first = ['.'] then some .current else none := by
    rw [lead?, h, eq_of_splitAt h, Component.ofFirst?]
    simp [hslash]
  rw [components_eq, hlead, body, h]
  cases hpiece : Component.ofPiece? (a :: first) with
  | none =>
    have hcurrent := (ofPiece?_eq_none_iff.mp hpiece).resolve_left (List.cons_ne_nil _ _)
    rw [if_pos hcurrent, List.filterMap_cons_none hpiece, hcurrent]
    exact ⟨.current, by decide, rfl, rfl⟩
  | some c =>
    have hne : a :: first ≠ ['.'] := by
      intro hcurrent
      rw [hcurrent] at hpiece
      cases hpiece
    rw [if_neg hne, List.filterMap_cons_some hpiece]
    refine ⟨c, ?_, Component.text_of_ofPiece? hpiece, rfl⟩
    rintro rfl
    cases Component.text?_of_ofPiece? hpiece

/-- Every path is a spelling of the text of its components. -/
theorem respelled_textOf (p : List Char) : Respelled p (textOf (components p)) := by
  obtain ⟨first, pieces, hsplit⟩ := List.exists_cons_of_ne_nil (Text.splitAt_ne_nil '/' p)
  have hp := eq_of_splitAt hsplit
  cases first with
  | cons a first =>
    obtain ⟨c, hroot, htext, hcomponents⟩ := components_of_splitAt hsplit
    rw [hcomponents, textOf_cons hroot, htext, hp]
    exact respelled_trail (List.cons_ne_nil a first) pieces
  | nil =>
    cases pieces with
    | nil =>
      subst hp
      exact .refl _
    | cons next pieces =>
      have hroot : lead? p = some .root := by
        rw [hp]
        rfl
      have hbody : body p = (next :: pieces).filterMap Component.ofPiece? := by
        rw [body, hsplit]
        rfl
      rw [components_eq, hroot, hbody, Option.toList_some, List.singleton_append, textOf_root, hp]
      exact respelled_root next pieces

/-- Two texts are spellings of one path exactly if they have the same components. -/
theorem respelled_iff : Respelled p q ↔ components p = components q := by
  refine ⟨Respelled.components_eq, fun h => ?_⟩
  have hq := respelled_textOf q
  rw [← h] at hq
  exact .trans _ _ _ (respelled_textOf p) (.symm _ _ hq)

end Scriptorium.Path
