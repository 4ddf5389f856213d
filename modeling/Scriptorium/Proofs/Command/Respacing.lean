/-
The spacing of a type text: what is lost of the blanks of an annotation, and what is not.

Between two characters the text of a type has one space if blanks stood there, and none beside a
bracket or before a comma (`typeText_gap`). So of a run of blanks only its place counts, and texts
that differ in the length and the kind of their runs alone have the same type text
(`Respaced.typeText_eq`).
-/

import Scriptorium.Proofs.Command.Spacing

namespace Scriptorium.Command

open Text (isBlank solid)

variable {a b c : Char} {gap s t u : List Char}

/-! ### Runs of blanks -/

/-- A run of blanks. -/
structure IsGap (gap : List Char) : Prop where
  ne_nil : gap ≠ []
  isBlank : ∀ c ∈ gap, isBlank c = true

theorem IsGap.of_all (h : (c :: s).all Text.isBlank = true) : IsGap (c :: s) :=
  ⟨List.cons_ne_nil c s, List.all_eq_true.mp h⟩

theorem Pen.write_blanks (h : ∀ c ∈ gap, isBlank c = true) (last : Option Char) (s : List Char) :
    Pen.write ⟨last, true⟩ (gap ++ s) = Pen.write ⟨last, true⟩ s := by
  induction gap with
  | nil => rfl
  | cons c gap ih =>
    rw [List.forall_mem_cons] at h
    rw [List.cons_append, Pen.write_cons_of_isBlank h.1]
    exact ih h.2

/-- However long a run of blanks is, the pen only notes that there is one. -/
theorem IsGap.write_append (h : IsGap gap) (p : Pen) (s : List Char) :
    p.write (gap ++ s) = { p with gap := true }.write s := by
  obtain ⟨hne, hall⟩ := h
  cases gap with
  | nil => exact absurd rfl hne
  | cons c gap =>
    rw [List.forall_mem_cons] at hall
    rw [List.cons_append, Pen.write_cons_of_isBlank hall.1, Pen.write_blanks hall.2]

/-- Texts that differ in the length and the kind of their runs of blanks only. -/
inductive Respaced : List Char → List Char → Prop where
  | nil : Respaced [] []
  | solid {c : Char} {s t : List Char} : isBlank c = false → Respaced s t →
      Respaced (c :: s) (c :: t)
  | gap {u v s t : List Char} : IsGap u → IsGap v → Respaced s t → Respaced (u ++ s) (v ++ t)

theorem Respaced.write_eq (h : Respaced s t) (p : Pen) : p.write s = p.write t := by
  induction h generalizing p with
  | nil => rfl
  | solid hc _ ih => rw [Pen.write_cons_of_not_blank hc, Pen.write_cons_of_not_blank hc, ih]
  | gap hu hv _ ih => rw [hu.write_append, hv.write_append, ih]

theorem Respaced.typeText_eq (h : Respaced s t) : typeText s = typeText t := by
  rw [Command.typeText_eq, Command.typeText_eq, h.write_eq]

/-! ### What is left of a run -/

/-- What is left of the blanks between two characters. -/
def spaceBetween (a b : Char) : List Char :=
  if isOpener a || isCloser b then [] else [' ']

theorem Pen.write_cons_start (hb : isBlank b = false) (s : List Char) :
    Pen.write {} (b :: s) = b :: Pen.write ⟨some b, false⟩ s :=
  Pen.write_cons_of_not_blank hb {} s

/-- A run of blanks cuts a type text in two, with what is left of it in between. -/
theorem typeText_gap (ha : isBlank a = false) (hgap : IsGap gap) (hb : isBlank b = false)
    (s t : List Char) :
    typeText (s ++ a :: (gap ++ b :: t)) =
      typeText (s ++ [a]) ++ (spaceBetween a b ++ typeText (b :: t)) := by
  have hspace : Pen.space ⟨some a, true⟩ b = spaceBetween a b := by
    cases hopener : isOpener a <;> cases hcloser : isCloser b <;>
      simp [Pen.space, Pen.leavesSpace, spaceBetween, hopener, hcloser]
  rw [List.append_cons, typeText_eq, typeText_eq, typeText_eq, Pen.write_append,
    Pen.behind_concat_of_not_blank ha, hgap.write_append, Pen.write_cons_of_not_blank hb,
    Pen.write_cons_start hb, hspace]

/-- **The spacing of types.** The text of a type has the characters of the annotation in their
order, blanks apart; its only blanks are single spaces between two characters, none at an end, none
behind an opener and none before a closer; and it is left as it is when it is written again.
Annotations that differ in the length and the kind of their runs of blanks only have one text, and a
run is never lost but beside a bracket or before a comma. -/
theorem typeText_spacing (s : List Char) :
    solid (typeText s) = solid s ∧ IsTight (typeText s) ∧ typeText (typeText s) = typeText s ∧
      (∀ t, Respaced s t → typeText t = typeText s) ∧
      ∀ before a gap b after, s = before ++ a :: (gap ++ b :: after) →
        isBlank a = false → IsGap gap → isBlank b = false →
        typeText s = typeText (before ++ [a]) ++ (spaceBetween a b ++ typeText (b :: after)) := by
  have htight := isTight_typeText s
  refine ⟨?_, htight, isTight_iff.mp htight, fun t h => h.typeText_eq.symm, ?_⟩
  · rw [typeText_eq]
    exact Pen.solid_write {} s
  · rintro before a gap b after rfl ha hgap hb
    exact typeText_gap ha hgap hb before after

/-- A line end and a no-break space are no more than a space, and a space is kept between the sides
of a union. -/
theorem typeText_spacing_of_union :
    let s := "[ a\u00a0\n| b ,c]".toList
    let t := "[\ta |  b ,c]".toList
    Respaced s t ∧ typeText t = typeText s ∧
      typeText s = typeText "[ a".toList ++ (' ' :: typeText "| b ,c]".toList) ∧
      String.ofList (typeText s) = "[a | b,c]" := by
  intro s t
  have hgap : IsGap ['\u00a0', '\n'] := .of_all rfl
  have hspace : IsGap [' '] := .of_all rfl
  have htab : IsGap ['\t'] := .of_all rfl
  have hspaces : IsGap [' ', ' '] := .of_all rfl
  have hrespaced : Respaced s t :=
    .solid rfl <| .gap hspace htab <| .solid rfl <| .gap hgap hspace <| .solid rfl <|
      .gap hspace hspaces <| .solid rfl <| .gap hspace hspace <| .solid rfl <| .solid rfl <|
      .solid rfl .nil
  obtain ⟨-, -, -, halike, hkept⟩ := typeText_spacing s
  exact ⟨hrespaced, halike t hrespaced,
    hkept ['[', ' '] 'a' ['\u00a0', '\n'] '|' " b ,c]".toList rfl rfl hgap rfl, by decide⟩

end Scriptorium.Command
