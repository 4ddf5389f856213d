/-
Where the block of a manifest is found: between the first opening line and the first closing mark
behind it.

Both marks have their number sign only at the beginning. Therefore an occurrence that begins
before a mark also ends before it, and what stands around a block cannot run into it.
-/

import Scriptorium.Manifest.Block
import Scriptorium.Proofs.Text.Line

namespace Scriptorium.Manifest

variable {mark s rest : List Char} {x : Char}

/-! ### Occurrences -/

/-- An occurrence at the beginning of a text ends before a given place or covers it. -/
theorem isPrefix_or_of_append_cons (h : mark <+: s ++ x :: rest) :
    mark <+: s ∨ s ++ [x] <+: mark := by
  have hfront : s ++ [x] <+: s ++ x :: rest :=
    (List.prefix_append_right_inj s).mpr ⟨rest, rfl⟩
  rcases List.prefix_or_prefix_of_prefix h hfront with hmark | hmark
  · rcases List.prefix_concat_iff.mp hmark with rfl | hmark
    · exact .inr (List.prefix_refl _)
    · exact .inl hmark
  · exact .inr hmark

/-- No occurrence runs into the beginning of a mark that has its first character only once. -/
theorem isPrefix_of_anchored {tail : List Char} (hx : x ∉ tail) (hs : s ≠ [])
    (h : x :: tail <+: s ++ x :: rest) : x :: tail <+: s := by
  refine (isPrefix_or_of_append_cons h).resolve_right ?_
  rintro ⟨t, ht⟩
  cases s with
  | nil => exact hs rfl
  | cons a s =>
    obtain ⟨_, htail⟩ := List.cons.inj ht
    exact hx (htail ▸ by simp)

/-- An occurrence lies on one side of a character that is not in it. -/
theorem isInfix_of_append_cons (hx : x ∉ mark) (h : mark <:+: s ++ x :: rest) :
    mark <:+: s ∨ mark <:+: rest := by
  induction s with
  | nil =>
    rcases List.infix_cons_iff.mp h with hbegin | hinside
    · rcases isPrefix_or_of_append_cons (s := []) hbegin with hnil | hcovers
      · exact .inl hnil.isInfix
      · exact absurd (hcovers.subset (by simp)) hx
    · exact .inr hinside
  | cons a s ih =>
    rcases List.infix_cons_iff.mp h with hbegin | hinside
    · rcases isPrefix_or_of_append_cons (s := a :: s) hbegin with hfront | hcovers
      · exact .inl hfront.isInfix
      · exact absurd (hcovers.subset (by simp)) hx
    · exact (ih hinside).imp_left fun hs => hs.trans (List.suffix_cons a s).isInfix

theorem not_isInfix_separated {ls : List (List Char)} (hmark : '\n' ∉ mark) (hne : mark ≠ [])
    (h : ∀ l ∈ ls, ¬mark <:+: l) : ¬mark <:+: Text.separated ls := by
  induction ls with
  | nil => simpa [Text.separated] using hne
  | cons l ls ih =>
    rw [List.forall_mem_cons] at h
    cases ls with
    | nil => exact h.1
    | cons m ls =>
      rw [Text.separated_cons l (List.cons_ne_nil m ls)]
      exact fun hinside => (isInfix_of_append_cons hmark hinside).elim h.1 (ih h.2)

theorem not_isInfix_joined {ls : List (List Char)} (hmark : '\n' ∉ mark) (hne : mark ≠ [])
    (h : ∀ l ∈ ls, ¬mark <:+: l) : ¬mark <:+: Text.joined ls := by
  induction ls with
  | nil => simpa [Text.joined] using hne
  | cons l ls ih =>
    rw [List.forall_mem_cons] at h
    intro hinside
    have htext : Text.joined (l :: ls) = l ++ '\n' :: Text.joined ls := by simp [Text.joined]
    rw [htext] at hinside
    exact (isInfix_of_append_cons hmark hinside).elim h.1 (ih h.2)

/-! ### The closing mark -/

theorem before?_append {tail : List Char} (hx : x ∉ tail) (h : ¬x :: tail <:+: s) :
    before? (x :: tail) (s ++ (x :: tail ++ rest)) = some s := by
  induction s with
  | nil =>
    have hbegin : (x :: tail).isPrefixOf (x :: (tail ++ rest)) = true :=
      List.isPrefixOf_iff_prefix.mpr ⟨rest, rfl⟩
    rw [List.nil_append, List.cons_append, before?, if_pos hbegin]
  | cons a s ih =>
    have hbegin : ¬(x :: tail).isPrefixOf (a :: (s ++ (x :: tail ++ rest))) = true := by
      intro hbegin
      have := isPrefix_of_anchored hx (List.cons_ne_nil a s)
        (List.isPrefixOf_iff_prefix.mp hbegin)
      exact h this.isInfix
    have hmore := ih fun hinside => h (hinside.trans (List.suffix_cons a s).isInfix)
    rw [List.cons_append, before?, if_neg hbegin, hmore]
    rfl

/-- What stands before the closing mark does not hold it. -/
theorem exists_of_before? {front : List Char} (hmark : mark ≠ [])
    (h : before? mark s = some front) :
    (∃ rest, s = front ++ (mark ++ rest)) ∧ ¬mark <:+: front := by
  induction s generalizing front with
  | nil =>
    rw [before?] at h
    split at h
    · rename_i hbegin
      exact absurd (List.prefix_nil.mp (List.isPrefixOf_iff_prefix.mp hbegin)) hmark
    · cases h
  | cons c s ih =>
    rw [before?] at h
    split at h
    · rename_i hbegin
      cases h
      obtain ⟨rest, hrest⟩ := List.isPrefixOf_iff_prefix.mp hbegin
      exact ⟨⟨rest, hrest.symm⟩, fun hinside => hmark (List.infix_nil.mp hinside)⟩
    · rename_i hbegin
      obtain ⟨front', hfront', rfl⟩ := Option.map_eq_some_iff.mp h
      obtain ⟨⟨rest, rfl⟩, hinside⟩ := ih hfront'
      refine ⟨⟨rest, rfl⟩, fun hmore => ?_⟩
      rcases List.infix_cons_iff.mp hmore with hfront | hinfix
      · exact hbegin (List.isPrefixOf_iff_prefix.mpr (hfront.trans ⟨mark ++ rest, rfl⟩))
      · exact hinside hinfix

/-! ### The opening line -/

/-- The opening lines with the two kinds of line ends. -/
def openingLines : List (List Char) :=
  [openingMark ++ ['\n'], openingMark ++ ['\r', '\n']]

theorem dropLineEnd?_eq_some_iff : dropLineEnd? s = some rest ↔
    s = '\n' :: rest ∨ s = '\r' :: '\n' :: rest := by
  unfold dropLineEnd?
  split <;> simp_all [eq_comm]

theorem dropOpening?_eq_some_iff :
    dropOpening? s = some rest ↔ ∃ line ∈ openingLines, s = line ++ rest := by
  simp only [dropOpening?, Option.bind_eq_some_iff, Text.dropStart?_eq_some_iff,
    dropLineEnd?_eq_some_iff, openingLines, List.mem_cons, List.not_mem_nil, or_false,
    exists_eq_or_imp, exists_eq_left, List.append_assoc]
  constructor
  · rintro ⟨t, rfl, rfl | rfl⟩
    · exact .inl rfl
    · exact .inr rfl
  · rintro (rfl | rfl)
    · exact ⟨_, rfl, .inl rfl⟩
    · exact ⟨_, rfl, .inr rfl⟩

theorem openingLines_anchored {line : List Char} (h : line ∈ openingLines) :
    ∃ tail, line = '#' :: tail ∧ '#' ∉ tail := by
  simp only [openingLines, List.mem_cons, List.not_mem_nil, or_false] at h
  rcases h with rfl | rfl
  · exact ⟨_, rfl, by decide⟩
  · exact ⟨_, rfl, by decide⟩

/-- The block begins behind the first opening line. -/
theorem afterOpening?_append {line : List Char} (hline : line ∈ openingLines)
    (h : ∀ line ∈ openingLines, ¬line <:+: s) :
    afterOpening? (s ++ (line ++ rest)) = some rest := by
  have hfirst : dropOpening? (line ++ rest) = some rest :=
    dropOpening?_eq_some_iff.mpr ⟨line, hline, rfl⟩
  obtain ⟨tail, rfl, htail⟩ := openingLines_anchored hline
  induction s with
  | nil =>
    rw [List.cons_append] at hfirst
    rw [List.nil_append, List.cons_append, afterOpening?, hfirst, Option.some_or]
  | cons c s ih =>
    have hnone : dropOpening? (c :: (s ++ ('#' :: tail ++ rest))) = none := by
      rw [Option.eq_none_iff_forall_ne_some]
      intro t ht
      obtain ⟨other, hother, heq⟩ := dropOpening?_eq_some_iff.mp ht
      obtain ⟨tail', rfl, htail'⟩ := openingLines_anchored hother
      have hbegin : '#' :: tail' <+: c :: s ++ '#' :: (tail ++ rest) := ⟨t, heq.symm⟩
      exact h _ hother (isPrefix_of_anchored htail' (List.cons_ne_nil c s) hbegin).isInfix
    have hmore := ih fun line hline hinside =>
      h line hline (hinside.trans (List.suffix_cons c s).isInfix)
    rw [List.cons_append, afterOpening?, hnone, hmore, Option.none_or]

/-- No block is opened before the one that is read. -/
theorem exists_of_afterOpening? (h : afterOpening? s = some rest) :
    ∃ before, ∃ line ∈ openingLines, s = before ++ (line ++ rest) ∧
      ∀ line ∈ openingLines, ¬line <:+: before := by
  have hnonempty : ∀ line ∈ openingLines, line ≠ [] := by
    intro line hline
    obtain ⟨tail, rfl, _⟩ := openingLines_anchored hline
    exact List.cons_ne_nil _ tail
  induction s with
  | nil => cases h
  | cons c s ih =>
    cases hopening : dropOpening? (c :: s) with
    | some found =>
      rw [afterOpening?, hopening, Option.some_or] at h
      cases h
      obtain ⟨line, hline, heq⟩ := dropOpening?_eq_some_iff.mp hopening
      exact ⟨[], line, hline, heq, fun line hline hinside =>
        hnonempty line hline (List.infix_nil.mp hinside)⟩
    | none =>
      rw [afterOpening?, hopening, Option.none_or] at h
      obtain ⟨before, line, hline, rfl, hfirst⟩ := ih h
      refine ⟨c :: before, line, hline, rfl, fun other hother hinside => ?_⟩
      rcases List.infix_cons_iff.mp hinside with ⟨t, ht⟩ | hinfix
      · have hfound : dropOpening? (c :: (before ++ (line ++ rest))) =
            some (t ++ (line ++ rest)) := by
          refine dropOpening?_eq_some_iff.mpr ⟨other, hother, ?_⟩
          rw [← List.append_assoc other, ht, List.cons_append]
        rw [hopening] at hfound
        cases hfound
      · exact hfirst other hother hinfix

/-- The block of a text is what stands between an opening line and the closing mark. -/
theorem block?_of_line {line body : List Char} (hline : line ∈ openingLines)
    (hbefore : ∀ line ∈ openingLines, ¬line <:+: s) (hbody : ¬closingMark <:+: body) :
    block? (s ++ (line ++ (body ++ (closingMark ++ rest)))) = some body := by
  rw [block?, afterOpening?_append hline hbefore, Option.bind_some]
  have hclosing : closingMark = '#' :: " ///".toList := rfl
  rw [hclosing] at hbody ⊢
  exact before?_append (by decide) hbody

/-- The block of a text is what stands between the marks. -/
theorem block?_append {body : List Char} (hbefore : ∀ line ∈ openingLines, ¬line <:+: s)
    (hbody : ¬closingMark <:+: body) :
    block? (s ++ (openingMark ++ '\n' :: (body ++ (closingMark ++ rest)))) = some body := by
  have htext : s ++ (openingMark ++ '\n' :: (body ++ (closingMark ++ rest))) =
      s ++ ((openingMark ++ ['\n']) ++ (body ++ (closingMark ++ rest))) := by
    rw [List.append_assoc, List.singleton_append]
  rw [htext]
  exact block?_of_line List.mem_cons_self hbefore hbody

end Scriptorium.Manifest
