/-
How the text of an annotation is spaced, character by character.

The two passes that collapse blanks and tighten brackets come to one: a character that is not blank
is written behind a space exactly if blanks stand before it, the character written last is no opener
and it is no closer itself (`typeText_eq`). What is written is tight (`isTight_typeText`), and a
tight text is left as it is (`Pen.write_of_isTight`).
-/

import Scriptorium.Command.TypeText
import Scriptorium.Proofs.Text.Solid

namespace Scriptorium.Command

open Text (isBlank solid)

/-! ### The pen -/

/-- What has been written last, and whether blanks have been passed over since. -/
structure Pen where
  last : Option Char := none
  gap : Bool := false
deriving DecidableEq, Repr

namespace Pen

/-- Whether a space is written before a character. -/
def leavesSpace (p : Pen) (c : Char) : Bool :=
  p.gap && p.last.any (!isOpener ·) && !isCloser c

/-- The space that is written before a character, if any. -/
def space (p : Pen) (c : Char) : List Char :=
  if p.leavesSpace c then [' '] else []

/-- What is written of a text. -/
def write (p : Pen) : List Char → List Char
  | [] => []
  | c :: s =>
    if isBlank c then write { p with gap := true } s
    else p.space c ++ c :: write ⟨some c, false⟩ s

/-- The pen behind a text. -/
def behind (p : Pen) : List Char → Pen
  | [] => p
  | c :: s => if isBlank c then behind { p with gap := true } s else behind ⟨some c, false⟩ s

variable {p : Pen} {c : Char} {s t : List Char}

theorem write_cons_of_isBlank (h : isBlank c = true) (p : Pen) (s : List Char) :
    p.write (c :: s) = { p with gap := true }.write s :=
  if_pos h

theorem write_cons_of_not_blank (h : isBlank c = false) (p : Pen) (s : List Char) :
    p.write (c :: s) = p.space c ++ c :: Pen.write ⟨some c, false⟩ s :=
  if_neg (by simp [h])

theorem write_append (p : Pen) (s t : List Char) :
    p.write (s ++ t) = p.write s ++ (p.behind s).write t := by
  induction s generalizing p with
  | nil => rfl
  | cons c s ih =>
    rw [List.cons_append, write, write, behind]
    split
    · exact ih _
    · rw [ih, List.append_assoc, List.cons_append]

theorem behind_append (p : Pen) (s t : List Char) :
    p.behind (s ++ t) = (p.behind s).behind t := by
  induction s generalizing p with
  | nil => rfl
  | cons c s ih =>
    rw [List.cons_append, behind, behind]
    split <;> exact ih _

theorem behind_concat_of_not_blank (h : isBlank c = false) (p : Pen) (s : List Char) :
    p.behind (s ++ [c]) = ⟨some c, false⟩ := by
  rw [behind_append, behind, if_neg (by simp [h]), behind]

theorem space_subset (p : Pen) (c : Char) : ∀ d ∈ p.space c, d = ' ' := by
  unfold space
  split <;> simp

/-- Only blanks are lost and made. -/
theorem solid_write (p : Pen) (s : List Char) : solid (p.write s) = solid s := by
  induction s generalizing p with
  | nil => rfl
  | cons c s ih =>
    by_cases h : isBlank c = true
    · rw [write_cons_of_isBlank h, ih, Text.solid_cons_of_isBlank h]
    · have hc : isBlank c = false := by simpa using h
      have hspace : solid (p.space c) = [] :=
        Text.solid_eq_nil_iff.mpr fun d hd => by rw [space_subset p c d hd]; decide
      rw [write_cons_of_not_blank hc, Text.solid_append, hspace, List.nil_append,
        Text.solid_cons_of_not_blank hc, ih, Text.solid_cons_of_not_blank hc]

/-- What is written is a space or no blank, and stood in the text. -/
theorem mem_write (h : c ∈ p.write s) : c = ' ' ∨ c ∈ s ∧ isBlank c = false := by
  induction s generalizing p with
  | nil => cases h
  | cons d s ih =>
    have hmore : ∀ {q : Pen}, c ∈ q.write s → c = ' ' ∨ c ∈ d :: s ∧ isBlank c = false :=
      fun h => (ih h).imp_right fun h => ⟨List.mem_cons_of_mem d h.1, h.2⟩
    rw [write] at h
    split at h
    · exact hmore h
    · rename_i hblank
      rcases List.mem_append.mp h with hspace | h
      · exact .inl (space_subset p d c hspace)
      · rcases List.mem_cons.mp h with rfl | h
        · exact .inr ⟨List.mem_cons_self, by simpa using hblank⟩
        · exact hmore h

end Pen

/-! ### The two passes -/

/-- Blanks collapsed, one character at a time. -/
def collapsed (started gap : Bool) : List Char → List Char
  | [] => []
  | c :: s =>
    if isBlank c then collapsed started true s
    else (if started && gap then [' '] else []) ++ c :: collapsed true false s

/-- What follows a word that is being read, and what follows it behind blanks. -/
theorem intercalate_wordsFrom (s : List Char) :
    (∀ word ≠ [],
      [' '].intercalate (Text.wordsFrom word s) = word.reverse ++ collapsed true false s) ∧
    (∀ word : List Char, [' '].intercalate (word :: Text.wordsFrom [] s) =
      word ++ collapsed true true s) := by
  induction s with
  | nil =>
    refine ⟨fun word hword => ?_, fun word => ?_⟩
    · rw [Text.wordsFrom, if_neg (by simpa using hword)]
      simp [collapsed]
    · simp [Text.wordsFrom, collapsed]
  | cons c s ih =>
    obtain ⟨hword, hgap⟩ := ih
    by_cases hc : isBlank c = true
    · refine ⟨fun word hne => ?_, fun word => ?_⟩
      · rw [Text.wordsFrom, if_pos hc, if_neg (by simpa using hne), collapsed, if_pos hc, hgap]
      · rw [Text.wordsFrom, if_pos hc, List.isEmpty_nil, if_pos rfl, collapsed, if_pos hc, hgap]
    · refine ⟨fun word hne => ?_, fun word => ?_⟩
      · rw [Text.wordsFrom, if_neg hc, collapsed, if_neg hc, hword _ (List.cons_ne_nil c word)]
        simp
      · have hnext := hword [c] (List.cons_ne_nil c [])
        rw [Text.wordsFrom, if_neg hc, collapsed, if_neg hc]
        cases hwords : Text.wordsFrom [c] s with
        | nil =>
          rw [hwords] at hnext
          simp at hnext
        | cons next words =>
          rw [hwords] at hnext
          rw [List.intercalate_cons_cons, hnext]
          simp

theorem collapse_eq (gap : Bool) (s : List Char) : Text.collapse s = collapsed false gap s := by
  rw [Text.collapse, Text.words]
  induction s generalizing gap with
  | nil => rfl
  | cons c s ih =>
    rw [Text.wordsFrom, collapsed]
    split
    · exact ih true
    · rw [(intercalate_wordsFrom s).1 [c] (List.cons_ne_nil c [])]
      simp

theorem tightenFrom_collapsed (p : Pen) (s : List Char) :
    tightenFrom p.last (collapsed p.last.isSome p.gap s) = p.write s := by
  induction s generalizing p with
  | nil => rfl
  | cons c s ih =>
    rw [collapsed, Pen.write]
    by_cases hc : isBlank c = true
    · rw [if_pos hc, if_pos hc]
      exact ih { p with gap := true }
    · rw [if_neg hc, if_neg hc]
      have hspace : c ≠ ' ' := by
        rintro rfl
        exact hc (by decide)
      have hkept : ∀ last, tightenFrom last (c :: collapsed true false s) =
          c :: Pen.write ⟨some c, false⟩ s := by
        intro last
        rw [tightenFrom, if_neg (fun h => hspace h.1)]
        exact congrArg (c :: ·) (ih ⟨some c, false⟩)
      obtain ⟨last, gap⟩ := p
      cases last with
      | none => simp [hkept, Pen.space, Pen.leavesSpace]
      | some a =>
        cases gap with
        | false => simp [hkept, Pen.space, Pen.leavesSpace]
        | true =>
          have hstep : tightenFrom (some a) (' ' :: c :: collapsed true false s) =
              if isOpener a ∨ isCloser c then tightenFrom (some a) (c :: collapsed true false s)
              else ' ' :: tightenFrom (some ' ') (c :: collapsed true false s) := by
            rw [tightenFrom]
            simp
          cases ha : isOpener a <;> cases hcloser : isCloser c <;>
            simp [hstep, hkept, Pen.space, Pen.leavesSpace, ha, hcloser]

/-- The text of an annotation is written in one pass. -/
theorem typeText_eq (s : List Char) : typeText s = Pen.write {} s := by
  rw [typeText, tighten, collapse_eq false]
  exact tightenFrom_collapsed {} s

/-! ### Tight texts -/

/-- A text in which every blank is a single space between two characters, the first no opener and
the second no closer. -/
def IsTight (s : List Char) : Prop :=
  ∀ before c after, s = before ++ c :: after → isBlank c = true →
    c = ' ' ∧ (∃ a ∈ before.getLast?, isBlank a = false ∧ isOpener a = false) ∧
      ∃ b ∈ after.head?, isBlank b = false ∧ isCloser b = false

variable {s t u : List Char} {a c : Char}

theorem isTight_of_not_blank (h : ∀ c ∈ s, isBlank c = false) : IsTight s := by
  rintro before c after rfl hc
  rw [h c (by simp)] at hc
  cases hc

theorem IsTight.of_append_left (h : IsTight (s ++ t))
    (hlast : ∀ c ∈ s.getLast?, isBlank c = false) : IsTight s := by
  rintro before c after rfl hc
  obtain ⟨hspace, hbefore, b, hb, hcloser⟩ := h before c (after ++ t) (by simp) hc
  refine ⟨hspace, hbefore, b, ?_, hcloser⟩
  cases after with
  | nil =>
    rw [hlast c (by simp)] at hc
    cases hc
  | cons d after => simpa using hb

theorem IsTight.of_append_right (h : IsTight (s ++ t))
    (hhead : ∀ c ∈ t.head?, isBlank c = false) : IsTight t := by
  rintro before c after rfl hc
  obtain ⟨hspace, ⟨a, ha, hopener⟩, hafter⟩ := h (s ++ before) c after (by simp) hc
  refine ⟨hspace, ⟨a, ?_, hopener⟩, hafter⟩
  cases before with
  | nil =>
    rw [hhead c (by simp)] at hc
    cases hc
  | cons d before => simpa [List.getLast?_append] using ha

theorem isTight_cons (ha : isBlank a = false) (hs : ∀ c ∈ s.head?, isBlank c = false)
    (h : IsTight s) : IsTight (a :: s) := by
  intro before c after heq hc
  cases before with
  | nil =>
    obtain ⟨rfl, -⟩ := List.cons.inj heq
    rw [ha] at hc
    cases hc
  | cons d before =>
    obtain ⟨rfl, rfl⟩ := List.cons.inj heq
    obtain ⟨hspace, ⟨b, hb, hopener⟩, hafter⟩ := h before c after rfl hc
    refine ⟨hspace, ⟨b, ?_, hopener⟩, hafter⟩
    cases before with
    | nil =>
      rw [hs c (by simp)] at hc
      cases hc
    | cons e before => simpa [List.getLast?_cons_cons] using hb

theorem isTight_cons_space (ha : isBlank a = false) (hopener : isOpener a = false)
    (hc : isBlank c = false) (hcloser : isCloser c = false) (h : IsTight (c :: s)) :
    IsTight (a :: ' ' :: c :: s) := by
  intro before d after heq hd
  match before with
  | [] =>
    obtain ⟨rfl, -⟩ := List.cons.inj heq
    rw [ha] at hd
    cases hd
  | [e] =>
    simp only [List.cons_append, List.nil_append, List.cons.injEq] at heq
    obtain ⟨rfl, rfl, rfl⟩ := heq
    exact ⟨rfl, ⟨a, by simp, ha, hopener⟩, c, by simp, hc, hcloser⟩
  | [e, f] =>
    simp only [List.cons_append, List.nil_append, List.cons.injEq] at heq
    obtain ⟨-, -, rfl, -⟩ := heq
    rw [hc] at hd
    cases hd
  | e :: f :: g :: before =>
    simp only [List.cons_append, List.cons.injEq] at heq
    obtain ⟨-, -, rfl, rfl⟩ := heq
    obtain ⟨hspace, ⟨b, hb, hopener⟩, hafter⟩ := h (c :: before) d after rfl hd
    exact ⟨hspace, ⟨b, by simpa [List.getLast?_cons_cons] using hb, hopener⟩, hafter⟩

namespace Pen

/-- What is written behind a character is tight together with it. -/
theorem isTight_cons_write (ha : isBlank a = false) (gap : Bool) (s : List Char) :
    IsTight (a :: Pen.write ⟨some a, gap⟩ s) := by
  induction s generalizing a gap with
  | nil => exact isTight_of_not_blank (by simpa [write] using ha)
  | cons c s ih =>
    by_cases hc : isBlank c = true
    · rw [write_cons_of_isBlank hc]
      exact ih ha true
    · have hc : isBlank c = false := by simpa using hc
      rw [write_cons_of_not_blank hc, space]
      split
      · rename_i hspace
        simp only [leavesSpace, Option.any_some, Bool.and_eq_true, Bool.not_eq_true'] at hspace
        exact isTight_cons_space ha hspace.1.2 hc hspace.2 (ih hc false)
      · exact isTight_cons ha (by simpa using hc) (ih hc false)

/-- A tight text is written as it is. -/
theorem write_of_isTight : ∀ {a : Char} {s : List Char}, isBlank a = false → IsTight (a :: s) →
    Pen.write ⟨some a, false⟩ s = s
  | _, [], _, _ => rfl
  | a, b :: s, ha, h => by
    by_cases hb : isBlank b = true
    · obtain ⟨rfl, ⟨a', ha', -, hopener⟩, c, hc, hblank, hcloser⟩ := h [a] b s rfl hb
      obtain rfl : a = a' := by simpa using ha'
      cases s with
      | nil => simp at hc
      | cons d s =>
        obtain rfl : d = c := by simpa using hc
        have hrest :=
          IsTight.of_append_right (s := [a, ' ']) (t := d :: s) h (by simpa using hblank)
        rw [write_cons_of_isBlank hb, write_cons_of_not_blank hblank, write_of_isTight hblank hrest]
        simp [space, leavesSpace, hopener, hcloser]
    · have hb : isBlank b = false := by simpa using hb
      have hrest := IsTight.of_append_right (s := [a]) (t := b :: s) h (by simpa using hb)
      rw [write_cons_of_not_blank hb, write_of_isTight hb hrest]
      simp [space, leavesSpace]

end Pen

/-- What is written is tight. -/
theorem isTight_typeText (s : List Char) : IsTight (typeText s) := by
  rw [typeText_eq]
  have h : ∀ gap, IsTight (Pen.write ⟨none, gap⟩ s) := by
    induction s with
    | nil => exact fun _ => isTight_of_not_blank (by simp [Pen.write])
    | cons c s ih =>
      intro gap
      by_cases hc : isBlank c = true
      · rw [Pen.write_cons_of_isBlank hc]
        exact ih true
      · have hc : isBlank c = false := by simpa using hc
        rw [Pen.write_cons_of_not_blank hc]
        simpa [Pen.space, Pen.leavesSpace] using Pen.isTight_cons_write hc false s
  exact h false

/-- The tight texts are those that are left as they are. -/
theorem isTight_iff : IsTight s ↔ typeText s = s := by
  refine ⟨fun h => ?_, fun h => h ▸ isTight_typeText s⟩
  rw [typeText_eq]
  cases s with
  | nil => rfl
  | cons c s =>
    have hc : isBlank c = false := by
      by_contra hc
      obtain ⟨-, ⟨a, ha, -⟩, -⟩ := h [] c s rfl (by simpa using hc)
      cases ha
    rw [Pen.write_cons_of_not_blank hc, Pen.write_of_isTight hc h]
    rfl

instance : DecidablePred IsTight :=
  fun _ => decidable_of_iff _ isTight_iff.symm

/-! ### What is written behind a token -/

/-- A character at which a token ends, if it is no string: a blank, or one beside which no space is
left. -/
def isStop (c : Char) : Bool :=
  isBlank c || isOpener c || isCloser c

/-- A text that is empty or begins with a stop. -/
def Stops (s : List Char) : Prop :=
  ∀ c ∈ s.head?, isStop c = true

theorem Pen.stops_write_of_gap (ha : isOpener a = false) (s : List Char) :
    Stops (Pen.write ⟨some a, true⟩ s) := by
  induction s with
  | nil => simp [Stops, write]
  | cons c s ih =>
    by_cases hc : isBlank c = true
    · rwa [write_cons_of_isBlank hc]
    · rw [write_cons_of_not_blank (by simpa using hc), space]
      split
      · intro d hd
        obtain rfl : ' ' = d := by simpa using hd
        decide
      · rename_i hspace
        intro d hd
        obtain rfl : c = d := by simpa using hd
        have hcloser : isCloser c = true := by simpa [leavesSpace, ha] using hspace
        simp [isStop, hcloser]

/-- A text and what is written of it behind a character that is no opener begin alike, up to a
stop. -/
theorem Pen.exists_write_eq (ha : isOpener a = false) (s : List Char) :
    ∃ p rest rest', s = p ++ rest ∧ Pen.write ⟨some a, false⟩ s = p ++ rest' ∧ Stops rest' := by
  induction s generalizing a with
  | nil => exact ⟨[], [], [], rfl, rfl, by simp [Stops]⟩
  | cons c s ih =>
    by_cases hc : isBlank c = true
    · refine ⟨[], c :: s, Pen.write ⟨some a, false⟩ (c :: s), rfl, rfl, ?_⟩
      rw [write_cons_of_isBlank hc]
      exact stops_write_of_gap ha s
    · have hwrite := write_cons_of_not_blank (by simpa using hc) ⟨some a, false⟩ s
      cases hopener : isOpener c with
      | true =>
        refine ⟨[], c :: s, Pen.write ⟨some a, false⟩ (c :: s), rfl, rfl, ?_⟩
        rw [hwrite]
        simp [Stops, space, leavesSpace, isStop, hopener]
      | false =>
        obtain ⟨p, rest, rest', rfl, hp, hrest'⟩ := ih hopener
        refine ⟨c :: p, rest, rest', rfl, ?_, hrest'⟩
        rw [hwrite, hp]
        simp [space, leavesSpace]

end Scriptorium.Command
