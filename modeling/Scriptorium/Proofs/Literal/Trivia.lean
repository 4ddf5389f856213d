/-
What may stand between the tokens of a literal, as a grammar: blanks, remarks that a line feed
ends, and backslashes before a line end.

The reader drops exactly such text in front of a token (`skipTrivia_append`), and a token is not
continued by it (`Trivia.severs_append`).
-/

import Scriptorium.Literal.Quoted
import Scriptorium.Proofs.Text.CharacterClass

namespace Scriptorium.Literal

open Text (isBlank isWordChar)

/-! ### The grammar -/

/-- Text that stands for nothing. -/
inductive Trivia : List Char → Prop where
  | nil : Trivia []
  | blank {c : Char} {s : List Char} : isBlank c = true → Trivia s → Trivia (c :: s)
  | remark {text s : List Char} :
      '\n' ∉ text → Trivia s → Trivia ('#' :: (text ++ '\n' :: s))
  | continued {c : Char} {s : List Char} :
      c = '\n' ∨ c = '\r' → Trivia s → Trivia ('\\' :: c :: s)

theorem Trivia.append {s t : List Char} (hs : Trivia s) (ht : Trivia t) : Trivia (s ++ t) := by
  induction hs with
  | nil => exact ht
  | blank hc _ ih => exact .blank hc ih
  | remark htext _ ih => simpa using Trivia.remark htext ih
  | continued hc _ ih => exact .continued hc ih

theorem Trivia.space : Trivia [' '] :=
  .blank (by decide) .nil

/-! ### Skipping -/

/-- A remark is skipped to its line feed. -/
theorem skipTriviaFrom_remark {text : List Char} (h : '\n' ∉ text) (s : List Char) :
    skipTriviaFrom true (text ++ '\n' :: s) = skipTriviaFrom false s := by
  induction text with
  | nil => simp [skipTriviaFrom]
  | cons c text ih =>
    simp only [List.mem_cons, not_or] at h
    have hc : (c != '\n') = true := by simpa using Ne.symm h.1
    rw [List.cons_append, skipTriviaFrom, hc]
    exact ih h.2

/-- A remark that no line feed ends is skipped to the end of the text. -/
theorem skipTrivia_remark_end {text : List Char} (h : '\n' ∉ text) :
    skipTrivia ('#' :: text) = [] := by
  have hrun (text : List Char) (h : '\n' ∉ text) : skipTriviaFrom true text = [] := by
    induction text with
    | nil => rfl
    | cons c text ih =>
      simp only [List.mem_cons, not_or] at h
      have hc : (c != '\n') = true := by simpa using Ne.symm h.1
      rw [skipTriviaFrom, hc]
      exact ih h.2
  exact hrun text h

theorem skipTrivia_append {t : List Char} (h : Trivia t) (s : List Char) :
    skipTrivia (t ++ s) = skipTrivia s := by
  induction h with
  | nil => rfl
  | blank hc _ ih =>
    rw [← ih]
    simp [skipTrivia, skipTriviaFrom, hc]
  | @remark text u htext _ ih =>
    have hblank : isBlank '#' = false := by decide
    rw [← ih, List.cons_append, List.append_assoc, List.cons_append]
    simp only [skipTrivia, skipTriviaFrom, hblank, Bool.false_eq_true, if_false, if_true]
    exact skipTriviaFrom_remark htext (u ++ s)
  | @continued c u hc _ ih =>
    have hblank : isBlank '\\' = false := by decide
    have hend : isBlank c = true := by rcases hc with rfl | rfl <;> decide
    rw [← ih]
    rcases hc with rfl | rfl <;>
      simp [skipTrivia, skipTriviaFrom, hblank, hend, atLineEnd]

@[simp] theorem skipTrivia_nil : skipTrivia [] = [] := rfl

theorem skipTrivia_eq_nil {t : List Char} (h : Trivia t) : skipTrivia t = [] := by
  simpa using skipTrivia_append h []

/-- A character that begins no trivia. -/
def isSolid (c : Char) : Bool :=
  !isBlank c && c != '#' && c != '\\'

theorem skipTrivia_of_solid {c : Char} (h : isSolid c = true) (s : List Char) :
    skipTrivia (c :: s) = c :: s := by
  simp only [isSolid, Bool.and_eq_true, Bool.not_eq_true', bne_iff_ne] at h
  simp [skipTrivia, skipTriviaFrom, h]

theorem isSolid_of_isWordChar {c : Char} (h : isWordChar c = true) : isSolid c = true := by
  have hblank : isBlank c = false := by
    rw [Bool.eq_false_iff]
    intro hb
    rw [Text.isWordChar_eq_false_of_isBlank hb] at h
    cases h
  have hhash : c ≠ '#' := by
    rintro rfl
    exact absurd h (by decide)
  have hslash : c ≠ '\\' := by
    rintro rfl
    exact absurd h (by decide)
  simp [isSolid, hblank, hhash, hslash]

/-! ### Where trivia end -/

/-- Trivia begin here: a blank, a remark or a backslash that ends a line. -/
def beginsTrivia : List Char → Bool
  | [] => false
  | c :: s => isBlank c || c == '#' || (c == '\\' && atLineEnd s)

theorem skipTrivia_eq_self {s : List Char} (h : beginsTrivia s = false) : skipTrivia s = s := by
  cases s with
  | nil => rfl
  | cons c s =>
    simp only [beginsTrivia, Bool.or_eq_false_iff, Bool.and_eq_false_imp, beq_eq_false_iff_ne,
      beq_iff_eq] at h
    obtain ⟨⟨hblank, hhash⟩, hslash⟩ := h
    have hcontinued : ¬(c = '\\' ∧ atLineEnd s = true) := by
      rintro ⟨hc, hend⟩
      rw [hslash hc] at hend
      cases hend
    simp only [skipTrivia, skipTriviaFrom, hblank, if_neg hhash, if_neg hcontinued,
      Bool.false_eq_true, if_false]

/-- No trivia begin where they have been skipped. -/
theorem beginsTrivia_skipTriviaFrom (inRemark : Bool) (s : List Char) :
    beginsTrivia (skipTriviaFrom inRemark s) = false := by
  fun_induction skipTriviaFrom inRemark s with
  | case1 => rfl
  | case2 c s ih => exact ih
  | case3 c s hblank ih => exact ih
  | case4 s hblank ih => exact ih
  | case5 c s hblank hhash hslash ih => exact ih
  | case6 c s hblank hhash hslash =>
    simp only [beginsTrivia, Bool.or_eq_false_iff, Bool.and_eq_false_imp, beq_eq_false_iff_ne,
      beq_iff_eq]
    refine ⟨⟨by simpa using hblank, hhash⟩, fun hc => ?_⟩
    rw [Bool.eq_false_iff]
    exact fun hend => hslash ⟨hc, hend⟩

theorem beginsTrivia_skipTrivia (s : List Char) : beginsTrivia (skipTrivia s) = false :=
  beginsTrivia_skipTriviaFrom false s

@[simp] theorem skipTrivia_skipTrivia (s : List Char) :
    skipTrivia (skipTrivia s) = skipTrivia s :=
  skipTrivia_eq_self (beginsTrivia_skipTrivia s)

/-- Trivia that do not begin in a text do not begin where the text is cut off. -/
theorem beginsTrivia_of_isPrefix {s t : List Char} (h : beginsTrivia s = false) (ht : t <+: s) :
    beginsTrivia t = false := by
  cases s with
  | nil => rw [List.prefix_nil.mp ht, beginsTrivia]
  | cons c s =>
    rcases List.prefix_cons_iff.mp ht with rfl | ⟨u, rfl, hu⟩
    · rfl
    · simp only [beginsTrivia, Bool.or_eq_false_iff, Bool.and_eq_false_imp] at h ⊢
      refine ⟨h.1, fun hc => ?_⟩
      have hend := h.2 hc
      cases u with
      | nil => rfl
      | cons d u =>
        obtain ⟨v, rfl⟩ := hu
        exact hend

/-- A remark may be longer. -/
theorem Trivia.remark_cons {c : Char} {s : List Char} (hc : c ≠ '\n') (h : Trivia ('#' :: s)) :
    Trivia ('#' :: c :: s) := by
  cases h with
  | blank hblank _ => exact absurd hblank (by decide)
  | @remark text u htext hu =>
    rw [← List.cons_append]
    exact .remark (by simp [Ne.symm hc, htext]) hu

/-- The character behind a backslash that ends a line is the first of the trivia behind it. -/
theorem Trivia.backslash {t u : List Char} (ht : Trivia t) (hu : beginsTrivia u = false)
    (hend : atLineEnd (t ++ u) = true) : Trivia ('\\' :: t) := by
  cases ht with
  | nil =>
    cases u with
    | nil => cases hend
    | cons c u =>
      have hc : c = '\n' ∨ c = '\r' := by simpa [atLineEnd] using hend
      rcases hc with rfl | rfl <;> cases hu
  | @blank c s hblank hs => exact .continued (by simpa [atLineEnd] using hend) hs
  | remark _ _ => cases hend
  | continued _ _ => cases hend

/-- What has been skipped is trivia, unless it is a remark at the end of the text. A remark that
has begun is trivia with the sign that began it. -/
theorem exists_trivia_from (inRemark : Bool) {s : List Char}
    (h : skipTriviaFrom inRemark s ≠ []) :
    ∃ t, Trivia (if inRemark then '#' :: t else t) ∧ s = t ++ skipTriviaFrom inRemark s := by
  fun_induction skipTriviaFrom inRemark s with
  | case1 => exact absurd rfl h
  | case2 c s ih =>
    obtain ⟨t, ht, hs⟩ := ih h
    refine ⟨c :: t, ?_, congrArg (c :: ·) hs⟩
    by_cases hc : c = '\n'
    · subst hc
      exact @Trivia.remark [] t (by simp) ht
    · have hmore : (c != '\n') = true := bne_iff_ne.mpr hc
      rw [hmore] at ht
      exact ht.remark_cons hc
  | case3 c s hblank ih =>
    obtain ⟨t, ht, hs⟩ := ih h
    exact ⟨c :: t, .blank hblank ht, congrArg (c :: ·) hs⟩
  | case4 s hblank ih =>
    obtain ⟨t, ht, hs⟩ := ih h
    exact ⟨'#' :: t, ht, congrArg ('#' :: ·) hs⟩
  | case5 c s hblank hhash hslash ih =>
    obtain ⟨t, ht, hs⟩ := ih h
    obtain ⟨rfl, hend⟩ := hslash
    rw [hs] at hend
    exact ⟨'\\' :: t, ht.backslash (beginsTrivia_skipTriviaFrom false s) hend,
      congrArg ('\\' :: ·) hs⟩
  | case6 c s => exact ⟨[], .nil, rfl⟩

theorem exists_trivia_append {s : List Char} (h : skipTrivia s ≠ []) :
    ∃ t, Trivia t ∧ s = t ++ skipTrivia s :=
  exists_trivia_from false h

theorem isSuffix_skipTrivia (s : List Char) : skipTrivia s <:+ s := by
  by_cases h : skipTrivia s = []
  · rw [h]
    exact List.nil_suffix
  · obtain ⟨t, _, hs⟩ := exists_trivia_append h
    exact ⟨t, hs.symm⟩

/-- Behind trivia the text is found again, wherever it is cut off. -/
theorem skipTrivia_append_of_isPrefix {s t u : List Char} (ht : Trivia t)
    (hu : u <+: skipTrivia s) : skipTrivia (t ++ u) = u := by
  rw [skipTrivia_append ht]
  exact skipTrivia_eq_self (beginsTrivia_of_isPrefix (beginsTrivia_skipTrivia s) hu)

/-! ### Ends of tokens -/

theorem isQuote_iff {c : Char} : isQuote c = true ↔ c = '"' ∨ c = '\'' := by
  simp [isQuote]

/-- No word, no numeral and no quotation goes on where the text begins. -/
def Severs (s : List Char) : Prop :=
  ∀ c ∈ s.head?, isWordChar c = false ∧ c ≠ '.' ∧ isQuote c = false

theorem severs_nil : Severs [] := by
  simp [Severs]

theorem severs_cons {c : Char} {s : List Char} :
    Severs (c :: s) ↔ isWordChar c = false ∧ c ≠ '.' ∧ isQuote c = false := by
  simp [Severs]

/-- Trivia continues no token. -/
theorem Trivia.severs_append {t s : List Char} (h : Trivia t) (hs : t = [] → Severs s) :
    Severs (t ++ s) := by
  cases h with
  | nil => exact hs rfl
  | @blank c u hc _ =>
    refine severs_cons.mpr ⟨Text.isWordChar_eq_false_of_isBlank hc, ?_, ?_⟩
    · rintro rfl
      exact absurd hc (by decide)
    · rw [Bool.eq_false_iff]
      intro hquote
      rcases isQuote_iff.mp hquote with rfl | rfl <;> exact absurd hc (by decide)
  | remark _ _ => exact severs_cons.mpr (by decide)
  | continued _ _ => exact severs_cons.mpr (by decide)

end Scriptorium.Literal
