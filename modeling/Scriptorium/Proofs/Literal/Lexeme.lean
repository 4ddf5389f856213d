/-
The words of a source that may be names.

A source is cut into lexemes without regard to what it denotes: strings with their marks, blanks
and remarks are set aside, and what is left are words and single characters. A word is a name
unless it begins with a digit or stands directly behind the decimal point of a numeral.
-/

import Scriptorium.Literal.Reader
import Scriptorium.Proofs.Literal.Trivia
import Scriptorium.Proofs.Text.Cut

namespace Scriptorium.Literal

open Text (isBlank isLetter isWordChar)

/-! ### Lexemes -/

/-- A stretch of source. -/
inductive Lexeme where
  /-- A blank, a remark or the backslash of a continued line. -/
  | gap
  /-- A piece of a string with its mark. -/
  | quoted
  | word (w : List Char)
  | mark (c : Char)
deriving DecidableEq

/-- What follows the quotation marks that end a body. A backslash keeps the character behind it
from ending the body. -/
def dropBody (form : PieceForm) (s : List Char) : List Char :=
  match s with
  | [] => []
  | c :: s =>
    if c = form.quote then
      match form.ending? s with
      | some rest => rest
      | none => dropBody form s
    else if c = '\\' then dropBody form s.tail
    else dropBody form s
termination_by s.length
decreasing_by all_goals grind

theorem length_dropBody_le (form : PieceForm) (s : List Char) :
    (dropBody form s).length ≤ s.length := by
  fun_induction dropBody form s with
  | case2 s rest hend =>
    have := PieceForm.length_ending?_le hend
    grind
  | _ => grind

/-- What follows the piece that begins here. -/
def dropPiece (s : List Char) : List Char :=
  match readForm false (s.dropWhile Char.isAlpha) with
  | .ok (form, body) => dropBody form body
  | .error _ => []

theorem length_dropPiece_lt {s : List Char} (h : s ≠ []) : (dropPiece s).length < s.length := by
  have hmark := (List.dropWhile_sublist (l := s) Char.isAlpha).length_le
  unfold dropPiece
  split
  · rename_i form body hform
    have := length_readForm_lt hform
    have := length_dropBody_le form body
    omega
  · exact List.length_pos_iff.mpr h

/-- The lexemes of a source, in order. -/
def lexemes (s : List Char) : List Lexeme :=
  match s with
  | [] => []
  | c :: rest =>
    if isBlank c = true ∨ (c = '\\' ∧ atLineEnd rest = true) then .gap :: lexemes rest
    else if c = '#' then .gap :: lexemes (rest.dropWhile (· != '\n'))
    else if atPiece (c :: rest) then .quoted :: lexemes (dropPiece (c :: rest))
    else if _hword : isWordChar c then
      .word ((c :: rest).takeWhile isWordChar) :: lexemes ((c :: rest).dropWhile isWordChar)
    else .mark c :: lexemes rest
termination_by s.length
decreasing_by
  · simp
  · have := (List.dropWhile_sublist (l := rest) (· != '\n')).length_le
    simp only [List.length_cons]
    omega
  · exact length_dropPiece_lt (List.cons_ne_nil c rest)
  · have := (List.dropWhile_sublist (l := rest) isWordChar).length_le
    rw [List.dropWhile_cons_of_pos _hword]
    simp only [List.length_cons]
    omega
  · simp

/-! ### Names -/

/-- The whole part of a numeral: digits with underscores. -/
def isWhole (w : List Char) : Bool :=
  w.head?.any Char.isDigit && w.all isDigitPart

/-- A word that begins with a letter or an underscore. -/
def beginsName (w : List Char) : Bool :=
  w.head?.any fun c => isLetter c || c == '_'

/-- What stands directly before a lexeme. -/
inductive Before where
  | other
  /-- The whole part of a numeral. -/
  | whole
  /-- The decimal point behind a whole part. -/
  | decimalPoint
  /-- A point that stands behind no whole part. -/
  | point
deriving DecidableEq

/-- What stands before the lexeme after `l`. -/
def Before.next (b : Before) : Lexeme → Before
  | .mark c => if c ≠ '.' then .other else if b = .whole then .decimalPoint else .point
  | .word w => if isWhole w ∧ b = .other then .whole else .other
  | .gap | .quoted => .other

/-- The names among the lexemes behind `b`. -/
def namesFrom (b : Before) : List Lexeme → List (List Char)
  | [] => []
  | .word w :: ls =>
    if beginsName w ∧ b ≠ .decimalPoint then w :: namesFrom (b.next (.word w)) ls
    else namesFrom (b.next (.word w)) ls
  | l :: ls => namesFrom (b.next l) ls

/-- The names that a source mentions. -/
def names (source : String) : List (List Char) :=
  namesFrom .other (lexemes source.toList)

/-- The names of constants. -/
def constantNames : List (List Char) :=
  ["None".toList, "True".toList, "False".toList]

/-! ### Underscores behind signs -/

/-- Whether a word that begins with an underscore stands behind a sign, with nothing but gaps and
points between them; `signed` says that a sign has been met. -/
def signedUnderscoreFrom (signed : Bool) : List Lexeme → Bool
  | [] => false
  | .gap :: ls => signedUnderscoreFrom signed ls
  | .quoted :: ls => signedUnderscoreFrom false ls
  | .mark c :: ls =>
    signedUnderscoreFrom (c == '+' || c == '-' || (signed && c == '.')) ls
  | .word w :: ls => (signed && w.head? == some '_') || signedUnderscoreFrom false ls

/-- Whether some sign of a source is followed by a word that begins with an underscore. -/
def signedUnderscore (source : String) : Bool :=
  signedUnderscoreFrom false (lexemes source.toList)

/-! ### Cutting off one lexeme -/

/-- No word goes on here and no string begins. -/
def Breaks (s : List Char) : Prop :=
  ∀ c ∈ s.head?, isWordChar c = false ∧ isQuote c = false

theorem Severs.breaks {s : List Char} (h : Severs s) : Breaks s := fun c hc =>
  ⟨(h c hc).1, (h c hc).2.2⟩

theorem breaks_cons {c : Char} {s : List Char} :
    Breaks (c :: s) ↔ isWordChar c = false ∧ isQuote c = false := by
  simp [Breaks]

theorem Breaks.dropWhile_isAlpha {s : List Char} (h : Breaks s) :
    s.dropWhile Char.isAlpha = s := by
  cases s with
  | nil => rfl
  | cons c s =>
    have hword := (breaks_cons.mp h).1
    refine List.dropWhile_cons_of_neg fun halpha => ?_
    rw [Text.isWordChar_of_isAlpha halpha] at hword
    cases hword

theorem isQuote_eq_false_of_isWordChar {c : Char} (h : isWordChar c = true) :
    isQuote c = false := by
  rw [Bool.eq_false_iff]
  intro hquote
  rcases isQuote_iff.mp hquote with rfl | rfl <;> exact absurd h (by decide)

/-- No string begins with a word that no quotation mark follows. -/
theorem atPiece_word {w rest : List Char} (hw : ∀ c ∈ w, isWordChar c = true)
    (hrest : Breaks rest) : atPiece (w ++ rest) = false := by
  have hhead : ((w ++ rest).dropWhile Char.isAlpha).head?.any isQuote = false := by
    induction w with
    | nil =>
      rw [List.nil_append, hrest.dropWhile_isAlpha]
      cases rest with
      | nil => rfl
      | cons c rest => exact (breaks_cons.mp hrest).2
    | cons c w ih =>
      rw [List.forall_mem_cons] at hw
      rw [List.cons_append, List.dropWhile_cons]
      split
      · exact ih hw.2
      · exact isQuote_eq_false_of_isWordChar hw.1
  simp only [atPiece, hhead, Bool.and_false]

@[simp] theorem lexemes_nil : lexemes [] = [] := by
  rw [lexemes]

theorem lexemes_gap {c : Char} {s : List Char}
    (h : isBlank c = true ∨ (c = '\\' ∧ atLineEnd s = true)) :
    lexemes (c :: s) = .gap :: lexemes s := by
  rw [lexemes, if_pos h]

theorem lexemes_remark (s : List Char) :
    lexemes ('#' :: s) = .gap :: lexemes (s.dropWhile (· != '\n')) := by
  have hblank : isBlank '#' = false := by decide
  rw [lexemes, if_neg (by simp [hblank]), if_pos rfl]

theorem lexemes_solid {c : Char} (h : isSolid c = true) (s : List Char) :
    lexemes (c :: s) =
      if atPiece (c :: s) then .quoted :: lexemes (dropPiece (c :: s))
      else if isWordChar c then
        .word ((c :: s).takeWhile isWordChar) :: lexemes ((c :: s).dropWhile isWordChar)
      else .mark c :: lexemes s := by
  simp only [isSolid, Bool.and_eq_true, Bool.not_eq_true', bne_iff_ne] at h
  rw [lexemes, if_neg (by simp [h]), if_neg h.1.2]
  rfl

theorem lexemes_mark {c : Char} (h : isSolid c = true) {s : List Char} (hbreaks : Breaks (c :: s)) :
    lexemes (c :: s) = .mark c :: lexemes s := by
  have hpiece : atPiece (c :: s) = false := atPiece_word (w := []) (by simp) hbreaks
  rw [lexemes_solid h, hpiece, (breaks_cons.mp hbreaks).1]
  rfl

/-- The lexemes of a stretch of word characters. -/
def wordOf (w : List Char) : List Lexeme :=
  if w = [] then [] else [.word w]

theorem lexemes_word {w rest : List Char} (hw : ∀ c ∈ w, isWordChar c = true)
    (hrest : Breaks rest) : lexemes (w ++ rest) = wordOf w ++ lexemes rest := by
  cases w with
  | nil => rfl
  | cons c w =>
    have hc := hw c List.mem_cons_self
    have hstop : ∀ a ∈ rest.head?, isWordChar a = false := fun a ha => (hrest a ha).1
    have hpiece := atPiece_word hw hrest
    rw [List.cons_append] at hpiece ⊢
    rw [lexemes_solid (isSolid_of_isWordChar hc), hpiece, hc, ← List.cons_append,
      Text.takeWhile_append hw hstop, Text.dropWhile_append hw hstop]
    rfl

/-- A piece begins with a letter of its mark or with its quotation mark. -/
theorem isAlpha_or_isQuote_of_atPiece {c : Char} {s : List Char} (h : atPiece (c :: s) = true) :
    c.isAlpha = true ∨ isQuote c = true := by
  by_cases halpha : c.isAlpha = true
  · exact .inl halpha
  · simp only [atPiece, List.dropWhile_cons_of_neg halpha, Bool.and_eq_true, List.head?_cons,
      Option.any_some] at h
    exact .inr h.2

/-- A piece is one lexeme. -/
theorem lexemes_piece {s : List Char} (h : atPiece s = true) :
    lexemes s = .quoted :: lexemes (dropPiece s) := by
  cases s with
  | nil => cases h
  | cons c s =>
    have hsolid : isSolid c = true := by
      rcases isAlpha_or_isQuote_of_atPiece h with halpha | hquote
      · exact isSolid_of_isWordChar (Text.isWordChar_of_isAlpha halpha)
      · rcases isQuote_iff.mp hquote with rfl | rfl <;> decide
    rw [lexemes_solid hsolid, h]
    rfl

theorem lexemes_skipTriviaFrom (inRemark : Bool) (s : List Char) :
    ∃ n, lexemes (if inRemark then s.dropWhile (· != '\n') else s) =
      List.replicate n .gap ++ lexemes (skipTriviaFrom inRemark s) := by
  induction s generalizing inRemark with
  | nil => exact ⟨0, by cases inRemark <;> simp [skipTriviaFrom]⟩
  | cons c s ih =>
    cases inRemark with
    | true =>
      obtain ⟨n, hn⟩ := ih (c != '\n')
      by_cases hc : c = '\n'
      · subst hc
        refine ⟨n + 1, ?_⟩
        rw [if_pos rfl, List.dropWhile_cons_of_neg (by decide), lexemes_gap (.inl (by decide))]
        simpa [skipTriviaFrom, List.replicate_succ] using hn
      · refine ⟨n, ?_⟩
        rw [if_pos rfl, List.dropWhile_cons_of_pos (by simpa using hc)]
        simpa [skipTriviaFrom, hc] using hn
    | false =>
      rw [if_neg Bool.false_ne_true]
      by_cases hgap : isBlank c = true ∨ (c = '\\' ∧ atLineEnd s = true)
      · obtain ⟨n, hn⟩ := ih false
        refine ⟨n + 1, ?_⟩
        have hskip : skipTriviaFrom false (c :: s) = skipTriviaFrom false s := by
          rcases hgap with hblank | ⟨rfl, hend⟩
          · simp [skipTriviaFrom, hblank]
          · simp [skipTriviaFrom, hend]
        rw [lexemes_gap hgap, hskip]
        simpa [List.replicate_succ] using hn
      · rw [not_or] at hgap
        by_cases hremark : c = '#'
        · subst hremark
          obtain ⟨n, hn⟩ := ih true
          refine ⟨n + 1, ?_⟩
          rw [lexemes_remark]
          simpa [skipTriviaFrom, hgap.1, List.replicate_succ] using hn
        · refine ⟨0, ?_⟩
          simp [skipTriviaFrom, hgap.1, hgap.2, hremark]

/-- Trivia are gaps. -/
theorem lexemes_skipTrivia (s : List Char) :
    ∃ n, lexemes s = List.replicate n .gap ++ lexemes (skipTrivia s) :=
  lexemes_skipTriviaFrom false s

/-! ### Joining stretches of lexemes -/

variable {b : Before} {signed : Bool} {ls ms : List Lexeme}

theorem namesFrom_cons (l : Lexeme) :
    namesFrom b (l :: ls) = namesFrom b [l] ++ namesFrom (b.next l) ls := by
  cases l with
  | word w =>
    simp only [namesFrom]
    split <;> rfl
  | _ => rfl

theorem namesFrom_append :
    namesFrom b (ls ++ ms) = namesFrom b ls ++ namesFrom (ls.foldl Before.next b) ms := by
  induction ls generalizing b with
  | nil => rfl
  | cons l ls ih =>
    have hcons : namesFrom b (l :: ls) = namesFrom b [l] ++ namesFrom (b.next l) ls :=
      namesFrom_cons l
    rw [List.cons_append, namesFrom_cons l, ih, hcons, List.append_assoc]
    rfl

theorem namesFrom_gaps (n : Nat) :
    namesFrom .other (List.replicate n .gap ++ ls) = namesFrom .other ls := by
  induction n with
  | zero => rfl
  | succ n ih => exact ih

theorem signedUnderscoreFrom_gaps (n : Nat) :
    signedUnderscoreFrom signed (List.replicate n .gap ++ ls) =
      signedUnderscoreFrom signed ls := by
  induction n with
  | zero => rfl
  | succ n ih => exact ih

/-- What stands before a text is of no account where no token goes on. -/
theorem namesFrom_of_severs {s : List Char} (h : Severs s) :
    namesFrom b (lexemes s) = namesFrom .other (lexemes s) := by
  cases s with
  | nil => simp [namesFrom]
  | cons c s =>
    obtain ⟨hword, hpoint, _⟩ := severs_cons.mp h
    have hpiece : atPiece (c :: s) = false := atPiece_word (w := []) (by simp) h.breaks
    rw [lexemes, hpiece, hword]
    split
    · rfl
    split
    · rfl
    · simp [namesFrom, Before.next, hpoint]

theorem signedUnderscoreFrom_of_signed (h : signedUnderscoreFrom true ls = false) :
    signedUnderscoreFrom false ls = false := by
  induction ls with
  | nil => rfl
  | cons l ls ih =>
    cases l with
    | gap => exact ih h
    | quoted => exact h
    | word w =>
      simp only [signedUnderscoreFrom, Bool.true_and, Bool.or_eq_false_iff] at h
      simpa [signedUnderscoreFrom] using h.2
    | mark c =>
      by_cases hc : c = '.'
      · subst hc
        exact ih h
      · have hpoint : (c == '.') = false := beq_eq_false_iff_ne.mpr hc
        simpa [signedUnderscoreFrom, hpoint] using h

/-- No underscore stands behind a sign in a part of lexemes without such. -/
theorem signedUnderscoreFrom_append (h : signedUnderscoreFrom signed (ls ++ ms) = false) :
    signedUnderscoreFrom signed ls = false ∧ signedUnderscoreFrom false ms = false := by
  induction ls generalizing signed with
  | nil =>
    refine ⟨rfl, ?_⟩
    cases signed with
    | false => exact h
    | true => exact signedUnderscoreFrom_of_signed h
  | cons l ls ih =>
    cases l with
    | gap => exact ih h
    | quoted => exact ih h
    | mark c => exact ih h
    | word w =>
      simp only [List.cons_append, signedUnderscoreFrom, Bool.or_eq_false_iff] at h ⊢
      exact ⟨⟨h.1, (ih h.2).1⟩, (ih h.2).2⟩

/-- A word behind a sign that begins with an underscore is a name. -/
theorem exists_name_of_signedUnderscoreFrom (h : signedUnderscoreFrom signed ls = true)
    (hb : signed = true → b = .other ∨ b = .point) :
    ∃ w ∈ namesFrom b ls, w.head? = some '_' := by
  induction ls generalizing signed b with
  | nil => cases h
  | cons l ls ih =>
    cases l with
    | gap => exact ih h fun _ => .inl rfl
    | quoted => exact ih h (by simp)
    | mark c =>
      refine ih h fun hsigned => ?_
      by_cases hc : c = '.'
      · have hs : signed = true := by
          subst hc
          simpa using hsigned
        have hwhole : b ≠ .whole := by
          rcases hb hs with rfl | rfl <;> simp
        simp [Before.next, hc, hwhole]
      · simp [Before.next, hc]
    | word w =>
      rw [signedUnderscoreFrom, Bool.or_eq_true, Bool.and_eq_true] at h
      rcases h with ⟨hsigned, hhead⟩ | h
      · have hw : w.head? = some '_' := beq_iff_eq.mp hhead
        have hname : beginsName w = true ∧ b ≠ .decimalPoint := by
          refine ⟨by simp [beginsName, hw], ?_⟩
          rcases hb hsigned with rfl | rfl <;> simp
        rw [namesFrom, if_pos hname]
        exact ⟨w, List.mem_cons_self, hw⟩
      · obtain ⟨u, hu, hhead⟩ := ih (b := b.next (.word w)) h (by simp)
        rw [namesFrom_cons]
        exact ⟨u, List.mem_append_right _ hu, hhead⟩

end Scriptorium.Literal
