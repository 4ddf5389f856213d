/-
Phrases up to their gaps and silent tokens.

The lexemes of a phrase are what its tokens are and their texts, without comments and line ends. The
core of a phrase has all of them (`lexemes_core`).
-/

import Scriptorium.Script.Expression
import Mathlib.Algebra.GroupWithZero.Nat
import Mathlib.Data.List.DropRight
import Mathlib.Data.List.TakeWhile

namespace Scriptorium.Script

/-! ### Tokens without their gaps -/

/-- What a token is and its text. -/
def Token.lexeme (t : Token) : Kind × List Char :=
  (t.kind, t.text)

namespace Phrase

/-- What the tokens of a phrase are and their texts, comments and line ends left out. -/
def lexemes (p : Phrase) : List (Kind × List Char) :=
  (p.filter fun t => !t.isSilent).map Token.lexeme

variable {t : Token} {p ts : Phrase}

@[simp] theorem lexemes_append (p q : Phrase) : lexemes (p ++ q) = lexemes p ++ lexemes q := by
  rw [lexemes, List.filter_append, List.map_append, lexemes, lexemes]

theorem lexemes_cons_of_isSilent (h : t.isSilent = true) (ts : Phrase) :
    lexemes (t :: ts) = lexemes ts := by
  rw [lexemes, List.filter_cons_of_neg (by simp [h]), lexemes]

theorem lexemes_cons_of_not_isSilent (h : t.isSilent = false) (ts : Phrase) :
    lexemes (t :: ts) = t.lexeme :: lexemes ts := by
  rw [lexemes, List.filter_cons_of_pos (by simp [h]), List.map_cons, lexemes]

theorem lexemes_eq_nil (h : ∀ t ∈ p, t.isSilent = true) : lexemes p = [] := by
  rw [lexemes, List.filter_eq_nil_iff.mpr fun t ht => by simp [h t ht], List.map_nil]

/-! ### The core of a phrase -/

/-- Around the core of a phrase stand silent tokens only. -/
theorem exists_core_append (p : Phrase) :
    ∃ before after, p = before ++ core p ++ after ∧
      (∀ t ∈ before, t.isSilent = true) ∧ ∀ t ∈ after, t.isSilent = true := by
  let rest := p.dropWhile Token.isSilent
  refine ⟨p.takeWhile Token.isSilent, (rest.reverse.takeWhile Token.isSilent).reverse, ?_,
    fun t ht => List.mem_takeWhile_imp ht, fun t ht => ?_⟩
  · have hrest : core p ++ (rest.reverse.takeWhile Token.isSilent).reverse = rest := by
      rw [core, ← List.reverse_append, List.takeWhile_append_dropWhile, List.reverse_reverse]
    rw [List.append_assoc, hrest, List.takeWhile_append_dropWhile]
  · exact List.mem_takeWhile_imp (List.mem_reverse.mp ht)

/-- The core of a phrase begins with no silent token. -/
theorem isSilent_of_core (h : core p = t :: ts) : t.isSilent = false := by
  have hbegins : core p <+: p.dropWhile Token.isSilent := by
    rw [core, ← List.reverse_suffix, List.reverse_reverse]
    exact List.dropWhile_suffix _
  obtain ⟨more, hmore⟩ := hbegins
  rw [h, List.cons_append] at hmore
  have hhead := List.head?_dropWhile_not Token.isSilent p
  rw [← hmore] at hhead
  simpa using hhead

theorem core_dropWhile (p : Phrase) : core (p.dropWhile Token.isSilent) = core p := by
  rw [core, List.dropWhile_idempotent, core]

theorem lexemes_core (p : Phrase) : lexemes (core p) = lexemes p := by
  obtain ⟨before, after, hp, hbefore, hafter⟩ := exists_core_append p
  calc lexemes (core p)
      = lexemes (before ++ core p ++ after) := by
        rw [lexemes_append, lexemes_append, lexemes_eq_nil hbefore, lexemes_eq_nil hafter,
          List.nil_append, List.append_nil]
    _ = lexemes p := by rw [← hp]

/-- A phrase without the gap in front of it. -/
def atMargin : Phrase → Phrase
  | [] => []
  | t :: ts => { t with gap := [] } :: ts

theorem flatMap_source_atMargin (p : Phrase) : (atMargin p).flatMap Token.source = text p := by
  cases p <;> rfl

theorem lexemes_atMargin (p : Phrase) : lexemes (atMargin p) = lexemes p := by
  cases p with
  | nil => rfl
  | cons t ts =>
    have hsame : Token.isSilent { t with gap := [] } = t.isSilent := rfl
    rw [atMargin, lexemes, lexemes, List.filter_cons, List.filter_cons, hsame]
    split <;> rfl

/-- What holds of the kinds and the texts of a phrase does not depend on the gap in front of it. -/
theorem forall_mem_atMargin {P : Kind × List Char → Prop} :
    (∀ t ∈ atMargin p, P t.lexeme) ↔ ∀ t ∈ p, P t.lexeme := by
  cases p with
  | nil => rfl
  | cons t ts => simp [atMargin, Token.lexeme]

theorem forall_mem_gap_atMargin {P : List Char → Prop} (h : P []) :
    (∀ t ∈ atMargin p, P t.gap) ↔ ∀ t ∈ p.tail, P t.gap := by
  cases p with
  | nil => rfl
  | cons t ts => simp [atMargin, h]

end Phrase

/-! ### The characters of a phrase -/

/-- The lexemes have no more of a character than the phrase, and if they have all of it, none is in
the gaps and the silent tokens. -/
theorem Phrase.count_lexemes (c : Char) (p : Phrase) :
    (p.lexemes.map (·.2.count c)).sum ≤ (p.flatMap Token.source).count c ∧
      ((p.lexemes.map (·.2.count c)).sum = (p.flatMap Token.source).count c →
        ∀ t ∈ p, c ∉ t.gap ∧ (t.isSilent = true → c ∉ t.text)) := by
  induction p with
  | nil => simp [lexemes]
  | cons t ts ih =>
    obtain ⟨hle, hnone⟩ := ih
    have hsource : ((t :: ts).flatMap Token.source).count c =
        t.gap.count c + t.text.count c + (ts.flatMap Token.source).count c := by
      rw [List.flatMap_cons, List.count_append, Token.source, List.count_append]
    rw [hsource, List.forall_mem_cons, ← List.count_eq_zero, ← List.count_eq_zero]
    cases hsilent : t.isSilent with
    | true =>
      rw [lexemes_cons_of_isSilent hsilent]
      exact ⟨by omega, fun heq => ⟨⟨by omega, fun _ => by omega⟩, hnone (by omega)⟩⟩
    | false =>
      have hlexeme : t.lexeme.2.count c = t.text.count c := rfl
      rw [lexemes_cons_of_not_isSilent hsilent, List.map_cons, List.sum_cons, hlexeme]
      exact ⟨by omega, fun heq => ⟨⟨by omega, by simp⟩, hnone (by omega)⟩⟩

/-! ### Expressions -/

theorem kind_ne_stray_of_readToken {frames frames' : List Frame} {t : Token}
    (h : readToken frames t = some frames') : t.kind ≠ .stray := by
  intro hstray
  cases frames with
  | nil => cases h
  | cons f outer => simp [readToken, hstray] at h

theorem kind_ne_stray_of_foldlM {ts : Phrase} {frames frames' : List Frame}
    (h : ts.foldlM readToken frames = some frames') : ∀ t ∈ ts, t.kind ≠ .stray := by
  induction ts generalizing frames with
  | nil => simp
  | cons t ts ih =>
    rw [List.foldlM_cons] at h
    obtain ⟨next, hnext, hrest⟩ := Option.bind_eq_some_iff.mp h
    exact List.forall_mem_cons.mpr ⟨kind_ne_stray_of_readToken hnext, ih hrest⟩

/-- In an expression there is nothing that is no token. -/
theorem kind_ne_stray_of_isWellFormed {place : Place} {ts : Phrase}
    (h : isWellFormed place ts = true) : ∀ t ∈ ts, t.kind ≠ .stray := by
  rw [isWellFormed] at h
  split at h
  · rename_i hread
    exact kind_ne_stray_of_foldlM hread
  · cases h

theorem ne_nil_of_isWellFormed {ts : Phrase} (h : isWellFormed .hint ts = true) : ts ≠ [] := by
  rintro rfl
  revert h
  decide

end Scriptorium.Script
