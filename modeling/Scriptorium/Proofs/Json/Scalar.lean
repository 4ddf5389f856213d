/-
Strings and integers of JSON texts are read back as they are written.

A string is read as pieces, one for each character (`Stands`). A number or a word is a token: its
characters up to the first that belongs to none.
-/

import Scriptorium.Json.Printer
import Scriptorium.Json.Reader
import Scriptorium.Proofs.Literal.SourceForm
import Scriptorium.Proofs.Text.Cut

namespace Scriptorium.Json

/-! ### Strings -/

/-- A piece that stands for a character: the character, or the number of a control character. -/
inductive Stands : Piece → Char → Prop where
  | char (c : Char) : Stands (.char c) c
  | unit {c : Char} (h : c.toNat < 0x20) : Stands (.unit c.toNat) c

theorem decodePieces_unit {n : Nat} (h : n < 0xD800) (pieces : List Piece) :
    decodePieces (.unit n :: pieces) = (decodePieces pieces).map (Char.ofNat n :: ·) := by
  have hlow : ¬0xD800 ≤ n := by omega
  have hhigh : ¬0xDC00 ≤ n := by omega
  match pieces with
  | [] => simp [decodePieces, hlow]
  | .char c :: pieces => simp [decodePieces, hlow]
  | .unit m :: pieces => simp [decodePieces, hlow, hhigh]

theorem decodePieces_of_stands {pieces : List Piece} {s : List Char}
    (h : List.Forall₂ Stands pieces s) : decodePieces pieces = some s := by
  induction h with
  | nil => rfl
  | cons hpiece hmore ih =>
    cases hpiece with
    | char c => rw [decodePieces, ih, Option.map_some]
    | unit hc =>
      rw [decodePieces_unit (by omega), ih, Option.map_some, Char.ofNat_toNat]

theorem hexUnit?_hexByte {n : Nat} (h : n < 0x80) :
    hexUnit? ('0' :: '0' :: Text.hexByte n) = some n := by
  have hall : ∀ m < 0x80, hexUnit? ('0' :: '0' :: Text.hexByte m) = some m := by decide
  exact hall n h

theorem readPieces_short {c d : Char} (h : shortEscape? c = some d) (done : List Piece)
    (rest : List Char) :
    readPieces done ('\\' :: c :: rest) = readPieces (.char d :: done) rest := by
  have hc : c ≠ 'u' := by
    rintro rfl
    cases h
  rw [readPieces, h]
  intro a b x y tail hu
  exact fun _ => hc hu

theorem readPieces_unit {n : Nat} (h : n < 0x80) (done : List Piece) (rest : List Char) :
    readPieces done ("\\u00".toList ++ Text.hexByte n ++ rest) =
      readPieces (.unit n :: done) rest := by
  have hunit := hexUnit?_hexByte h
  simp only [Text.hexByte] at hunit
  simp [Text.hexByte, readPieces, hunit]

theorem readPieces_plain {c : Char} (hquote : c ≠ '"') (hslash : c ≠ '\\')
    (hcontrol : ¬c.toNat < 0x20) (done : List Piece) (rest : List Char) :
    readPieces done (c :: rest) = readPieces (.char c :: done) rest := by
  rw [readPieces]
  · rw [if_neg]
    simp [hcontrol, hslash]
  all_goals simp [hquote, hslash]

/-- What is written for a character is read as one piece that stands for it. -/
theorem readPieces_escapeChar (c : Char) (done : List Piece) (rest : List Char) :
    ∃ piece, Stands piece c ∧
      readPieces done (escapeChar c ++ rest) = readPieces (piece :: done) rest := by
  unfold escapeChar
  -- Seven characters are written with a letter or a mark behind a backslash.
  iterate 7
    split
    · subst c
      exact ⟨_, .char _, readPieces_short rfl done rest⟩
  split
  · exact ⟨_, .unit ‹_›, readPieces_unit (by omega) done rest⟩
  · exact ⟨_, .char c, readPieces_plain ‹_› ‹_› ‹_› done rest⟩

/-- A string is read up to its closing quotation mark. -/
theorem readPieces_flatMap (s : List Char) (done : List Piece) (rest : List Char) :
    ∃ pieces, List.Forall₂ Stands pieces s ∧
      readPieces done (s.flatMap escapeChar ++ '"' :: rest) =
        some (done.reverse ++ pieces, rest) := by
  induction s generalizing done with
  | nil => exact ⟨[], .nil, by simp [readPieces]⟩
  | cons c s ih =>
    obtain ⟨piece, hpiece, hread⟩ :=
      readPieces_escapeChar c done (s.flatMap escapeChar ++ '"' :: rest)
    obtain ⟨pieces, hpieces, hmore⟩ := ih (piece :: done)
    refine ⟨piece :: pieces, .cons hpiece hpieces, ?_⟩
    rw [List.flatMap_cons, List.append_assoc, hread, hmore]
    simp

theorem readString_strText (s : String) (rest : List Char) :
    readString (s.toList.flatMap escapeChar ++ '"' :: rest) = some (some s, rest) := by
  obtain ⟨pieces, hpieces, hread⟩ := readPieces_flatMap s.toList [] rest
  rw [readString, hread]
  simp [decodePieces_of_stands hpieces]

/-! ### Integers -/

/-- An integer as a number. -/
def Number.ofInt (n : Int) : Number where
  negative := n < 0
  whole := Nat.toDigits 10 n.natAbs

theorem isDigit_of_mem_toDigits {n : Nat} {c : Char} (h : c ∈ Nat.toDigits 10 n) :
    c.isDigit = true :=
  Nat.isDigit_of_mem_toDigits (by decide) (by decide) h

/-- Only the digits of zero begin with a zero. -/
theorem head_toDigits {n : Nat} (h : n ≠ 0) :
    ∃ c s, Nat.toDigits 10 n = c :: s ∧ c ≠ '0' := by
  induction n using Nat.strongRecOn with
  | ind n ih =>
    by_cases hsmall : n < 10
    · have hdigit : ∀ m < 10, m ≠ 0 → Nat.digitChar m ≠ '0' := by decide
      exact ⟨_, _, Nat.toDigits_of_lt_base hsmall, hdigit n hsmall h⟩
    · obtain ⟨c, s, hs, hc⟩ := ih (n / 10) (by omega) (by omega)
      rw [Nat.toDigits_of_base_le (by decide) (by omega), hs]
      exact ⟨c, _, rfl, hc⟩

theorem validWhole_toDigits (n : Nat) : Number.validWhole (Nat.toDigits 10 n) = true := by
  by_cases h : n = 0
  · subst h
    decide
  · obtain ⟨c, s, hs, hc⟩ := head_toDigits h
    rw [hs, Number.validWhole]
    · simpa using hc
    · rintro rfl
      exact fun _ => hc rfl

theorem ofUnsigned?_toDigits (negative : Bool) (n : Nat) :
    Number.ofUnsigned? negative (Nat.toDigits 10 n) =
      some ⟨negative, Nat.toDigits 10 n, [], none⟩ := by
  have hrun : Decimal.digitRun (Nat.toDigits 10 n) = (Nat.toDigits 10 n, []) := by
    have hdigits : ∀ c ∈ Nat.toDigits 10 n, c.isDigit = true := fun c hc =>
      isDigit_of_mem_toDigits hc
    rw [Decimal.digitRun, List.takeWhile_eq_self_iff.mpr hdigits,
      List.dropWhile_eq_nil_iff.mpr hdigits]
  simp [Number.ofUnsigned?, hrun, validWhole_toDigits, Number.tail?, Number.exponent?]

theorem ofChars?_intText (n : Int) : Number.ofChars? (intText n) = some (.ofInt n) := by
  have hread (negative : Bool) := ofUnsigned?_toDigits negative n.natAbs
  by_cases h : n < 0
  · simp [intText, h, Number.ofChars?, hread, Number.ofInt]
  · have hhead : ∀ s, Nat.toDigits 10 n.natAbs ≠ '-' :: s := by
      intro s hs
      have hminus : '-' ∈ Nat.toDigits 10 n.natAbs := hs ▸ List.mem_cons_self
      exact absurd (isDigit_of_mem_toDigits hminus) (by decide)
    rw [intText, if_neg h, List.nil_append, Number.ofChars?, hread, Number.ofInt, decide_eq_false h]
    exact hhead

theorem int?_ofInt (n : Int) : (Number.ofInt n).int? = some n := by
  have hsign : (!(decide (n < 0) && n.natAbs == 0)) = true := by
    simp only [Bool.not_and, Bool.or_eq_true, Bool.not_eq_true', decide_eq_false_iff_not,
      beq_eq_false_iff_ne]
    omega
  have hvalue : (if decide (n < 0) then -(n.natAbs : Int) else n.natAbs) = n := by
    simp only [decide_eq_true_eq]
    split <;> omega
  simp only [Number.int?, Number.ofInt, Text.ofDigits_toDigits, hsign, hvalue]
  rfl

theorem mem_intText {n : Int} {c : Char} (h : c ∈ intText n) : c = '-' ∨ c.isDigit = true := by
  rw [intText, List.mem_append] at h
  rcases h with h | h
  · split at h
    · exact .inl (List.mem_singleton.mp h)
    · cases h
  · exact .inr (isDigit_of_mem_toDigits h)

theorem intText_ne_nil (n : Int) : intText n ≠ [] :=
  List.append_ne_nil_of_right_ne_nil _ Nat.toDigits_ne_nil

theorem isTokenChar_of_mem_intText {n : Int} {c : Char} (h : c ∈ intText n) :
    isTokenChar c = true := by
  rcases mem_intText h with rfl | hdigit
  · rfl
  · simp [isTokenChar, Char.isAlphanum, hdigit]

/-- An integer is no word. -/
theorem intText_ne_cons {n : Int} {c : Char} (hminus : c ≠ '-') (hdigit : c.isDigit = false)
    (s : List Char) : intText n ≠ c :: s := by
  intro h
  have hmem : c ∈ intText n := h ▸ List.mem_cons_self
  rcases mem_intText hmem with heq | hc
  · exact hminus heq
  · rw [hdigit] at hc
    cases hc

theorem token?_intText (n : Int) : token? (intText n) = some (.number (.ofInt n)) := by
  have hnull : intText n ≠ "null".toList := intText_ne_cons (by decide) rfl _
  have htrue : intText n ≠ "true".toList := intText_ne_cons (by decide) rfl _
  have hfalse : intText n ≠ "false".toList := intText_ne_cons (by decide) rfl _
  rw [token?, if_neg hnull, if_neg htrue, if_neg hfalse, ofChars?_intText, Option.map_some]

end Scriptorium.Json
