/-
Strings as a grammar: pieces in quotation marks, with escapes, joined over the trivia between
them.

What a body may hold depends on what follows it: inside triple quotation marks a single mark must
not begin the closing ones, and a short octal escape ends where no octal digit follows. Therefore
these rules look at the rest of the body.
-/

import Scriptorium.Proofs.Literal.Trivia
import Scriptorium.Proofs.Text.Cut

namespace Scriptorium.Literal

open Text (isDigitOf isWordChar)

/-! ### Escapes -/

/-- The escapes of one character for one character. -/
def shortEscapes : List (Char × Char) :=
  [('n', '\n'), ('t', '\t'), ('r', '\r'), ('a', '\x07'), ('b', '\x08'), ('f', '\x0c'),
   ('v', '\x0b'), ('\\', '\\'), ('\'', '\''), ('"', '"')]

/-- The letters before a hexadecimal number, with the number of its digits. -/
def codeLetters : List (Char × Nat) :=
  [('x', 2), ('u', 4), ('U', 8)]

/-- A backslash before `c` means nothing. -/
def isPlainEscape (c : Char) : Prop :=
  c ≠ '\n' ∧ c ∉ shortEscapes.map Prod.fst ∧ c ∉ codeLetters.map Prod.fst ∧
    isDigitOf 8 c = false

/-- What stands behind a backslash, what it stands for, and the rest of the body. -/
inductive Escape : List Char → List Char → List Char → Prop where
  /-- A continued line. -/
  | lineFeed {s : List Char} : Escape ['\n'] [] s
  | short {c d : Char} {s : List Char} : (c, d) ∈ shortEscapes → Escape [c] [d] s
  | code {c d : Char} {count : Nat} {digits s : List Char} :
      (c, count) ∈ codeLetters → digits.length = count →
      (∀ a ∈ digits, isDigitOf 16 a = true) → Text.ofDigits 16 digits = d.toNat →
      Escape (c :: digits) [d] s
  /-- One to three octal digits, as many as there are. -/
  | octal {c d : Char} {digits s : List Char} :
      (∀ a ∈ c :: digits, isDigitOf 8 a = true) → digits.length ≤ 2 →
      (digits.length = 2 ∨ ∀ a ∈ s.head?, isDigitOf 8 a = false) →
      Text.ofDigits 8 (c :: digits) = d.toNat → Escape (c :: digits) [d] s
  /-- The backslash stands for itself. -/
  | plain {c : Char} {s : List Char} : isPlainEscape c → Escape [c] ['\\', c] s

/-! ### Bodies -/

/-- The marks that end a piece. -/
def PieceForm.delimiter (form : PieceForm) : List Char :=
  if form.triple then [form.quote, form.quote, form.quote] else [form.quote]

/-- The source of a piece between its quotation marks, and its text. -/
inductive Body (form : PieceForm) : List Char → List Char → Prop where
  | nil : Body form [] []
  | plain {c : Char} {s text : List Char} :
      c ≠ form.quote → c ≠ '\\' → (c = '\n' → form.triple = true) →
      Body form s text → Body form (c :: s) (c :: text)
  /-- A quotation mark that does not begin the closing ones. -/
  | quote {s text : List Char} :
      form.triple = true → ¬[form.quote, form.quote] <+: s ++ form.delimiter →
      Body form s text → Body form (form.quote :: s) (form.quote :: text)
  | raw {c : Char} {s text : List Char} :
      form.raw = true → Body form s text → Body form ('\\' :: c :: s) ('\\' :: c :: text)
  | escape {e d s text : List Char} :
      form.raw = false → Escape e d s → Body form s text →
      Body form ('\\' :: (e ++ s)) (d ++ text)

/-! ### Pieces -/

/-- The letters that mark a piece, and whether they make it raw. -/
def pieceMarks : List (List Char × Bool) :=
  [([], false), (['u'], false), (['U'], false), (['r'], true), (['R'], true)]

/-- A piece with its mark and its quotation marks, and its text. -/
inductive Piece : List Char → List Char → Prop where
  | mk {mark body text : List Char} {form : PieceForm} :
      (mark, form.raw) ∈ pieceMarks → isQuote form.quote = true → Body form body text →
      Piece (mark ++ (form.delimiter ++ (body ++ form.delimiter))) text

/-- One or more pieces with trivia between them, and their joined text. -/
inductive Pieces : List Char → List Char → Prop where
  | last {s text : List Char} : Piece s text → Pieces s text
  | more {s t u text more : List Char} :
      Piece s text → Trivia t → t ≠ [] → Pieces u more → Pieces (s ++ (t ++ u)) (text ++ more)

/-! ### Reading escapes -/

theorem readCodePoint_cons (digits : List Char) (count : Nat) (c : Char) (s : List Char) :
    readCodePoint digits (count + 1) (c :: s) =
      if isDigitOf 16 c then readCodePoint (digits ++ [c]) count s
      else .error (.unexpected (c :: s)) := rfl

/-- Where no digit is left to read, the text does not matter. -/
theorem readCodePoint_end (digits s : List Char) :
    readCodePoint digits 0 s =
      if h : (Text.ofDigits 16 digits).isValidChar then
        .ok (Char.ofNatAux (Text.ofDigits 16 digits) h)
      else .error (.invalidNumber digits) := by
  -- The reader recurses on the text, here too.
  cases s with
  | nil => rfl
  | cons a s => rfl

theorem readCodePoint_append {digits : List Char} (hdigits : ∀ a ∈ digits, isDigitOf 16 a = true)
    (done rest : List Char) :
    readCodePoint done digits.length (digits ++ rest) = readCodePoint (done ++ digits) 0 rest := by
  induction digits generalizing done with
  | nil => simp
  | cons a digits ih =>
    have hmore := ih (fun b hb => hdigits b (List.mem_cons_of_mem a hb)) (done ++ [a])
    rw [List.append_assoc] at hmore
    exact (if_pos (hdigits a List.mem_cons_self)).trans hmore

theorem readCodePoint_zero {digits : List Char} {d : Char}
    (h : Text.ofDigits 16 digits = d.toNat) (rest : List Char) :
    readCodePoint digits 0 rest = .ok d := by
  have hvalid : (Text.ofDigits 16 digits).isValidChar := h ▸ d.valid
  have hd : Char.ofNatAux (Text.ofDigits 16 digits) hvalid = d := Char.toNat_inj.mp h
  rw [readCodePoint_end, dif_pos hvalid, hd]

theorem octalRun_append {digits rest : List Char} {limit : Nat}
    (hdigits : ∀ a ∈ digits, isDigitOf 8 a = true) (hlimit : digits.length ≤ limit)
    (hrest : digits.length = limit ∨ ∀ a ∈ rest.head?, isDigitOf 8 a = false) :
    octalRun limit (digits ++ rest) = digits := by
  rw [octalRun, List.take_append, List.take_of_length_le hlimit]
  refine Text.takeWhile_append hdigits ?_
  rcases hrest with hfull | hstop
  · simp [hfull]
  · intro a ha
    cases rest with
    | nil => simp at ha
    | cons b rest =>
      cases hroom : limit - digits.length with
      | zero => simp [hroom] at ha
      | succ room => exact hstop a (by simpa [hroom] using ha)

theorem readEscape_short {c d : Char} (h : (c, d) ∈ shortEscapes) (s : List Char) :
    readEscape c s = .ok ([d], 0) := by
  simp only [shortEscapes, List.mem_cons, Prod.mk.injEq, List.not_mem_nil, or_false] at h
  rcases h with ⟨rfl, rfl⟩ | ⟨rfl, rfl⟩ | ⟨rfl, rfl⟩ | ⟨rfl, rfl⟩ | ⟨rfl, rfl⟩ | ⟨rfl, rfl⟩ |
    ⟨rfl, rfl⟩ | ⟨rfl, rfl⟩ | ⟨rfl, rfl⟩ | ⟨rfl, rfl⟩ <;> rfl

theorem readEscape_codeLetter {c : Char} {count : Nat} (h : (c, count) ∈ codeLetters)
    (s : List Char) :
    readEscape c s = (readCodePoint [] count s).map fun d => ([d], count) := by
  simp only [codeLetters, List.mem_cons, Prod.mk.injEq, List.not_mem_nil, or_false] at h
  rcases h with ⟨rfl, rfl⟩ | ⟨rfl, rfl⟩ | ⟨rfl, rfl⟩ <;> rfl

theorem readEscape_code {c d : Char} {count : Nat} {s : List Char}
    (h : (c, count) ∈ codeLetters) (hread : readCodePoint [] count s = .ok d) :
    readEscape c s = .ok ([d], count) := by
  rw [readEscape_codeLetter h, hread]
  rfl

theorem readEscape_octal {c : Char} (h : isDigitOf 8 c = true) (s : List Char) :
    readEscape c s =
      .ok ([Char.ofNat (Text.ofDigits 8 (c :: octalRun 2 s))], (octalRun 2 s).length) := by
  unfold readEscape
  split
  case h_15 => rw [if_pos h]
  all_goals exact absurd h (by decide)

theorem readEscape_plain {c : Char} (h : isPlainEscape c) (s : List Char) :
    readEscape c s = .ok (['\\', c], 0) := by
  obtain ⟨hfeed, hshort, hcode, hdigit⟩ := h
  unfold readEscape
  split
  case h_15 => rw [if_neg (by simp [hdigit])]
  case h_1 => exact absurd rfl hfeed
  all_goals first
    | exact absurd (by decide) hshort
    | exact absurd (by decide) hcode

/-- An escape is read as what it stands for, and all of it. -/
theorem readEscape_append {e d s rest : List Char} (h : Escape e d s)
    (hrest : ∀ a ∈ rest.head?, isDigitOf 8 a = false) :
    ∃ c digits, e = c :: digits ∧
      readEscape c (digits ++ (s ++ rest)) = .ok (d, digits.length) := by
  cases h with
  | lineFeed => exact ⟨'\n', [], rfl, rfl⟩
  | @short c d _ hmem => exact ⟨c, [], rfl, readEscape_short hmem _⟩
  | @code c d count digits _ hmem hcount hdigits hvalue =>
    subst hcount
    refine ⟨c, digits, rfl, readEscape_code hmem ?_⟩
    rw [readCodePoint_append hdigits, List.nil_append, readCodePoint_zero hvalue]
  | @octal c d digits _ hdigits hlength hstop hvalue =>
    have hrun : octalRun 2 (digits ++ (s ++ rest)) = digits := by
      refine octalRun_append (fun a ha => hdigits a (List.mem_cons_of_mem c ha)) hlength ?_
      refine hstop.imp_right fun hs => ?_
      cases s with
      | nil => exact hrest
      | cons b s => exact hs
    refine ⟨c, digits, rfl, ?_⟩
    rw [readEscape_octal (hdigits c List.mem_cons_self), hrun, hvalue, Char.ofNat_toNat]
  | @plain c _ hplain => exact ⟨c, [], rfl, readEscape_plain hplain _⟩

/-! ### Reading pieces -/

theorem isDigitOf_eq_false_of_isQuote {base : Nat} {c : Char} (h : isQuote c = true) :
    isDigitOf base c = false := by
  rcases isQuote_iff.mp h with rfl | rfl <;> rfl

theorem backslash_ne_of_isQuote {c : Char} (h : isQuote c = true) : '\\' ≠ c := by
  rintro rfl
  exact absurd h (by decide)

theorem PieceForm.delimiter_eq_cons (form : PieceForm) (s : List Char) :
    ∃ marks, form.delimiter ++ s = form.quote :: marks := by
  unfold PieceForm.delimiter
  split <;> exact ⟨_, rfl⟩

/-- The marks that end a piece end it. -/
theorem PieceForm.ending?_delimiter (form : PieceForm) (s : List Char) :
    form.ending? ((form.delimiter ++ s).tail) = some s := by
  unfold PieceForm.ending? PieceForm.delimiter
  cases form.triple <;> simp

/-- A quotation mark ends a piece of three marks only if two more follow. -/
theorem PieceForm.ending?_eq_none {form : PieceForm} {s : List Char} (htriple : form.triple = true)
    (h : ¬[form.quote, form.quote] <+: s) : form.ending? s = none := by
  simp only [PieceForm.ending?, htriple, if_true]
  split
  · rename_i a b rest
    rw [if_neg]
    rintro ⟨rfl, rfl⟩
    exact h ⟨rest, rfl⟩
  · rfl

section Step

variable {form : PieceForm} {c d : Char} {done s : List Char}

theorem readBody_plain (hquote : c ≠ form.quote) (hslash : c ≠ '\\')
    (hline : c = '\n' → form.triple = true) :
    readBody form done (c :: s) = readBody form (c :: done) s := by
  have hfeed : ¬(c = '\n' ∧ form.triple = false) := by
    rintro ⟨hc, htriple⟩
    rw [hline hc] at htriple
    cases htriple
  rw [readBody.eq_def]
  simp only [if_neg hquote, if_neg hfeed, if_neg hslash]

theorem readBody_quote (h : form.ending? s = none) :
    readBody form done (form.quote :: s) = readBody form (form.quote :: done) s := by
  rw [readBody.eq_def]
  simp only [if_true, h]

theorem readBody_end {rest : List Char} (h : form.ending? s = some rest) :
    readBody form done (form.quote :: s) = .ok (done.reverse, rest) := by
  rw [readBody.eq_def]
  simp only [if_true, h]

theorem readBody_raw (hquote : '\\' ≠ form.quote) (hraw : form.raw = true) :
    readBody form done ('\\' :: d :: s) = readBody form (d :: '\\' :: done) s := by
  rw [readBody.eq_def]
  simp [hquote, hraw]

theorem readBody_escape {text : List Char} {used : Nat} (hquote : '\\' ≠ form.quote)
    (hraw : form.raw = false) (h : readEscape d s = .ok (text, used)) :
    readBody form done ('\\' :: d :: s) = readBody form (text.reverse ++ done) (s.drop used) := by
  rw [readBody.eq_def]
  simp [hquote, hraw, h]

end Step

/-- The body of a piece is read to its end. -/
theorem readBody_append {form : PieceForm} {s text : List Char}
    (hquote : isQuote form.quote = true) (h : Body form s text) (done rest : List Char) :
    readBody form done (s ++ (form.delimiter ++ rest)) = .ok (done.reverse ++ text, rest) := by
  have hslash := backslash_ne_of_isQuote hquote
  induction h generalizing done with
  | nil =>
    obtain ⟨marks, hmarks⟩ := form.delimiter_eq_cons rest
    have hend := form.ending?_delimiter rest
    rw [hmarks, List.tail_cons] at hend
    rw [List.nil_append, hmarks, readBody_end hend, List.append_nil]
  | plain hc hback hline _ ih =>
    rw [List.cons_append, readBody_plain hc hback hline, ih]
    simp
  | @quote s text htriple hopen _ ih =>
    have hnone : form.ending? (s ++ (form.delimiter ++ rest)) = none := by
      refine form.ending?_eq_none htriple fun hprefix => hopen ?_
      rw [← List.append_assoc] at hprefix
      refine List.prefix_of_prefix_length_le hprefix (List.prefix_append _ rest) ?_
      simp [PieceForm.delimiter, htriple]
    rw [List.cons_append, readBody_quote hnone, ih]
    simp
  | raw hraw _ ih =>
    rw [List.cons_append, List.cons_append, readBody_raw hslash hraw, ih]
    simp
  | @escape e d s text hraw hesc _ ih =>
    have hstop : ∀ a ∈ (form.delimiter ++ rest).head?, isDigitOf 8 a = false := by
      obtain ⟨marks, hmarks⟩ := form.delimiter_eq_cons rest
      rw [hmarks]
      rintro a ⟨⟩
      exact isDigitOf_eq_false_of_isQuote hquote
    obtain ⟨c, digits, rfl, hread⟩ := readEscape_append hesc hstop
    rw [List.cons_append, List.append_assoc, List.cons_append,
      readBody_escape hslash hraw hread, List.drop_left, ih]
    simp

/-- Inside single marks a body does not begin with one. -/
theorem Body.head_ne {form : PieceForm} {c : Char} {s text : List Char} (hquote : '\\' ≠ form.quote)
    (htriple : form.triple = false) (h : Body form (c :: s) text) : c ≠ form.quote := by
  cases h with
  | plain hc _ _ _ => exact hc
  | quote ht _ _ =>
    rw [htriple] at ht
    cases ht
  | raw _ _ => exact hquote
  | escape _ _ _ => exact hquote

/-- The marks that open a piece are told apart by what follows the first. -/
theorem readForm_append {form : PieceForm} {s text rest : List Char}
    (hquote : isQuote form.quote = true) (h : Body form s text) (hrest : Severs rest) :
    readForm form.raw (form.delimiter ++ (s ++ (form.delimiter ++ rest))) =
      .ok (form, s ++ (form.delimiter ++ rest)) := by
  obtain ⟨raw, q, triple⟩ := form
  cases triple with
  | true => simp [PieceForm.delimiter, readForm]
  | false =>
    simp only [PieceForm.delimiter, Bool.false_eq_true, if_false, List.cons_append,
      List.nil_append]
    unfold readForm
    split
    · rename_i heq
      cases heq
    · rename_i q' a b u heq
      obtain ⟨rfl, htail⟩ := List.cons.inj heq
      rw [if_neg, htail]
      rintro ⟨rfl, rfl⟩
      cases s with
      | nil =>
        obtain ⟨_, rfl⟩ := List.cons.inj htail
        rw [(severs_cons.mp hrest).2.2] at hquote
        cases hquote
      | cons c s => exact h.head_ne (backslash_ne_of_isQuote hquote) rfl (List.cons.inj htail).1
    · rename_i heq
      obtain ⟨rfl, rfl⟩ := List.cons.inj heq
      rfl

theorem isAlpha_eq_false_of_isQuote {c : Char} (h : isQuote c = true) : c.isAlpha = false := by
  rcases isQuote_iff.mp h with rfl | rfl <;> rfl

/-- The mark of a piece is all that stands before its quotation mark. -/
theorem alphaRun_append {mark s : List Char} {raw : Bool} (hmark : (mark, raw) ∈ pieceMarks)
    (hs : ∃ c u, s = c :: u ∧ isQuote c = true) :
    (mark ++ s).takeWhile Char.isAlpha = mark ∧ (mark ++ s).dropWhile Char.isAlpha = s := by
  obtain ⟨c, u, rfl, hc⟩ := hs
  have hstop : ∀ a ∈ (c :: u).head?, a.isAlpha = false := by
    rintro a ⟨⟩
    exact isAlpha_eq_false_of_isQuote hc
  have hall : mark.all Char.isAlpha = true := by
    simp only [pieceMarks, List.mem_cons, Prod.mk.injEq, List.not_mem_nil, or_false] at hmark
    rcases hmark with ⟨rfl, _⟩ | ⟨rfl, _⟩ | ⟨rfl, _⟩ | ⟨rfl, _⟩ | ⟨rfl, _⟩ <;> rfl
  have halpha := List.all_eq_true.mp hall
  exact ⟨Text.takeWhile_append halpha hstop, Text.dropWhile_append halpha hstop⟩

theorem pieceMarks_lower {mark : List Char} {raw : Bool} (h : (mark, raw) ∈ pieceMarks) :
    [[], ['u'], ['r']].contains (mark.map Char.toLower) = true ∧
      (mark.map Char.toLower == ['r']) = raw ∧ mark.length ≤ 2 := by
  simp only [pieceMarks, List.mem_cons, Prod.mk.injEq, List.not_mem_nil, or_false] at h
  rcases h with ⟨rfl, rfl⟩ | ⟨rfl, rfl⟩ | ⟨rfl, rfl⟩ | ⟨rfl, rfl⟩ | ⟨rfl, rfl⟩ <;> decide

theorem readPiece_append {s text rest : List Char} (h : Piece s text) (hrest : Severs rest) :
    readPiece (s ++ rest) = .ok (text, rest) := by
  cases h with
  | @mk mark body text form hmark hquote hbody =>
    obtain ⟨marks, hmarks⟩ := form.delimiter_eq_cons (body ++ (form.delimiter ++ rest))
    obtain ⟨htake, hdrop⟩ := alphaRun_append hmark ⟨_, _, hmarks, hquote⟩
    obtain ⟨hknown, hraw, _⟩ := pieceMarks_lower hmark
    simp only [List.append_assoc, readPiece, htake, hdrop, hknown, hraw, if_true,
      readForm_append hquote hbody hrest, readBody_append hquote hbody]
    rfl

theorem atPiece_append {s text : List Char} (h : Piece s text) (rest : List Char) :
    atPiece (s ++ rest) = true := by
  cases h with
  | @mk mark body text form hmark hquote hbody =>
    obtain ⟨marks, hmarks⟩ := form.delimiter_eq_cons (body ++ (form.delimiter ++ rest))
    obtain ⟨htake, hdrop⟩ := alphaRun_append hmark ⟨_, _, hmarks, hquote⟩
    obtain ⟨_, _, hlength⟩ := pieceMarks_lower hmark
    simp only [List.append_assoc, atPiece, htake, hdrop]
    simp [hlength, hmarks, hquote]

/-- What a piece begins with: its mark or a quotation mark. -/
theorem Piece.head {s text : List Char} (h : Piece s text) :
    ∃ c u, s = c :: u ∧ c ∈ ['"', '\'', 'u', 'U', 'r', 'R'] := by
  cases h with
  | @mk mark body text form hmark hquote _ =>
    obtain ⟨marks, hmarks⟩ := form.delimiter_eq_cons (body ++ form.delimiter)
    rw [hmarks]
    simp only [pieceMarks, List.mem_cons, Prod.mk.injEq, List.not_mem_nil, or_false] at hmark
    rcases hmark with ⟨rfl, _⟩ | ⟨rfl, _⟩ | ⟨rfl, _⟩ | ⟨rfl, _⟩ | ⟨rfl, _⟩
    · exact ⟨_, _, rfl, by rcases isQuote_iff.mp hquote with h | h <;> simp [h]⟩
    all_goals exact ⟨_, _, rfl, by decide⟩

/-! ### Reading strings -/

theorem Pieces.head {s text : List Char} (h : Pieces s text) :
    ∃ c u, s = c :: u ∧ c ∈ ['"', '\'', 'u', 'U', 'r', 'R'] := by
  cases h with
  | last hpiece => exact hpiece.head
  | more hpiece _ _ _ =>
    obtain ⟨c, u, rfl, hc⟩ := hpiece.head
    exact ⟨c, _, rfl, hc⟩

theorem atPiece_append_pieces {s text : List Char} (h : Pieces s text) (rest : List Char) :
    atPiece (s ++ rest) = true := by
  cases h with
  | last hpiece => exact atPiece_append hpiece rest
  | more hpiece _ _ _ =>
    rw [List.append_assoc]
    exact atPiece_append hpiece _

theorem skipTrivia_pieces {s text : List Char} (h : Pieces s text) (rest : List Char) :
    skipTrivia (s ++ rest) = s ++ rest := by
  obtain ⟨c, u, rfl, hc⟩ := h.head
  refine skipTrivia_of_solid ?_ (u ++ rest)
  simp only [List.mem_cons, List.not_mem_nil, or_false] at hc
  rcases hc with rfl | rfl | rfl | rfl | rfl | rfl <;> decide

/-- After a piece, reading goes on if another one stands behind the trivia. -/
theorem readPieces_of_readPiece {done s text rest : List Char}
    (h : readPiece s = .ok (text, rest)) :
    readPieces done s =
      if atPiece (skipTrivia rest) then readPieces (done ++ text) (skipTrivia rest)
      else .ok (done ++ text, rest) := by
  rw [readPieces]
  split
  · rename_i herror
    rw [h] at herror
    cases herror
  · rename_i hok
    rw [h] at hok
    cases hok
    rfl

/-- Pieces are read as their joined text, up to what severs them. -/
theorem readPieces_append {s text rest : List Char} (h : Pieces s text) (hrest : Severs rest)
    (hnext : atPiece (skipTrivia rest) = false) (done : List Char) :
    readPieces done (s ++ rest) = .ok (done ++ text, rest) := by
  induction h generalizing done with
  | last hpiece =>
    rw [readPieces_of_readPiece (readPiece_append hpiece hrest), hnext]
    rfl
  | @more s t u text more hpiece ht hne hmore ih =>
    have hsevers : Severs (t ++ (u ++ rest)) := ht.severs_append fun heq => absurd heq hne
    have hskip : skipTrivia (t ++ (u ++ rest)) = u ++ rest := by
      rw [skipTrivia_append ht, skipTrivia_pieces hmore]
    rw [List.append_assoc, List.append_assoc,
      readPieces_of_readPiece (readPiece_append hpiece hsevers), hskip,
      atPiece_append_pieces hmore, if_pos rfl, ih, List.append_assoc]

end Scriptorium.Literal
