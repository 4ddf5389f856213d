/-
Quoted strings: pieces in single, double or triple quotes, joined when they stand side by side.

A piece may have the mark `u`, which means nothing, or `r`, in which a backslash stands for
itself and only keeps the next character from closing the piece.
-/

import Scriptorium.Literal.Error
import Scriptorium.Literal.Trivia
import Scriptorium.Text.Digit

namespace Scriptorium.Literal

/-- A quotation mark. -/
def isQuote (c : Char) : Bool :=
  c == '"' || c == '\''

/-! ### Escapes -/

/-- The character with a given hexadecimal number, of which `count` digits are left to read. -/
def readCodePoint (digits : List Char) : (count : Nat) → List Char → Except Fault Char
  | 0, _ =>
    let n := Text.ofDigits 16 digits
    if h : n.isValidChar then .ok (Char.ofNatAux n h) else .error (.invalidNumber digits)
  | count + 1, c :: s =>
    if Text.isDigitOf 16 c then readCodePoint (digits ++ [c]) count s
    else .error (.unexpected (c :: s))
  | _ + 1, [] => .error (.unexpected [])

/-- The octal digits at the beginning of a text, at most `limit`. -/
def octalRun (limit : Nat) (s : List Char) : List Char :=
  (s.take limit).takeWhile (Text.isDigitOf 8)

/-- What a backslash before `c` stands for, and how many characters after `c` belong to it. -/
def readEscape (c : Char) (s : List Char) : Except Fault (List Char × Nat) :=
  match c with
  | '\n' => .ok ([], 0)
  | 'n' => .ok (['\n'], 0)
  | 't' => .ok (['\t'], 0)
  | 'r' => .ok (['\r'], 0)
  | 'a' => .ok (['\x07'], 0)
  | 'b' => .ok (['\x08'], 0)
  | 'f' => .ok (['\x0c'], 0)
  | 'v' => .ok (['\x0b'], 0)
  | '\\' | '\'' | '"' => .ok ([c], 0)
  | 'x' => (readCodePoint [] 2 s).map fun d => ([d], 2)
  | 'u' => (readCodePoint [] 4 s).map fun d => ([d], 4)
  | 'U' => (readCodePoint [] 8 s).map fun d => ([d], 8)
  | _ =>
    if Text.isDigitOf 8 c then
      let more := octalRun 2 s
      .ok ([Char.ofNat (Text.ofDigits 8 (c :: more))], more.length)
    else .ok (['\\', c], 0)

/-! ### Pieces -/

/-- How a piece is written. -/
structure PieceForm where
  raw : Bool
  quote : Char
  triple : Bool

/-- What follows the end of a piece, if the quotation mark before `s` ends it. -/
def PieceForm.ending? (form : PieceForm) (s : List Char) : Option (List Char) :=
  if form.triple then
    match s with
    | a :: b :: rest => if a = form.quote ∧ b = form.quote then some rest else none
    | _ => none
  else some s

theorem PieceForm.length_ending?_le {form : PieceForm} {s rest : List Char}
    (h : form.ending? s = some rest) : rest.length ≤ s.length := by
  unfold PieceForm.ending? at h
  split at h
  · split at h
    · split at h
      · cases h
        simp only [List.length_cons]
        omega
      · cases h
    · cases h
  · cases h
    exact Nat.le_refl _

/-- The text of a piece up to its end, and what follows; `done` is the text so far, reversed. -/
def readBody (form : PieceForm) (done : List Char) (s : List Char) :
    Except Fault (List Char × List Char) :=
  match s with
  | [] => .error .unterminatedString
  | c :: s =>
    if c = form.quote then
      match form.ending? s with
      | some rest => .ok (done.reverse, rest)
      | none => readBody form (c :: done) s
    else if c = '\n' ∧ form.triple = false then .error .unterminatedString
    else if c = '\\' then
      match s with
      | [] => .error .unterminatedString
      | d :: s =>
        if form.raw then readBody form (d :: '\\' :: done) s
        else
          match readEscape d s with
          | .error fault => .error fault
          | .ok (text, used) => readBody form (text.reverse ++ done) (s.drop used)
    else readBody form (c :: done) s
termination_by s.length
decreasing_by all_goals grind

theorem length_readBody_lt {form : PieceForm} {done s text rest : List Char}
    (h : readBody form done s = .ok (text, rest)) : rest.length < s.length := by
  fun_induction readBody form done s with
  | case2 done s tail hend =>
    cases h
    exact Nat.lt_succ_of_le (PieceForm.length_ending?_le hend)
  | _ => grind

/-- The form of the piece whose mark ended just before `s`, and its text. -/
def readForm (raw : Bool) : List Char → Except Fault (PieceForm × List Char)
  | [] => .error (.unexpected [])
  | q :: a :: b :: s =>
    if a = q ∧ b = q then .ok (⟨raw, q, true⟩, s) else .ok (⟨raw, q, false⟩, a :: b :: s)
  | q :: s => .ok (⟨raw, q, false⟩, s)

theorem length_readForm_lt {raw : Bool} {s rest : List Char} {form : PieceForm}
    (h : readForm raw s = .ok (form, rest)) : rest.length < s.length := by
  unfold readForm at h
  grind

/-- One piece with its mark, and what follows. -/
def readPiece (s : List Char) : Except Fault (List Char × List Char) :=
  let mark := (s.takeWhile Char.isAlpha).map Char.toLower
  if [[], ['u'], ['r']].contains mark then
    match readForm (mark == ['r']) (s.dropWhile Char.isAlpha) with
    | .error fault => .error fault
    | .ok (form, body) => readBody form [] body
  else .error (.unsupportedPrefix mark)

theorem length_readPiece_lt {s text rest : List Char} (h : readPiece s = .ok (text, rest)) :
    rest.length < s.length := by
  have dropped : (s.dropWhile Char.isAlpha).length ≤ s.length :=
    (List.dropWhile_sublist _).length_le
  simp only [readPiece] at h
  split at h
  · split at h
    · cases h
    · rename_i form body hform
      have := length_readForm_lt hform
      have := length_readBody_lt h
      omega
  · cases h

/-- Whether a piece begins here: at most two letters and a quotation mark. -/
def atPiece (s : List Char) : Bool :=
  (s.takeWhile Char.isAlpha).length ≤ 2 && (s.dropWhile Char.isAlpha).head?.any isQuote

/-- Pieces with trivia between them, joined behind `done`, and what follows the last. -/
def readPieces (done s : List Char) : Except Fault (List Char × List Char) :=
  match _hpiece : readPiece s with
  | .error fault => .error fault
  | .ok (text, rest) =>
    let next := skipTrivia rest
    if atPiece next then readPieces (done ++ text) next else .ok (done ++ text, rest)
termination_by s.length
decreasing_by
  have := length_readPiece_lt _hpiece
  have := length_skipTrivia_le rest
  omega

theorem length_readPieces_lt {done s text rest : List Char}
    (h : readPieces done s = .ok (text, rest)) : rest.length < s.length := by
  fun_induction readPieces done s with
  | case1 => cases h
  | case2 done s piece tail hpiece _ _ ih =>
    have := length_readPiece_lt hpiece
    have := length_skipTrivia_le tail
    have := ih h
    grind
  | case3 done s piece next hpiece =>
    cases h
    exact length_readPiece_lt hpiece

end Scriptorium.Literal
