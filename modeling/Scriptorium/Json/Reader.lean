/-
Reading JSON texts.

What is read keeps more than a data tree: numbers as they are written, repeated keys, and strings
that cannot be decoded because a surrogate stands alone. Such parts only count if they are used.
-/

import Scriptorium.Json.Number
import Scriptorium.Text.Digit

namespace Scriptorium.Json

/-- A JSON value as it is written. A string that cannot be decoded is `none`. -/
inductive Value where
  | null
  | bool (b : Bool)
  | number (n : Number)
  | string (s : Option String)
  | array (items : List Value)
  | object (members : List (Option String × Value))
deriving Inhabited

/-! ### Strings -/

/-- The character that a backslash and a letter stand for. -/
def shortEscape? (c : Char) : Option Char :=
  match c with
  | '"' | '\\' | '/' => some c
  | 'b' => some '\x08'
  | 'f' => some '\x0c'
  | 'n' => some '\n'
  | 'r' => some '\r'
  | 't' => some '\t'
  | _ => none

/-- The value of four hexadecimal digits. -/
def hexUnit? (digits : List Char) : Option Nat :=
  if digits.all (Text.isDigitOf 16) then some (Text.ofDigits 16 digits) else none

/-- The character of two surrogates. -/
def pairChar (high low : Nat) : Char :=
  Char.ofNat (0x10000 + (high - 0xD800) * 0x400 + (low - 0xDC00))

/-- A piece of a string. -/
inductive Piece where
  | char (c : Char)
  | unit (n : Nat)

/-- Decodes pieces: units must be characters or pairs of surrogates. -/
def decodePieces : List Piece → Option (List Char)
  | [] => some []
  | .char c :: rest => (decodePieces rest).map (c :: ·)
  | .unit high :: .unit low :: rest =>
    if 0xD800 ≤ high ∧ high < 0xDC00 then
      if 0xDC00 ≤ low ∧ low < 0xE000 then (decodePieces rest).map (pairChar high low :: ·) else none
    else if 0xDC00 ≤ high ∧ high < 0xE000 then none
    else (decodePieces (.unit low :: rest)).map (Char.ofNat high :: ·)
  | .unit n :: rest =>
    if 0xD800 ≤ n ∧ n < 0xE000 then none else (decodePieces rest).map (Char.ofNat n :: ·)

/-- The pieces of a string up to its closing quotation mark, and what follows. -/
def readPieces (done : List Piece) : List Char → Option (List Piece × List Char)
  | [] => none
  | '"' :: rest => some (done.reverse, rest)
  | '\\' :: 'u' :: a :: b :: c :: d :: rest =>
    match hexUnit? [a, b, c, d] with
    | some n => readPieces (.unit n :: done) rest
    | none => none
  | '\\' :: c :: rest =>
    match shortEscape? c with
    | some e => readPieces (.char e :: done) rest
    | none => none
  | c :: rest =>
    if c.toNat < 0x20 ∨ c = '\\' then none else readPieces (.char c :: done) rest

theorem length_readPieces_lt {done pieces : List Piece} {s rest : List Char}
    (h : readPieces done s = some (pieces, rest)) : rest.length < s.length := by
  fun_induction readPieces done s with
  | case2 done tail =>
    cases h
    exact Nat.lt_succ_self _
  | case3 done a b c d tail n _ ih =>
    have := ih h
    simp only [List.length_cons]
    omega
  | case5 done c tail _ e _ ih =>
    have := ih h
    simp only [List.length_cons]
    omega
  | case8 done c tail _ _ _ _ ih =>
    have := ih h
    simp only [List.length_cons]
    omega
  | _ => cases h

/-- A string behind its opening quotation mark, and what follows. -/
def readString (s : List Char) : Option (Option String × List Char) :=
  (readPieces [] s).map fun (pieces, rest) => ((decodePieces pieces).map String.ofList, rest)

theorem length_readString_lt {text : Option String} {s rest : List Char}
    (h : readString s = some (text, rest)) : rest.length < s.length := by
  simp only [readString, Option.map_eq_some_iff, Prod.mk.injEq] at h
  obtain ⟨⟨pieces, tail⟩, hread, _, rfl⟩ := h
  exact length_readPieces_lt hread

/-! ### Other values without parts -/

/-- A blank of the format. -/
def isSpace (c : Char) : Bool :=
  c == ' ' || c == '\n' || c == '\t' || c == '\r'

/-- Drops the blanks at the beginning. -/
def skipSpace (s : List Char) : List Char :=
  s.dropWhile isSpace

theorem length_skipSpace_le (s : List Char) : (skipSpace s).length ≤ s.length :=
  (List.dropWhile_sublist _).length_le

/-- A character of a number or a word. -/
def isTokenChar (c : Char) : Bool :=
  c.isAlphanum || c == '+' || c == '-' || c == '.'

/-- The value of a number or a word. -/
def token? (token : List Char) : Option Value :=
  if token = "null".toList then some .null
  else if token = "true".toList then some (.bool true)
  else if token = "false".toList then some (.bool false)
  else (Number.ofChars? token).map .number

/-! ### The reader -/

/-- A container that is open, with what has been read of it, the last part first. -/
inductive Frame where
  | array (items : List Value)
  | object (members : List (Option String × Value)) (key : Option String)

/-- What the reader waits for. -/
inductive Stage where
  | expect
  | got (v : Value)

/-- A key with its colon, and what follows. -/
def readKey (s : List Char) : Option (Option String × List Char) :=
  match skipSpace s with
  | '"' :: s =>
    match readString s with
    | some (key, rest) =>
      match skipSpace rest with
      | ':' :: rest => some (key, rest)
      | _ => none
    | none => none
  | _ => none

theorem length_readKey_lt {key : Option String} {s rest : List Char}
    (h : readKey s = some (key, rest)) : rest.length < s.length := by
  unfold readKey at h
  split at h
  · rename_i tail hs
    have := length_skipSpace_le s
    rw [hs] at this
    split at h
    · rename_i name after hread
      have := length_readString_lt hread
      split at h
      · rename_i final hafter
        have := length_skipSpace_le after
        rw [hafter] at this
        cases h
        simp only [List.length_cons] at *
        omega
      · cases h
    · cases h
  · cases h

/-- Reads to the end of the outermost value. -/
def run (stage : Stage) (frames : List Frame) (s : List Char) : Option (Value × List Char) :=
  match stage, frames with
  | .expect, frames =>
    match _hs : skipSpace s with
    | [] => none
    | '"' :: rest =>
      match _hread : readString rest with
      | some (text, rest) => run (.got (.string text)) frames rest
      | none => none
    | '[' :: rest =>
      match _hrest : skipSpace rest with
      | ']' :: after => run (.got (.array [])) frames after
      | _ => run .expect (.array [] :: frames) rest
    | '\x7b' :: rest =>
      match _hrest : skipSpace rest with
      | '\x7d' :: after => run (.got (.object [])) frames after
      | _ =>
        match _hread : readKey rest with
        | some (key, after) => run .expect (.object [] key :: frames) after
        | none => none
    | c :: rest =>
      match token? (c :: rest.takeWhile isTokenChar) with
      | some v => run (.got v) frames (rest.dropWhile isTokenChar)
      | none => none
  | .got v, [] => some (v, s)
  | .got v, .array items :: frames =>
    match _hs : skipSpace s with
    | ',' :: rest => run .expect (.array (v :: items) :: frames) rest
    | ']' :: rest => run (.got (.array (v :: items).reverse)) frames rest
    | _ => none
  | .got v, .object members key :: frames =>
    match _hs : skipSpace s with
    | ',' :: rest =>
      match _hread : readKey rest with
      | some (next, after) => run .expect (.object ((key, v) :: members) next :: frames) after
      | none => none
    | '\x7d' :: rest => run (.got (.object ((key, v) :: members).reverse)) frames rest
    | _ => none
termination_by s.length
decreasing_by
  all_goals
    have := length_skipSpace_le s
    have := congrArg List.length _hs
    simp only [List.length_cons] at this
    first
      | have := length_readString_lt _hread
        omega
      | have := length_readKey_lt _hread
        omega
      | have := length_skipSpace_le rest
        have := congrArg List.length _hrest
        simp only [List.length_cons] at this
        omega
      | have := (List.dropWhile_sublist (l := rest) isTokenChar).length_le
        omega

/-- Reads a text that holds one value. -/
def read? (text : String) : Option Value :=
  match run .expect [] text.toList with
  | some (v, rest) => if (skipSpace rest).isEmpty then some v else none
  | none => none

end Scriptorium.Json
