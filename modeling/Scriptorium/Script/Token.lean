/-
The tokens of a script.

A token keeps its text and what stands between it and the token before it, so that the text of
any run of tokens can be given back. At every place the longest token that fits is taken.
-/

import Scriptorium.Script.Quotation
import Scriptorium.Text.Digit

namespace Scriptorium.Script

/-- What a token is. -/
inductive Kind where
  | name
  | number
  | string
  | operator
  | opening
  | closing
  /-- A comment. -/
  | remark
  | lineEnd
  /-- What is no token, such as a string that never ends. -/
  | stray
deriving DecidableEq, Repr

/-- A token with the gap in front of it. -/
structure Token where
  kind : Kind
  gap : List Char
  text : List Char
deriving DecidableEq, Repr

/-! ### Gaps -/

/-- A character that separates tokens and means nothing: a blank of ASCII or a mark of no width. The
other blanks of Unicode are no tokens and separate none. -/
def isGap (c : Char) : Bool :=
  c.toNat ∈ [0x09, 0x0B, 0x0C, 0x0D, 0x20, 0x200B, 0x2060, 0xFEFF]

/-- The length of the gap at the beginning of a text. A backslash joins the lines around it. -/
def gapLength : List Char → Nat
  | '\\' :: '\n' :: s => 2 + gapLength s
  | '\\' :: '\r' :: '\n' :: s => 3 + gapLength s
  | c :: s => if isGap c then 1 + gapLength s else 0
  | [] => 0

/-! ### Numbers -/

/-- The length of a run of decimal digits, each of which may have one underscore behind it. -/
def digitRun (afterDigit : Bool) : List Char → Nat
  | [] => 0
  | c :: s =>
    if c.isDigit then 1 + digitRun true s
    else if c = '_' ∧ afterDigit then 1 + digitRun false s
    else 0

/-- The length of a run of digits in a base, each of which may have one underscore before it. -/
def digitRunOf (base : Nat) : List Char → Nat
  | [] => 0
  | '_' :: c :: s => if Text.isDigitOf base c then 2 + digitRunOf base s else 0
  | c :: s => if Text.isDigitOf base c then 1 + digitRunOf base s else 0

/-- The base that a letter behind a zero stands for. -/
def baseOf? (c : Char) : Option Nat :=
  match c.toLower with
  | 'x' => some 16
  | 'o' => some 8
  | 'b' => some 2
  | _ => none

/-- The length of a whole number with a base. -/
def basedLength : List Char → Nat
  | '0' :: c :: s =>
    match baseOf? c with
    | some base => if digitRunOf base s = 0 then 0 else 2 + digitRunOf base s
    | none => 0
  | _ => 0

/-- The length of an exponent. -/
def exponentLength : List Char → Nat
  | [] => 0
  | c :: s =>
    if c.toLower = 'e' then
      let sign := if s.head? = some '+' ∨ s.head? = some '-' then 1 else 0
      let digits := digitRun false (s.drop sign)
      if digits = 0 then 0 else 1 + sign + digits
    else 0

/-- The length of a point and the digits behind it. -/
def fractionLength : List Char → Nat
  | '.' :: s => 1 + digitRun false s
  | _ => 0

/-- The length of a letter that ends a number. -/
def suffixLength (letters : List Char) (s : List Char) : Nat :=
  if s.head?.any (·.toLower ∈ letters) then 1 else 0

/-- The length of the number that begins a text. -/
def numberLength (s : List Char) : Nat :=
  if basedLength s ≠ 0 then basedLength s + suffixLength ['l'] (s.drop (basedLength s))
  else
    let whole := digitRun false s
    let fraction := fractionLength (s.drop whole)
    let exponent := exponentLength (s.drop (whole + fraction))
    let length := whole + fraction + exponent
    let letters := if fraction + exponent = 0 then ['j', 'l'] else ['j']
    length + suffixLength letters (s.drop length)

/-! ### Operators -/

/-- The operators, the longer ones first. -/
def operators : List (List Char) :=
  ["**=", "//=", "<<=", ">>=", "...", "**", "//", "<<", ">>", "<=", ">=", "==", "!=", "<>", "->",
   ":=", "+=", "-=", "*=", "/=", "%=", "@=", "&=", "|=", "^=", "+", "-", "*", "/", "%", "@", "&",
   "|", "^", "~", "<", ">", "=", ":", ";", ",", "."].map String.toList

/-- The operator that begins a text. -/
def operator? (s : List Char) : Option (List Char) :=
  operators.find? (·.isPrefixOf s)

/-! ### Strings -/

/-- The length of the string that begins with `s` behind a run of flags. One that never ends is
stray, up to the end of the line or, with triple marks, of the text. -/
def stringLength (flags s : List Char) : Option (Kind × Nat) :=
  (quotation? flags s).map fun (q, n) =>
    match q.length? n s with
    | some length => (.string, length)
    | none => (.stray, if q.triple then s.length else (s.takeWhile (· != '\n')).length)

/-! ### Tokens -/

/-- The kind of the token that begins a text, and its length. -/
def scan (s : List Char) : Kind × Nat :=
  match s with
  | [] => (.stray, 0)
  | c :: rest =>
    let flags := s.takeWhile isFlag
    match stringLength flags (s.drop flags.length) with
    | some (kind, length) => (kind, flags.length + length)
    | none =>
      if Text.isNameStart c then (.name, (s.takeWhile Text.isNamePart).length)
      else if c.isDigit || (c == '.' && rest.head?.any Char.isDigit) then (.number, numberLength s)
      else if c = '#' then (.remark, (s.takeWhile (· != '\n')).length)
      else if c = '\n' then (.lineEnd, 1)
      else if c ∈ ['(', '[', '\x7b'] then (.opening, 1)
      else if c ∈ [')', ']', '\x7d'] then (.closing, 1)
      else
        match operator? s with
        | some op => (.operator, op.length)
        | none => (.stray, 1)

/-- What a token and the gap in front of it take of a text. -/
def Token.source (t : Token) : List Char :=
  t.gap ++ t.text

/-- The tokens of a text. -/
def tokens (s : List Char) : List Token :=
  let gap := gapLength s
  match _rest : s.drop gap with
  | [] => []
  | c :: rest =>
    let (kind, length) := scan (c :: rest)
    ⟨kind, s.take gap, c :: rest.take (length - 1)⟩ :: tokens (rest.drop (length - 1))
termination_by s.length
decreasing_by
  have := congrArg List.length _rest
  simp only [List.length_drop, List.length_cons] at *
  omega

/-- The tokens spell the text but for a gap at its end. -/
theorem exists_source_append (s : List Char) :
    ∃ tail, s = (tokens s).flatMap Token.source ++ tail ∧ tail.length ≤ gapLength tail := by
  fun_induction tokens s with
  | case1 s gap hrest => exact ⟨s, by simp, List.drop_eq_nil_iff.mp hrest⟩
  | case2 s gap c rest hrest kind length hscan ih =>
    obtain ⟨tail, hspelled, hgap⟩ := ih
    refine ⟨tail, ?_, hgap⟩
    simp only [List.flatMap_cons, Token.source, List.append_assoc, List.cons_append]
    rw [← hspelled, List.take_append_drop, ← hrest, List.take_append_drop]

end Scriptorium.Script
