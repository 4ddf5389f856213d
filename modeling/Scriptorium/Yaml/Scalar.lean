/-
How a string is written as a scalar: plain, in quotation marks, or as a literal block.

A string with line feeds is a literal block unless it holds characters that have to be escaped.
Any other string is plain if it can be, else in single quotation marks, else in double ones.
-/

import Scriptorium.Yaml.Plain

namespace Scriptorium.Yaml

/-! ### Characters -/

/-- A character that can be written as it is; a tab cannot. -/
def isPrintable (c : Char) : Bool :=
  let n := c.toNat
  n == 0x0A || (0x20 ≤ n && n ≤ 0x7E) || (0xA0 ≤ n && n ≤ 0xD7FF)
    || (0xE000 ≤ n && n ≤ 0xFFFD && n != 0xFEFF) || 0x10000 ≤ n

/-- A character that ends a line. -/
def isBreak (c : Char) : Bool :=
  c == '\n' || c == '\r' || c == '\u0085' || c == '\u2028' || c == '\u2029'

/-- A blank, a line end, or the end of the text. -/
def isBlankOrEnd : Option Char → Bool
  | none => true
  | some c => c == ' ' || c == '\t' || isBreak c

/-- A character that means something at the beginning of a scalar. -/
def isLeadingIndicator (c : Char) : Bool :=
  "#,[]\x7b\x7d&*!|>'\"%@`".toList.contains c

/-- Whether a character that begins a scalar keeps it from being plain. -/
def startsIndicator (c : Char) (next : Option Char) : Bool :=
  isLeadingIndicator c || ((c == '?' || c == ':' || c == '-') && isBlankOrEnd next)

/-- Whether, behind the character `prev`, a mark stands in the text that keeps it from being
plain: a colon before a blank, or a number sign behind one. -/
def holdsIndicator (prev : Char) : List Char → Bool
  | [] => false
  | c :: s =>
    (c == ':' && isBlankOrEnd s.head?) || (c == '#' && isBlankOrEnd (some prev))
      || holdsIndicator c s

/-- Whether a text holds `p` directly before `q`. -/
def holdsPair (p q : Char → Bool) : List Char → Bool
  | a :: b :: s => (p a && q b) || holdsPair p q (b :: s)
  | _ => false

/-! ### Styles -/

/-- How a scalar is written. -/
inductive Style where
  | plain
  | single
  | double
  | block
deriving DecidableEq, Repr

/-- Whether a text has more than one line. -/
def isMultiline (s : List Char) : Bool :=
  s.any isBreak

/-- Whether a text needs escapes: a character that is not printable, or a space before the end of
a line. -/
def needsEscapes (s : List Char) : Bool :=
  s.any (fun c => !isPrintable c) || holdsPair (· == ' ') isBreak s

/-- Whether a text begins a document or keeps a scalar from being plain by its marks. -/
def hasIndicators (s : List Char) : Bool :=
  "---".toList.isPrefixOf s || "...".toList.isPrefixOf s
    || match s with
      | [] => false
      | c :: s => startsIndicator c s.head? || holdsIndicator c s

/-- Whether a text can be plain. -/
def allowsPlain (s : List Char) : Bool :=
  !isMultiline s && !needsEscapes s && !hasIndicators s
    && s.head? != some ' ' && s.getLast? != some ' '

/-- Whether a text can be written in single quotation marks. -/
def allowsSingle (s : List Char) : Bool :=
  !needsEscapes s && !holdsPair isBreak (· == ' ') s

/-- Whether a text can be a literal block. -/
def allowsBlock (s : List Char) : Bool :=
  !needsEscapes s && s.getLast? != some ' '

/-- The style of a string. -/
def styleOf (s : List Char) : Style :=
  if '\n' ∈ s then if allowsBlock s then .block else .double
  else if !isMistakable s && allowsPlain s then .plain
  else if allowsSingle s then .single
  else .double

/-! ### Texts -/

/-- The letter for a character behind a backslash, if it has one. -/
def letterOf? (c : Char) : Option Char :=
  match c with
  | '\x00' => some '0'
  | '\x07' => some 'a'
  | '\x08' => some 'b'
  | '\t' => some 't'
  | '\n' => some 'n'
  | '\x0b' => some 'v'
  | '\x0c' => some 'f'
  | '\r' => some 'r'
  | '\x1b' => some 'e'
  | '"' | '\\' => some c
  | '\u0085' => some 'N'
  | '\u2028' => some 'L'
  | '\u2029' => some 'P'
  | _ => none

/-- A number in upper-case hexadecimal digits of a fixed width. -/
def hexText (width n : Nat) : List Char :=
  let digits := (Nat.toDigits 16 n).map Char.toUpper
  List.replicate (width - digits.length) '0' ++ digits

/-- A character inside double quotation marks. -/
def escapeChar (c : Char) : List Char :=
  if isPrintable c && !isBreak c && c != '"' && c != '\\' then [c]
  else
    match letterOf? c with
    | some letter => ['\\', letter]
    | none =>
      if c.toNat ≤ 0xFF then '\\' :: 'x' :: hexText 2 c.toNat
      else if c.toNat ≤ 0xFFFF then '\\' :: 'u' :: hexText 4 c.toNat
      else '\\' :: 'U' :: hexText 8 c.toNat

/-- A string in double quotation marks. -/
def doubleText (s : List Char) : List Char :=
  '"' :: (s.flatMap escapeChar ++ ['"'])

/-- A text whose lines behind the first are indented; a line that holds nothing is not. -/
def indentLines (indent : Nat) : List Char → List Char
  | [] => []
  | c :: s =>
    if isBreak c && !(s.head?.any isBreak) && !s.isEmpty then
      c :: (List.replicate indent ' ' ++ indentLines indent s)
    else c :: indentLines indent s

/-- A string in single quotation marks; a line separator in it is followed by an indentation. -/
def singleText (indent : Nat) (s : List Char) : List Char :=
  '\'' :: (indentLines indent (Text.replaceChar '\'' ['\'', '\''] s ++ ['\'']))

/-- What stands behind the bar of a literal block: an indentation if the first line begins with a
blank, and what becomes of the last line end. -/
def blockHints (s : List Char) : List Char :=
  let lead := s.head?.any fun c => c == ' ' || isBreak c
  let ending := match s.reverse with
    | c :: rest =>
      if !isBreak c then ['-']
      else if rest.head?.all isBreak then ['+']
      else []
    | [] => ['-']
  (if lead then ['2'] else []) ++ ending

/-- A literal block. -/
def blockText (indent : Nat) (s : List Char) : List Char :=
  '|' :: (blockHints s ++ indentLines indent ('\n' :: s))

/-- A string as a scalar whose further lines have an indentation. -/
def scalarText (indent : Nat) (s : List Char) : List Char :=
  match styleOf s with
  | .plain => s
  | .single => singleText indent s
  | .double => doubleText s
  | .block => blockText indent s

end Scriptorium.Yaml
