/-
A place in a YAML text, with its line and its column.
-/

import Scriptorium.Yaml.Scalar

namespace Scriptorium.Yaml

/-- Why a text is no document, or one of the wrong form. -/
inductive Error where
  | control
  | tab
  | endOfText
  | documentMark
  | unknownEscape
  | badEscape
  | misplacedColon
  | badHead
  | badAnchor
  | badTag
  | badDirective
  | noToken
  | unfinishedKey
  | misplacedKey
  | misplacedValue
  | misplacedEntry
  | noNode
  | noEntry
  | noKey
  | noSeparator
  | noDocument
  | unknownAnchor
  | severalDocuments
  | unreadable (cause : String)
  | wrongKind (expected : String)
  | duplicateField (name : String)
deriving DecidableEq, Repr

/-- The message of an error. -/
def Error.message : Error → String
  | .control => "control characters are not allowed"
  | .tab => "found a tab character that violates indentation"
  | .endOfText => "found unexpected end of stream"
  | .documentMark => "found unexpected document indicator"
  | .unknownEscape => "found unknown escape character"
  | .badEscape => "did not find expected hexdecimal number"
  | .misplacedColon => "found unexpected ':'"
  | .badHead => "did not find expected comment or line break"
  | .badAnchor => "did not find expected alphabetic or numeric character"
  | .badTag => "did not find expected tag"
  | .badDirective => "found unknown directive name"
  | .noToken => "found character that cannot start any token"
  | .unfinishedKey => "could not find expected ':'"
  | .misplacedKey => "mapping keys are not allowed in this context"
  | .misplacedValue => "mapping values are not allowed in this context"
  | .misplacedEntry => "block sequence entries are not allowed in this context"
  | .noNode => "did not find expected node content"
  | .noEntry => "did not find expected '-' indicator"
  | .noKey => "did not find expected key"
  | .noSeparator => "did not find expected ','"
  | .noDocument => "did not find expected <document start>"
  | .unknownAnchor => "unknown anchor"
  | .severalDocuments => "more than one document"
  | .unreadable cause => cause
  | .wrongKind expected => "invalid type, expected " ++ expected
  | .duplicateField name => "duplicate field '" ++ name ++ "'"

/-- A place in a text: what follows, and how far it is from the beginning. -/
structure Cursor where
  rest : List Char
  index : Nat := 0
  line : Nat := 0
  column : Nat := 0

namespace Cursor

/-! ### Moving -/

/-- The place behind one character. -/
def skip (c : Cursor) : Cursor :=
  { c with rest := c.rest.tail, index := c.index + 1, column := c.column + 1 }

/-- The place behind some characters of a line. -/
def skipMany (c : Cursor) (n : Nat) : Cursor :=
  { c with rest := c.rest.drop n, index := c.index + n, column := c.column + n }

/-- The place behind the characters of a line that satisfy `p`. -/
def skipWhile (c : Cursor) (p : Char → Bool) : Cursor :=
  c.skipMany (c.rest.takeWhile p).length

/-- The place behind a line end. A carriage return and a line feed are one line end. -/
def skipLine (c : Cursor) : Cursor :=
  let n := match c.rest with
    | '\r' :: '\n' :: _ => 2
    | _ => 1
  { rest := c.rest.drop n, index := c.index + n, line := c.line + 1, column := 0 }

theorem length_skip_lt {c : Cursor} {ch : Char} {s : List Char} (h : c.rest = ch :: s) :
    c.skip.rest.length < c.rest.length := by
  simp [skip, h]

theorem length_skipMany_lt {c : Cursor} {n : Nat} {ch : Char} {s : List Char}
    (h : c.rest = ch :: s) (hn : 0 < n) : (c.skipMany n).rest.length < c.rest.length := by
  simp only [skipMany, List.length_drop, h, List.length_cons]
  omega

theorem length_skipLine_lt {c : Cursor} {ch : Char} {s : List Char} (h : c.rest = ch :: s) :
    c.skipLine.rest.length < c.rest.length := by
  simp only [skipLine, List.length_drop, h, List.length_cons]
  split <;> omega

/-! ### Looking -/

/-- A space or a tab. -/
def isSpacing (c : Char) : Bool :=
  c == ' ' || c == '\t'

/-- The character that a line end counts as. -/
def breakChar (c : Char) : Char :=
  if c = '\u2028' ∨ c = '\u2029' then c else '\n'

/-- Whether the character `n` places ahead is a blank, a line end or the end of the text. -/
def blankAt (c : Cursor) (n : Nat) : Bool :=
  isBlankOrEnd c.rest[n]?

/-- Whether a line begins here with three given characters of their own. -/
def atMark (c : Cursor) (mark : Char) : Bool :=
  c.column == 0 && c.rest.take 3 == [mark, mark, mark] && c.blankAt 3

/-- Whether a line begins here with a mark between documents. -/
def atDocumentMark (c : Cursor) : Bool :=
  c.atMark '-' || c.atMark '.'

end Cursor

end Scriptorium.Yaml
