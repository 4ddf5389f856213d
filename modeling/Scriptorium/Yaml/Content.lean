/-
The content of scalars: plain, in quotation marks, and in blocks.

In a plain or quoted scalar a line end and the blanks around it become one space, and further line
ends are kept. A literal block keeps its lines, and a folded one joins those that are not indented
further.
-/

import Scriptorium.Text.Digit
import Scriptorium.Yaml.Cursor

namespace Scriptorium.Yaml

/-! ### Folding -/

/-- What stands between the last character that has been read and the next. -/
inductive Gap where
  | blanks (text : List Char)
  /-- Line ends, the first of which may have been escaped. -/
  | breaks (first : Option Char) (more : List Char)
deriving DecidableEq, Repr

/-- What a gap amounts to. -/
def Gap.text : Gap → List Char
  | .blanks text => text
  | .breaks (some '\n') [] => [' ']
  | .breaks (some '\n') more => more
  | .breaks first more => first.toList ++ more

/-- A gap with a blank behind it. Blanks at the beginning of a line do not count. -/
def Gap.addBlank (c : Char) : Gap → Gap
  | .blanks text => .blanks (text ++ [c])
  | .breaks first more => .breaks first more

/-- A gap with a line end behind it. -/
def Gap.addBreak (c : Char) : Gap → Gap
  | .blanks _ => .breaks (some (Cursor.breakChar c)) []
  | .breaks first more => .breaks first (more ++ [Cursor.breakChar c])

/-- Whether a gap holds a line end. -/
def Gap.hasBreak : Gap → Bool
  | .blanks _ => false
  | .breaks _ _ => true

/-- The content read so far, reversed, with a gap and a text behind it. -/
def extend (done : List Char) (gap : Gap) (text : List Char) : List Char :=
  text.reverse ++ gap.text.reverse ++ done

/-! ### Plain scalars -/

/-- A character that ends a plain scalar between brackets. -/
def isFlowMark (c : Char) : Bool :=
  c ∈ [',', '[', ']', '\x7b', '\x7d']

/-- What comes of a scalar: its content, the place behind it, and whether that is a new line. -/
structure Content where
  text : List Char
  cursor : Cursor
  newLine : Bool := false

/-- Reads a plain scalar. Outside of brackets its lines have at least the column `indent`. -/
def plainFrom (flow : Bool) (indent : Nat) (done : List Char) (gap : Gap) (inWord : Bool)
    (c : Cursor) : Except Error Content :=
  match _h : c.rest with
  | [] => .ok ⟨done.reverse, c, gap.hasBreak⟩
  | ch :: _ =>
    if Cursor.isSpacing ch then
      if gap.hasBreak && ch == '\t' && c.column < indent then .error .tab
      else plainFrom flow indent done (gap.addBlank ch) false c.skip
    else if isBreak ch then plainFrom flow indent done (gap.addBreak ch) false c.skipLine
    else if !inWord
        && ((gap.hasBreak && !flow && c.column < indent) || c.atDocumentMark || ch == '#') then
      .ok ⟨done.reverse, c, gap.hasBreak⟩
    else if flow && ch == ':' && c.rest[1]?.any (fun d => isFlowMark d || d == '?') then
      .error .misplacedColon
    else if (ch == ':' && c.blankAt 1) || (flow && isFlowMark ch) then
      .ok ⟨done.reverse, c, gap.hasBreak⟩
    else plainFrom flow indent (extend done gap [ch]) (.blanks []) true c.skip
termination_by c.rest.length
decreasing_by
  · exact Cursor.length_skip_lt _h
  · exact Cursor.length_skipLine_lt _h
  · exact Cursor.length_skip_lt _h

/-! ### Quoted scalars -/

/-- The character that an escape of one letter stands for. -/
def escaped? : Char → Option Char
  | '0' => some '\x00'
  | 'a' => some '\x07'
  | 'b' => some '\x08'
  | 't' | '\t' => some '\t'
  | 'n' => some '\n'
  | 'v' => some '\x0b'
  | 'f' => some '\x0c'
  | 'r' => some '\r'
  | 'e' => some '\x1b'
  | ' ' => some ' '
  | '"' => some '"'
  | '/' => some '/'
  | '\\' => some '\\'
  | 'N' => some '\u0085'
  | '_' => some '\u00a0'
  | 'L' => some '\u2028'
  | 'P' => some '\u2029'
  | _ => none

/-- The number of digits of an escape with a number. -/
def escapeDigits? : Char → Option Nat
  | 'x' => some 2
  | 'u' => some 4
  | 'U' => some 8
  | _ => none

/-- What a backslash stands for with the characters behind it, and their number. -/
def readEscape : List Char → Except Error (Char × Nat)
  | [] => .error .unknownEscape
  | ch :: s =>
    match escaped? ch, escapeDigits? ch with
    | some d, _ => .ok (d, 1)
    | none, none => .error .unknownEscape
    | none, some count =>
      let digits := s.take count
      let n := Text.ofDigits 16 digits
      if digits.length = count ∧ digits.all (Text.isDigitOf 16) then
        if h : n.isValidChar then .ok (Char.ofNatAux n h, count + 1) else .error .badEscape
      else .error .badEscape

/-- Reads a quoted scalar behind its first mark. -/
def quotedFrom (mark : Char) (done : List Char) (gap : Gap) (c : Cursor) : Except Error Content :=
  match _h : c.rest with
  | [] => .error .endOfText
  | ch :: s =>
    if c.atDocumentMark then .error .documentMark
    else if Cursor.isSpacing ch then quotedFrom mark done (gap.addBlank ch) c.skip
    else if isBreak ch then quotedFrom mark done (gap.addBreak ch) c.skipLine
    else if ch = mark then
      if mark = '\'' ∧ s.head? = some '\'' then
        quotedFrom mark (extend done gap ['\'']) (.blanks []) (c.skipMany 2)
      else .ok { text := (extend done gap []).reverse, cursor := c.skip }
    else if mark = '"' ∧ ch = '\\' then
      if s.head?.any isBreak then
        quotedFrom mark (extend done gap []) (.breaks none []) c.skip.skipLine
      else
        match readEscape s with
        | .error e => .error e
        | .ok (d, n) => quotedFrom mark (extend done gap [d]) (.blanks []) (c.skipMany (n + 1))
    else quotedFrom mark (extend done gap [ch]) (.blanks []) c.skip
termination_by c.rest.length
decreasing_by
  · exact Cursor.length_skip_lt _h
  · exact Cursor.length_skipLine_lt _h
  · exact Cursor.length_skipMany_lt _h (by omega)
  · have := Cursor.length_skip_lt _h
    simp only [Cursor.skipLine, List.length_drop]
    omega
  · exact Cursor.length_skipMany_lt _h (by omega)
  · exact Cursor.length_skip_lt _h

/-! ### Blocks -/

/-- How the line ends behind a block are kept. -/
inductive Chomping where
  | strip
  | clip
  | keep
deriving DecidableEq, Repr

/-- The head of a block: its chomping and its indentation, where it is given. -/
structure Head where
  chomping : Chomping := .clip
  increment : Option Nat := none

/-- Reads the marks of a head. -/
def Head.read (h : Head) (chomped sized : Bool) (c : Cursor) : Except Error (Head × Cursor) :=
  match _h : c.rest with
  | [] => .ok (h, c)
  | ch :: _ =>
    if !chomped && (ch == '+' || ch == '-') then
      Head.read { h with chomping := if ch = '+' then .keep else .strip } true sized c.skip
    else if !sized && ch.isDigit then
      if ch = '0' then .error .badHead
      else Head.read { h with increment := some (ch.toNat - '0'.toNat) } chomped true c.skip
    else .ok (h, c)
termination_by c.rest.length
decreasing_by all_goals exact Cursor.length_skip_lt _h

/-- Skips the rest of the line of a head, which may hold a comment. -/
def skipHeadLine (c : Cursor) : Except Error Cursor :=
  let c := c.skipWhile Cursor.isSpacing
  let c := if c.rest.head? = some '#' then c.skipWhile (!isBreak ·) else c
  match c.rest with
  | [] => .ok c
  | ch :: _ => if isBreak ch then .ok c.skipLine else .error .badHead

/-- Skips empty lines and the indentation behind them. The result is the line ends, the greatest
column that spaces lead to, and the place. -/
def skipEmptyLines (indent : Option Nat) (breaks : List Char) (greatest : Nat) (c : Cursor) :
    Except Error (List Char × Nat × Cursor) :=
  match _h : c.rest with
  | [] => .ok (breaks, max greatest c.column, c)
  | ch :: _ =>
    let inIndent := indent.all (c.column < ·)
    if ch = ' ' ∧ inIndent then skipEmptyLines indent breaks greatest c.skip
    else if ch = '\t' ∧ inIndent then .error .tab
    else if isBreak ch then
      skipEmptyLines indent (breaks ++ [Cursor.breakChar ch]) (max greatest c.column) c.skipLine
    else .ok (breaks, max greatest c.column, c)
termination_by c.rest.length
decreasing_by
  · exact Cursor.length_skip_lt _h
  · exact Cursor.length_skipLine_lt _h

/-- What stands in a block between two of its lines: the line end and the empty lines, or a space
when both lines are folded into one. -/
def blockGap (folded : Bool) (first : List Char) (more : List Char) : List Char :=
  if folded && first == ['\n'] then if more.isEmpty then [' '] else more else first ++ more

/-- Reads the lines of a block; `first` is the end of the line before, `more` are the empty lines
behind it, and `blank` says whether that line began with a blank. -/
def blockLines (folded : Bool) (indent : Nat) (chomping : Chomping) (fuel : Nat)
    (done first more : List Char) (blank : Bool) (c : Cursor) : Except Error Content :=
  let stop : Except Error Content :=
    let tail := match chomping with
      | .strip => []
      | .clip => first
      | .keep => first ++ more
    .ok { text := done ++ tail, cursor := c }
  match fuel with
  | 0 => stop
  | fuel + 1 =>
    if c.column ≠ indent ∨ c.rest.isEmpty then stop
    else
      let nowBlank := c.rest.head?.any Cursor.isSpacing
      let text := c.rest.takeWhile (!isBreak ·)
      let gap := blockGap (folded && !blank && !nowBlank) first more
      let behind := c.skipMany text.length
      let (first, c) := match behind.rest with
        | [] => ([], behind)
        | ch :: _ => ([Cursor.breakChar ch], behind.skipLine)
      match skipEmptyLines (some indent) [] 0 c with
      | .error e => .error e
      | .ok (more, _, c) =>
        blockLines folded indent chomping fuel (done ++ gap ++ text) first more nowBlank c

/-- Reads a block behind its mark; `indent` is the column of what it belongs to. -/
def readBlock (folded : Bool) (indent : Option Nat) (c : Cursor) : Except Error Content := do
  let (head, c) ← Head.read {} false false c
  let c ← skipHeadLine c
  let given := head.increment.map fun n => (indent.getD 0) + n
  let (more, greatest, c) ← skipEmptyLines given [] 0 c
  let least := match indent with
    | some n => n + 1
    | none => 1
  let content ← blockLines folded (given.getD (max greatest least)) head.chomping c.rest.length []
    [] more false c
  return { content with newLine := true }

end Scriptorium.Yaml
