/-
The tokens of a YAML text.

Blocks are found by their columns: a deeper column opens a collection, a lesser one closes those
that are open. What begins a key is known only from the colon behind it, so a place where a key
may begin is remembered, and its token is put in when the colon comes. A key of this kind stands
on one line and is not longer than 1024 characters.
-/

import Scriptorium.Yaml.Content

namespace Scriptorium.Yaml

/-- A token. -/
inductive Token where
  | directive
  | documentStart
  | documentEnd
  | sequenceStart
  | mappingStart
  | blockEnd
  | flowSequenceStart
  | flowSequenceEnd
  | flowMappingStart
  | flowMappingEnd
  | blockEntry
  | flowEntry
  | key
  | value
  | alias (name : List Char)
  | anchor (name : List Char)
  | tag (name : List Char)
  | scalar (text : List Char) (plain : Bool)
deriving DecidableEq, Repr

/-! ### State -/

/-- A place where a key may have begun. -/
structure PossibleKey where
  /-- The number of tokens before it. -/
  position : Nat
  index : Nat
  line : Nat
  column : Nat
  /-- Whether nothing but a key can stand here. -/
  required : Bool

/-- The tokens read so far, and what is open. -/
structure Scan where
  cursor : Cursor
  /-- The tokens, the last first. -/
  tokens : List Token := []
  /-- The columns of the open blocks, the innermost first. -/
  blocks : List Nat := []
  /-- The possible keys of the open brackets, the innermost first. -/
  keys : List (Option PossibleKey) := [none]
  keyAllowed : Bool := true

namespace Scan

/-- Whether a bracket is open. -/
def inFlow (s : Scan) : Bool :=
  s.keys.length != 1

/-- Adds a token. -/
def push (s : Scan) (t : Token) : Scan :=
  { s with tokens := t :: s.tokens }

/-- Puts a token behind the first `position` ones. -/
def insertAt (s : Scan) (position : Nat) (t : Token) : Scan :=
  let n := s.tokens.length - position
  { s with tokens := s.tokens.take n ++ t :: s.tokens.drop n }

/-- Closes the blocks whose columns are greater than a column; with none, all. -/
def unroll (s : Scan) (column : Option Nat) : Scan :=
  if s.inFlow then s
  else
    let closed := s.blocks.takeWhile fun block => column.all (· < block)
    { s with
      tokens := closed.map (fun _ => Token.blockEnd) ++ s.tokens
      blocks := s.blocks.drop closed.length }

/-- Opens a block at a column, unless one is open there. -/
def roll (s : Scan) (column position : Nat) (t : Token) : Scan :=
  if s.inFlow ∨ s.blocks.head?.any (column ≤ ·) then s
  else { (s.insertAt position t) with blocks := column :: s.blocks }

/-! ### Possible keys -/

/-- Gives up a possible key. -/
def giveUp : Option PossibleKey → Except Error (Option PossibleKey)
  | some k => if k.required then .error .unfinishedKey else .ok none
  | none => .ok none

/-- Gives up the possible keys that are too far behind. -/
def dropStale (s : Scan) : Except Error Scan := do
  let keys ← s.keys.mapM fun key =>
    match key with
    | some k =>
      if k.line < s.cursor.line ∨ k.index + 1024 < s.cursor.index then giveUp (some k)
      else .ok (some k)
    | none => .ok none
  return { s with keys }

/-- Gives up the possible key of the innermost bracket. -/
def dropKey (s : Scan) : Except Error Scan :=
  match s.keys with
  | [] => .ok s
  | key :: rest => (giveUp key).map fun key => { s with keys := key :: rest }

/-- Remembers that a key may begin here. -/
def saveKey (s : Scan) : Except Error Scan := do
  if s.keyAllowed then
    let s ← s.dropKey
    let c := s.cursor
    let key : PossibleKey :=
      ⟨s.tokens.length, c.index, c.line, c.column, !s.inFlow && s.blocks.head? == some c.column⟩
    return { s with keys := some key :: s.keys.tail }
  else return s

/-! ### Blanks and comments -/

/-- Skips blanks, comments and line ends. Outside of brackets a key may begin on a new line, and
a tab may not stand before it. -/
def skipBlanks (inFlow keyAllowed : Bool) (c : Cursor) : Bool × Cursor :=
  match _h : c.rest with
  | [] => (keyAllowed, c)
  | ch :: _ =>
    if ch = ' ' ∨ (ch = '\t' ∧ (inFlow ∨ keyAllowed = false)) ∨ (ch = '\uFEFF' ∧ c.index = 0)
    then
      skipBlanks inFlow keyAllowed c.skip
    else if isBreak ch then skipBlanks inFlow (keyAllowed || !inFlow) c.skipLine
    else if ch = '#' then
      let length := (c.rest.tail.takeWhile (!isBreak ·)).length
      skipBlanks inFlow keyAllowed (c.skipMany (1 + length))
    else (keyAllowed, c)
termination_by c.rest.length
decreasing_by
  · exact Cursor.length_skip_lt _h
  · exact Cursor.length_skipLine_lt _h
  · exact Cursor.length_skipMany_lt _h (by omega)

/-! ### Tokens of one kind -/

/-- The mark between documents. -/
def documentMark (s : Scan) (t : Token) : Except Error Scan := do
  let s ← (s.unroll none).dropKey
  return { s.push t with cursor := s.cursor.skipMany 3, keyAllowed := false }

/-- A directive, on a line of its own. -/
def directive (s : Scan) : Except Error Scan := do
  let s ← (s.unroll none).dropKey
  let line := s.cursor.rest.takeWhile (!isBreak ·)
  if ["%YAML 1.1", "%YAML 1.2"].any (·.toList == line) || "%TAG ".toList.isPrefixOf line then
    return { s.push .directive with cursor := s.cursor.skipMany line.length, keyAllowed := false }
  else throw .badDirective

/-- An opening bracket. -/
def flowStart (s : Scan) (t : Token) : Except Error Scan := do
  let s ← s.saveKey
  return { s.push t with cursor := s.cursor.skip, keys := none :: s.keys, keyAllowed := true }

/-- A closing bracket. -/
def flowEnd (s : Scan) (t : Token) : Except Error Scan := do
  let s ← s.dropKey
  let keys := if s.inFlow then s.keys.tail else s.keys
  return { s.push t with cursor := s.cursor.skip, keys, keyAllowed := false }

/-- A comma. -/
def flowEntry (s : Scan) : Except Error Scan := do
  let s ← s.dropKey
  return { s.push .flowEntry with cursor := s.cursor.skip, keyAllowed := true }

/-- A hyphen before an entry. -/
def blockEntry (s : Scan) : Except Error Scan := do
  if s.inFlow = false ∧ s.keyAllowed = false then throw .misplacedEntry
  let s ← (s.roll s.cursor.column s.tokens.length .sequenceStart).dropKey
  return { s.push .blockEntry with cursor := s.cursor.skip, keyAllowed := true }

/-- A question mark before a key. -/
def keyMark (s : Scan) : Except Error Scan := do
  if s.inFlow = false ∧ s.keyAllowed = false then throw .misplacedKey
  let s ← (s.roll s.cursor.column s.tokens.length .mappingStart).dropKey
  return { s.push .key with cursor := s.cursor.skip, keyAllowed := !s.inFlow }

/-- A colon before a value. -/
def valueMark (s : Scan) : Except Error Scan :=
  match s.keys with
  | some k :: keys =>
    let s := (s.insertAt k.position .key).roll k.column k.position .mappingStart
    .ok { s.push .value with cursor := s.cursor.skip, keys := none :: keys, keyAllowed := false }
  | _ =>
    if s.inFlow = false ∧ s.keyAllowed = false then .error .misplacedValue
    else
      let s := s.roll s.cursor.column s.tokens.length .mappingStart
      .ok { s.push .value with cursor := s.cursor.skip, keyAllowed := !s.inFlow }

/-- A character of the name of an anchor. -/
def isAnchorChar (c : Char) : Bool :=
  c.isAlphanum || c == '_' || c == '-'

/-- The mark of an anchor or an alias with its name. -/
def anchor (s : Scan) (t : List Char → Token) : Except Error Scan := do
  let s ← s.saveKey
  let name := s.cursor.rest.tail.takeWhile isAnchorChar
  let c := s.cursor.skipMany (1 + name.length)
  let ends := c.blankAt 0 || c.rest.head?.any fun d => "?:,]\x7d%@`".toList.contains d
  if name.isEmpty || !ends then throw .badAnchor
  else return { s.push (t name) with cursor := c, keyAllowed := false }

/-- A character of a tag. -/
def isTagChar (c : Char) : Bool :=
  c.isAlphanum || "-_;/?:@&=+$.!~*'()%<>#[]".toList.contains c

/-- A tag. Its handle is empty or a second exclamation mark; others are unknown. -/
def tag (s : Scan) : Except Error Scan := do
  let s ← s.saveKey
  let text := s.cursor.rest.takeWhile fun d => isTagChar d || (d == ',' && !s.inFlow)
  let c := s.cursor.skipMany text.length
  let marks := (text.tail.dropWhile (· == '!')).count '!'
  if marks = 0 ∧ (c.blankAt 0 ∨ (s.inFlow ∧ c.rest.head? = some ',')) then
    return { s.push (.tag text) with cursor := c, keyAllowed := false }
  else throw .badTag

/-- A block scalar. -/
def block (s : Scan) (folded : Bool) : Except Error Scan := do
  let s ← s.dropKey
  let content ← readBlock folded s.blocks.head? s.cursor.skip
  return { s.push (.scalar content.text false) with cursor := content.cursor, keyAllowed := true }

/-- A quoted scalar. -/
def quoted (s : Scan) (mark : Char) : Except Error Scan := do
  let s ← s.saveKey
  let content ← quotedFrom mark [] (.blanks []) s.cursor.skip
  return { s.push (.scalar content.text false) with cursor := content.cursor, keyAllowed := false }

/-- A plain scalar. -/
def plain (s : Scan) : Except Error Scan := do
  let s ← s.saveKey
  let indent := match s.blocks.head? with
    | some n => n + 1
    | none => 0
  let content ← plainFrom s.inFlow indent [] (.blanks []) false s.cursor
  return { s.push (.scalar content.text true) with
    cursor := content.cursor, keyAllowed := content.newLine }

/-- Whether a plain scalar may begin with `ch`. -/
def startsPlain (s : Scan) (ch : Char) : Bool :=
  let next := s.cursor.rest[1]?
  !(isBlankOrEnd (some ch) || isLeadingIndicator ch || ch == '-' || ch == '?' || ch == ':')
    || (ch == '-' && !next.all Cursor.isSpacing)
    || (!s.inFlow && (ch == '?' || ch == ':') && !s.cursor.blankAt 1)

/-! ### The scan -/

/-- Reads the token that begins with `ch`. -/
def readToken (s : Scan) (ch : Char) : Except Error Scan :=
  if s.cursor.column = 0 ∧ ch = '%' then s.directive
  else if s.cursor.atMark '-' then s.documentMark .documentStart
  else if s.cursor.atMark '.' then s.documentMark .documentEnd
  else if ch = '[' then s.flowStart .flowSequenceStart
  else if ch = '\x7b' then s.flowStart .flowMappingStart
  else if ch = ']' then s.flowEnd .flowSequenceEnd
  else if ch = '\x7d' then s.flowEnd .flowMappingEnd
  else if ch = ',' then s.flowEntry
  else if ch = '-' ∧ s.cursor.blankAt 1 then s.blockEntry
  else if ch = '?' ∧ (s.inFlow ∨ s.cursor.blankAt 1) then s.keyMark
  else if ch = ':' ∧ (s.inFlow ∨ s.cursor.blankAt 1) then s.valueMark
  else if ch = '*' then s.anchor .alias
  else if ch = '&' then s.anchor .anchor
  else if ch = '!' then s.tag
  else if (ch = '|' ∨ ch = '>') ∧ s.inFlow = false then s.block (ch = '>')
  else if ch = '"' ∨ ch = '\'' then s.quoted ch
  else if s.startsPlain ch then s.plain
  else .error .noToken

/-- Reads the tokens that are left. Each takes at least one character, so that the length of the
text is fuel enough. -/
def run : (fuel : Nat) → Scan → Except Error (List Token)
  | 0, _ => .error .endOfText
  | fuel + 1, s => do
    let (keyAllowed, cursor) := skipBlanks s.inFlow s.keyAllowed s.cursor
    let s ← { s with keyAllowed, cursor }.dropStale
    match s.cursor.rest with
    | [] =>
      let s ← (s.unroll none).dropKey
      return s.tokens.reverse
    | ch :: _ => run fuel (← (s.unroll (some s.cursor.column)).readToken ch)

end Scan

/-- A character that may stand in a text. -/
def isAllowed (c : Char) : Bool :=
  let n := c.toNat
  n == 0x09 || n == 0x0A || n == 0x0D || (0x20 ≤ n && n ≤ 0x7E) || n == 0x85
    || (0xA0 ≤ n && n ≤ 0xFFFD) || 0x10000 ≤ n

/-- The tokens of a text. -/
def tokens (text : List Char) : Except Error (List Token) :=
  if text.all isAllowed then Scan.run (text.length + 1) { cursor := { rest := text } }
  else .error .control

end Scriptorium.Yaml
