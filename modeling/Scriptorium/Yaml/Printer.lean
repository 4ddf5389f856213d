/-
Writing data trees as YAML in block style.

Maps are indented by two spaces below their key, sequences not at all. A key that is longer than
128 bytes, or has more than one line, stands behind a question mark.
-/

import Scriptorium.Data.Basic
import Scriptorium.Decimal.Layout
import Scriptorium.Decimal.Shortest
import Scriptorium.Text.CodePoint
import Scriptorium.Yaml.Scalar

namespace Scriptorium.Yaml

/-! ### Scalars -/

/-- Numbers are positional from `0.00001` to below `10 ^ 16`. -/
def floatLayout : Decimal.Layout := ⟨-5, 16, false, 1⟩

/-- A floating-point number with the fewest digits that read back. -/
def floatText (x : Binary64) : List Char :=
  let sign := if x.negative then ['-'] else []
  if x.isNaN then ".nan".toList
  else if x.isInfinite then sign ++ ".inf".toList
  else sign ++ (x.shortest .toEven).text floatLayout

/-- An integer in decimal digits. -/
def intText (n : Int) : List Char :=
  (if n < 0 then ['-'] else []) ++ Nat.toDigits 10 n.natAbs

/-- The text of a tree without parts, or of an empty container; none for any other. -/
def flatText? (indent : Nat) : Data → Option (List Char)
  | .null => some "null".toList
  | .bool true => some "true".toList
  | .bool false => some "false".toList
  | .int n => some (intText n)
  | .float x => some (floatText x)
  | .str s => some (scalarText indent s.toList)
  | .seq [] => some ['[', ']']
  | .map [] => some ['\x7b', '\x7d']
  | .seq _ | .map _ => none

/-! ### Lines -/

/-- Ends the last line of a text, if it has not ended. -/
def endLine (s : List Char) : List Char :=
  if s.getLast?.any isBreak then s else s ++ ['\n']

/-- An indentation. -/
def spaces (n : Nat) : List Char :=
  List.replicate n ' '

/-- Parts one below the other, each made of whole lines, behind an indentation that the first one
already has. -/
def stacked (indent : Nat) (parts : List (List Char)) : List Char :=
  (spaces indent).intercalate parts

/-- Whether a key can stand on one line with its colon. -/
def isSimpleKey (key : List Char) : Bool :=
  Text.byteSize key ≤ 128 && !isMultiline key

/-! ### Trees -/

mutual

/-- A tree behind a mark in the column `column`, to the end of its last line. -/
def afterMark (column : Nat) : Data → List Char
  | .seq (item :: items) =>
    ' ' :: stacked (column + 2) (itemLines (column + 2) (item :: items))
  | .map (entry :: entries) =>
    ' ' :: stacked (column + 2) (entryLines (column + 2) (entry :: entries))
  | d => ' ' :: endLine ((flatText? (column + 2) d).getD [])

/-- A tree behind a simple key in the column `column`, to the end of its last line. -/
def afterKey (column : Nat) : Data → List Char
  | .seq (item :: items) =>
    '\n' :: (spaces column ++ stacked column (itemLines column (item :: items)))
  | .map (entry :: entries) =>
    '\n' :: (spaces (column + 2) ++
      stacked (column + 2) (entryLines (column + 2) (entry :: entries)))
  | d => ' ' :: endLine ((flatText? (column + 2) d).getD [])

/-- The items of a sequence in the column `column`, without the indentation of their first
lines. -/
def itemLines (column : Nat) : List Data → List (List Char)
  | [] => []
  | item :: items => ('-' :: afterMark column item) :: itemLines column items

/-- The entries of a map in the column `column`, without the indentation of their first lines. -/
def entryLines (column : Nat) : List (String × Data) → List (List Char)
  | [] => []
  | (key, value) :: entries =>
    (if isSimpleKey key.toList then
      scalarText (column + 2) key.toList ++ ':' :: afterKey column value
    else
      '?' :: ' ' :: (endLine (scalarText (column + 2) key.toList) ++ spaces column
        ++ ':' :: afterMark column value)) :: entryLines column entries

end

/-- The text of a tree. -/
def write (d : Data) : List Char :=
  match d with
  | .seq (item :: items) => (itemLines 0 (item :: items)).flatten
  | .map (entry :: entries) => (entryLines 0 (entry :: entries)).flatten
  | d => endLine ((flatText? 2 d).getD [])

/-- The text of a tree. -/
def render (d : Data) : String :=
  String.ofList (write d)

end Scriptorium.Yaml
