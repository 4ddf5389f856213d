/-
Writing data trees as JSON, on one line or indented by two spaces.

Infinite numbers are written as null. An empty container has nothing between its brackets in
either form.
-/

import Scriptorium.Data.Basic
import Scriptorium.Decimal.Layout
import Scriptorium.Decimal.Shortest
import Scriptorium.Text.Digit

namespace Scriptorium.Json

/-! ### Scalars -/

/-- Numbers are positional from `0.00001` to below `10 ^ 16`; other exponents have a sign. -/
def floatLayout : Decimal.Layout := ⟨-5, 16, true, 1⟩

/-- A floating-point number with the fewest digits that read back. -/
def floatText (x : Binary64) : List Char :=
  if x.isFinite then
    (if x.negative then ['-'] else []) ++ (x.shortest .toEven).text floatLayout
  else "null".toList

/-- An integer in decimal digits. -/
def intText (n : Int) : List Char :=
  (if n < 0 then ['-'] else []) ++ Nat.toDigits 10 n.natAbs

/-- A character inside a string. -/
def escapeChar (c : Char) : List Char :=
  if c = '"' then ['\\', '"']
  else if c = '\\' then ['\\', '\\']
  else if c = '\n' then ['\\', 'n']
  else if c = '\r' then ['\\', 'r']
  else if c = '\t' then ['\\', 't']
  else if c = '\x08' then ['\\', 'b']
  else if c = '\x0c' then ['\\', 'f']
  else if c.toNat < 0x20 then "\\u00".toList ++ Text.hexByte c.toNat
  else [c]

/-- A string in quotation marks. -/
def strText (s : String) : List Char :=
  '"' :: (s.toList.flatMap escapeChar ++ ['"'])

/-! ### Containers -/

/-- How the parts of a container are set apart, by its depth. -/
structure Style where
  /-- What stands before each part. -/
  lead : Nat → List Char
  /-- What stands between a key and its value. -/
  colon : List Char

/-- Everything on one line, without blanks. -/
def compactStyle : Style := ⟨fun _ => [], [':']⟩

/-- One part on a line, indented by two spaces for each level. -/
def prettyStyle : Style := ⟨fun depth => '\n' :: List.replicate (2 * depth) ' ', [':', ' ']⟩

/-- The parts of a container between its brackets. -/
def enclose (style : Style) (depth : Nat) (opening closing : Char) (parts : List (List Char)) :
    List Char :=
  if parts.isEmpty then [opening, closing]
  else
    opening :: ([','].intercalate (parts.map (style.lead (depth + 1) ++ ·))
      ++ style.lead depth ++ [closing])

mutual

/-- The text of a tree at a depth. -/
def write (style : Style) (depth : Nat) : Data → List Char
  | .null => "null".toList
  | .bool true => "true".toList
  | .bool false => "false".toList
  | .int n => intText n
  | .float x => floatText x
  | .str s => strText s
  | .seq items => enclose style depth '[' ']' (writeItems style (depth + 1) items)
  | .map entries => enclose style depth '\x7b' '\x7d' (writeEntries style (depth + 1) entries)

/-- The texts of the items of a sequence. -/
def writeItems (style : Style) (depth : Nat) : List Data → List (List Char)
  | [] => []
  | item :: items => write style depth item :: writeItems style depth items

/-- The texts of the entries of a map. -/
def writeEntries (style : Style) (depth : Nat) : List (String × Data) → List (List Char)
  | [] => []
  | (key, value) :: entries =>
    (strText key ++ style.colon ++ write style depth value) :: writeEntries style depth entries

end

/-- The text of a tree on one line. -/
def compact (d : Data) : String :=
  String.ofList (write compactStyle 0 d)

/-- The text of a tree, indented. -/
def pretty (d : Data) : String :=
  String.ofList (write prettyStyle 0 d)

end Scriptorium.Json
