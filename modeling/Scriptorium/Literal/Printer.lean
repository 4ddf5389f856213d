/-
The source form of a literal, in one line.

Displays have one space behind commas and colons. A string is quoted with double quotation marks
only where that spares an escape. What no literal denotes is written as a call, and so is the
empty set.
-/

import Scriptorium.Decimal.Layout
import Scriptorium.Decimal.Shortest
import Scriptorium.Literal.Basic
import Scriptorium.Text.Digit

namespace Scriptorium.Literal

/-! ### Numbers -/

/-- Floating-point numbers are positional from `0.0001` to below `10 ^ 16`; other exponents have
a sign and at least two digits. -/
def floatLayout : Decimal.Layout := ⟨-4, 16, true, 2⟩

/-- A sign before the text of a negative number. -/
def signed (negative : Bool) (text : List Char) : List Char :=
  if negative then '-' :: text else text

/-- A floating-point number with the fewest digits that read back. -/
def renderFloat (x : Binary64) : List Char :=
  if x.isNaN then "float('nan')".toList
  else if x.isInfinite then signed x.negative "float('inf')".toList
  else signed x.negative ((x.shortest .up).text floatLayout)

/-- An integer in decimal digits. -/
def renderInt (n : Int64) : List Char :=
  signed (n.toInt < 0) (Nat.toDigits 10 n.toInt.natAbs)

/-! ### Strings -/

/-- The quotation mark for a string: double ones if that spares an escape. -/
def quoteFor (s : List Char) : Char :=
  if '\'' ∈ s ∧ '"' ∉ s then '"' else '\''

/-- A character inside quotation marks. -/
def escapeChar (quote c : Char) : List Char :=
  if c = '\\' then ['\\', '\\']
  else if c = '\n' then ['\\', 'n']
  else if c = '\r' then ['\\', 'r']
  else if c = '\t' then ['\\', 't']
  else if c = quote then ['\\', c]
  else if c.toNat < 0x20 ∨ c.toNat = 0x7F then '\\' :: 'x' :: Text.hexByte c.toNat
  else [c]

/-- A string in quotation marks. -/
def renderStr (s : List Char) : List Char :=
  let quote := quoteFor s
  quote :: (s.flatMap (escapeChar quote) ++ [quote])

/-! ### Displays -/

/-- Texts with a comma and a space between neighbours. -/
def commas (texts : List (List Char)) : List Char :=
  [',', ' '].intercalate texts

mutual

/-- The source form of a literal. -/
def render : Literal → List Char
  | null => "None".toList
  | bool true => "True".toList
  | bool false => "False".toList
  | int n => renderInt n
  | float x => renderFloat x
  | str s => renderStr s.toList
  | list items => '[' :: (commas (renderItems items) ++ [']'])
  | tuple [item] => '(' :: (render item ++ [',', ')'])
  | tuple items => '(' :: (commas (renderItems items) ++ [')'])
  | set [] => "set()".toList
  | set items => '\x7b' :: (commas (renderItems items) ++ ['\x7d'])
  | dict pairs => '\x7b' :: (commas (renderPairs pairs) ++ ['\x7d'])

/-- The source forms of the items of a display. -/
def renderItems : List Literal → List (List Char)
  | [] => []
  | item :: items => render item :: renderItems items

/-- The source forms of the pairs of a dictionary. -/
def renderPairs : List (Literal × Literal) → List (List Char)
  | [] => []
  | (key, value) :: pairs => (render key ++ ':' :: ' ' :: render value) :: renderPairs pairs

end

/-- The source form of a literal as a string. -/
def text (v : Literal) : String :=
  String.ofList v.render

end Scriptorium.Literal
