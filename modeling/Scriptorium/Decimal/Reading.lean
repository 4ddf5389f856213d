/-
Decimals as they are written: digits with an optional point, and an optional power of ten.

At least one digit stands before or after the point, and at least one in an exponent.
-/

import Scriptorium.Decimal.Basic
import Scriptorium.Text.Digit

namespace Scriptorium

namespace Decimal

/-- The digits at the beginning of a text, and what follows. -/
def digitRun (s : List Char) : List Char × List Char :=
  (s.takeWhile Char.isDigit, s.dropWhile Char.isDigit)

/-- The digits after a point, if the text begins with one, and what follows. -/
def fractionRun : List Char → List Char × List Char
  | '.' :: s => digitRun s
  | s => ([], s)

/-- The value of an exponent of decimal digits with an optional sign. -/
def exponentValue? (s : List Char) : Option Int :=
  let (negative, digits) := match s with
    | '-' :: digits => (true, digits)
    | '+' :: digits => (false, digits)
    | digits => (false, digits)
  if digits.isEmpty || !digits.all Char.isDigit then none
  else
    let n : Int := Text.ofDigits 10 digits
    some (if negative then -n else n)

/-- The exponent that ends a text: nothing, or a mark and a number. -/
def ending? : List Char → Option Int
  | [] => some 0
  | c :: s => if c = 'e' ∨ c = 'E' then exponentValue? s else none

/-- Reads a decimal without a sign. -/
def ofChars? (s : List Char) : Option Decimal :=
  let (whole, rest) := digitRun s
  let (fraction, rest) := fractionRun rest
  if whole.isEmpty && fraction.isEmpty then none
  else (ending? rest).map fun e =>
    ⟨Text.ofDigits 10 (whole ++ fraction), e - fraction.length⟩

end Decimal

end Scriptorium
