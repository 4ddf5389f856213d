/-
What an unquoted scalar is taken for: null, a truth value, a number, or else a string.
-/

import Scriptorium.Decimal.Reading
import Scriptorium.Decimal.Rounding
import Scriptorium.Text.Line

namespace Scriptorium.Yaml

/-! ### Words -/

/-- The words for null, other than nothing. -/
def nullWords : List (List Char) :=
  ["null", "Null", "NULL", "~"].map String.toList

/-- The words for truth values. -/
def boolWords : List (List Char) :=
  ["true", "True", "TRUE", "false", "False", "FALSE"].map String.toList

/-- The words for infinity, without a sign. -/
def infinityWords : List (List Char) :=
  [".inf", ".Inf", ".INF"].map String.toList

/-- The words for what is no number. -/
def notNumberWords : List (List Char) :=
  [".nan", ".NaN", ".NAN"].map String.toList

/-! ### Numbers -/

/-- Drops a plus sign. -/
def dropPlus : List Char → List Char
  | '+' :: s => s
  | s => s

/-- Drops a sign. -/
def dropSign : List Char → List Char
  | '+' :: s => s
  | '-' :: s => s
  | s => s

/-- Digits that begin with a zero which is not the whole number; they are no number. -/
def isPadded (s : List Char) : Bool :=
  match dropSign s with
  | '0' :: c :: digits => (c :: digits).all Char.isDigit
  | _ => false

/-- Whether the digits of a base denote a number up to a greatest one. -/
def isInBase (base greatest : Nat) (digits : List Char) : Bool :=
  !digits.isEmpty && digits.all (Text.isDigitOf base) && Text.ofDigits base digits ≤ greatest

/-- Whether digits with the mark of a base denote a number up to a greatest one. -/
def isMarkedInteger (greatest : Nat) : List Char → Bool
  | '0' :: 'x' :: digits => isInBase 16 greatest digits
  | '0' :: 'o' :: digits => isInBase 8 greatest digits
  | '0' :: 'b' :: digits => isInBase 2 greatest digits
  | _ => false

/-- The greatest magnitude of a negative integer of 128 bits. -/
def negativeBound : Nat := 0x80000000000000000000000000000000

/-- The greatest integer of 128 bits. -/
def positiveBound : Nat := 0xFFFFFFFFFFFFFFFFFFFFFFFFFFFFFFFF

/-- Whether a scalar is an integer of at most 128 bits; it may have a sign. -/
def isInteger (s : List Char) : Bool :=
  match s with
  | '-' :: digits =>
    isMarkedInteger negativeBound digits || (!isPadded s && isInBase 10 negativeBound digits)
  | _ =>
    let digits := dropPlus s
    isMarkedInteger positiveBound digits
      || (!isPadded digits && isInBase 10 positiveBound digits)

/-- Whether a text is a finite decimal number; it may have a sign. -/
def isFiniteDecimal (s : List Char) : Bool :=
  match Decimal.ofChars? (dropSign s) with
  | some d => (d.toBinary64 false).isFinite
  | none => false

/-- Whether a scalar is a floating-point number. -/
def isFloat (s : List Char) : Bool :=
  let unsigned := dropPlus s
  let signedTwice := unsigned.length < s.length && (dropSign unsigned).length < unsigned.length
  !signedTwice
    && (infinityWords.contains unsigned
      || (s.head? == some '-' && infinityWords.contains (s.drop 1))
      || notNumberWords.contains s
      || isFiniteDecimal unsigned)

/-- Whether an unquoted scalar is taken for something else than the string it holds, or holds
digits that could be mistaken for a number. -/
def isMistakable (s : List Char) : Bool :=
  s.isEmpty || nullWords.contains s || boolWords.contains s || isInteger s || isPadded s
    || isFloat s

end Scriptorium.Yaml
