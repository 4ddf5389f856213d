/-
Why a text is not a literal.

While reading, a fault keeps the text that is left; its offset in bytes follows from the whole
source, so that no reader has to count.
-/

import Scriptorium.Literal.Basic
import Scriptorium.Text.CodePoint

namespace Scriptorium.Literal

/-- Why a text is not a literal. Offsets count bytes of UTF-8. -/
inductive Error where
  | unexpectedEnd
  | unexpectedChar (c : Char) (offset : Nat)
  | notALiteral (word : String)
  | invalidNumber (text : String)
  | integerOverflow (text : String)
  | unterminatedString
  | unsupportedPrefix (text : String)
  | trailingInput (offset : Nat)
  | notAScalarList (text : String)
deriving DecidableEq, Repr

/-- The message of an error. -/
def Error.message : Error → String
  | .unexpectedEnd => "unexpected end of input"
  | .unexpectedChar c offset =>
    "unexpected character '" ++ String.singleton c ++ "' at offset " ++ toString offset
  | .notALiteral word => "'" ++ word ++ "' is a name, not a literal"
  | .invalidNumber text => "invalid number literal: " ++ text
  | .integerOverflow text => "integer literal out of range: " ++ text
  | .unterminatedString => "unterminated string literal"
  | .unsupportedPrefix text => "unsupported string prefix: " ++ text
  | .trailingInput offset => "unexpected trailing input at offset " ++ toString offset
  | .notAScalarList text => "list element is not a scalar literal: " ++ text

/-! ### Faults -/

/-- Why reading stopped. -/
inductive Fault where
  /-- Nothing that may stand here begins with the text that is left. -/
  | unexpected (rest : List Char)
  | notALiteral (word : List Char)
  | invalidNumber (text : List Char)
  | integerOverflow (text : List Char)
  | unterminatedString
  | unsupportedPrefix (text : List Char)
deriving DecidableEq, Repr

/-- The offset of what is left of a source. -/
def offsetOf (source rest : List Char) : Nat :=
  Text.byteSize source - Text.byteSize rest

/-- A fault at its place in the source. -/
def Fault.locate (source : List Char) : Fault → Error
  | .unexpected [] => .unexpectedEnd
  | .unexpected (c :: rest) => .unexpectedChar c (offsetOf source (c :: rest))
  | .notALiteral word => .notALiteral (String.ofList word)
  | .invalidNumber text => .invalidNumber (String.ofList text)
  | .integerOverflow text => .integerOverflow (String.ofList text)
  | .unterminatedString => .unterminatedString
  | .unsupportedPrefix text => .unsupportedPrefix (String.ofList text)

end Scriptorium.Literal
