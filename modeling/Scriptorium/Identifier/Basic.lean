/-
Identifiers: lower-case ASCII letters, digits and underscores, with no digit in front.

`sanitize` makes one out of any text. It lowers the letters of all scripts first, so that a
letter whose small form lies in ASCII is kept.
-/

import Scriptorium.Text.Case

namespace Scriptorium.Identifier

/-- A character of an identifier: an ASCII letter or digit, or an underscore. -/
def isPart (c : Char) : Bool :=
  c.isAlphanum || c == '_'

/-- Sets an underscore before a leading digit. -/
def guardDigit : List Char → List Char
  | [] => []
  | c :: s => if c.isDigit then '_' :: c :: s else c :: s

/-- The identifier of a text: small letters, underscores for spaces, nothing else. -/
def sanitizeChars (s : List Char) : List Char :=
  guardDigit (((s.flatMap Text.lower).map fun c => if c = ' ' then '_' else c).filter isPart)

/-- The identifier of a text. -/
def sanitize (s : String) : String :=
  String.ofList (sanitizeChars s.toList)

/-- The name of the wrapper for one function of one script. -/
def wrapperName (script function : String) : String :=
  sanitize (script ++ "_" ++ function)

end Scriptorium.Identifier
