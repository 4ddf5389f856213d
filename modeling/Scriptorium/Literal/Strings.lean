/-
Lists of strings written as literals.

Strings keep their content and other scalars are taken in their source form; displays inside the
list are refused.
-/

import Scriptorium.Literal.Printer
import Scriptorium.Literal.Reader

namespace Scriptorium.Literal

/-- The text of an item of a list of strings. -/
def itemText : Literal → Except Error String
  | str s => .ok s
  | v => if v.isScalar then .ok v.text else .error (.notAScalarList v.text)

/-- The strings of a list or a tuple. -/
def strings : Literal → Except Error (List String)
  | list items | tuple items => items.mapM itemText
  | v => .error (.notAScalarList v.text)

/-- Reads a source that holds a list of scalars. -/
def parseStrings (source : String) : Except Error (List String) :=
  parse source >>= strings

end Scriptorium.Literal
