/-
The documentation of a function, cleaned of its indentation.

The first line is trimmed. From each other line as many bytes are cut as the least indented of
them has blank bytes at its beginning; a line that cannot be cut there is left empty. Empty lines
at both ends are dropped.
-/

import Scriptorium.Text.Blank
import Scriptorium.Text.Line

namespace Scriptorium.Command

/-- The text behind its first `n` bytes, if a character begins there. -/
def dropBytes? (n : Nat) : List Char → Option (List Char)
  | [] => if n = 0 then some [] else none
  | c :: s =>
    if n = 0 then some (c :: s)
    else if c.utf8Size ≤ n then dropBytes? (n - c.utf8Size) s
    else none

/-- The number of blank bytes at the beginning of a line. -/
def indentBytes (line : List Char) : Nat :=
  Text.byteSize (line.takeWhile Text.isBlank)

/-- The least indentation of the lines that are not blank. -/
def commonIndent (lines : List (List Char)) : Nat :=
  ((lines.filter fun line => !(Text.trim line).isEmpty).map indentBytes).min?.getD 0

/-- A line without the common indentation and without blanks at its end. -/
def unindent (indent : Nat) (line : List Char) : List Char :=
  Text.trimRight ((dropBytes? indent line).getD [])

/-- Drops the empty lines at both ends. -/
def dropEmptyEnds (lines : List (List Char)) : List (List Char) :=
  ((lines.dropWhile List.isEmpty).reverse.dropWhile List.isEmpty).reverse

/-- The lines of a documentation, cleaned. -/
def cleanLines : List (List Char) → List (List Char)
  | [] => []
  | first :: rest => dropEmptyEnds (Text.trim first :: rest.map (unindent (commonIndent rest)))

/-- The cleaned text of a documentation. -/
def cleanDocstring (s : List Char) : List Char :=
  ['\n'].intercalate (cleanLines (Text.lines s))

end Scriptorium.Command
