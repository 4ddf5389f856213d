/-
The text of an annotation on one line.

Runs of blanks become single spaces, and none is left right behind an opening bracket or right
before a closing one or a comma. What is a string in the annotation is not told apart.
-/

import Scriptorium.Text.Blank

namespace Scriptorium.Command

/-- A bracket behind which no space is left. -/
def isOpener (c : Char) : Bool :=
  c == '[' || c == '('

/-- A character before which no space is left. -/
def isCloser (c : Char) : Bool :=
  c == ']' || c == ')' || c == ','

/-- Drops the spaces behind openers and before closers; `last` is the character kept last. -/
def tightenFrom (last : Option Char) : List Char → List Char
  | [] => []
  | c :: s =>
    if c = ' ' ∧ (last.any isOpener ∨ s.head?.any isCloser) then tightenFrom last s
    else c :: tightenFrom (some c) s

/-- Drops the spaces behind openers and before closers. -/
def tighten (s : List Char) : List Char :=
  tightenFrom none s

/-- The text of an annotation on one line. -/
def typeText (s : List Char) : List Char :=
  tighten (Text.collapse s)

end Scriptorium.Command
