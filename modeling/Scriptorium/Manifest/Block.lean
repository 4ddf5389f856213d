/-
The block of a manifest: the text between the first opening line and the mark that closes it.

The opening mark has a line end directly behind it; the closing mark may stand anywhere.
-/

import Scriptorium.Text.Line

namespace Scriptorium.Manifest

/-- The mark that opens a block. -/
def openingMark : List Char := "# /// script".toList

/-- The mark that closes a block. -/
def closingMark : List Char := "# ///".toList

/-- What follows a line end. -/
def dropLineEnd? : List Char → Option (List Char)
  | '\n' :: s => some s
  | '\r' :: '\n' :: s => some s
  | _ => none

/-- What follows an opening line, if the text begins with one. -/
def dropOpening? (s : List Char) : Option (List Char) :=
  (Text.dropStart? openingMark s).bind dropLineEnd?

/-- What follows the first opening line. -/
def afterOpening? : List Char → Option (List Char)
  | [] => dropOpening? []
  | c :: s => (dropOpening? (c :: s)).or (afterOpening? s)

/-- What stands before the first occurrence of a mark. -/
def before? (mark : List Char) : List Char → Option (List Char)
  | [] => if mark.isPrefixOf [] then some [] else none
  | c :: s => if mark.isPrefixOf (c :: s) then some [] else (before? mark s).map (c :: ·)

/-- The text of the block. -/
def block? (text : List Char) : Option (List Char) :=
  (afterOpening? text).bind (before? closingMark)

/-- The text of the block of a script. -/
def blockText? (text : String) : Option String :=
  (block? text.toList).map String.ofList

end Scriptorium.Manifest
