/-
How the entries of a manifest are shown: labels in title case, lists as bullets.
-/

import Scriptorium.Manifest.Basic
import Scriptorium.Text.Alphabetic
import Scriptorium.Text.Case
import Scriptorium.Text.Line

namespace Scriptorium.Manifest

/-- Raises the letters that follow no letter and lowers the others. -/
def titleCase (afterLetter : Bool) : List Char → List Char
  | [] => []
  | c :: s =>
    if Text.isLetter c then (if afterLetter then Text.lower c else Text.upper c) ++ titleCase true s
    else c :: titleCase false s

/-- The label of a key: words in title case, with spaces for underscores. -/
def label (key : String) : String :=
  String.ofList (titleCase false (key.toList.map fun c => if c = '_' then ' ' else c))

/-- A character as markup text. -/
def escapeMarkup (c : Char) : List Char :=
  if c = '&' then "&amp;".toList
  else if c = '<' then "&lt;".toList
  else if c = '>' then "&gt;".toList
  else [c]

/-- One item of a bullet list; an empty one is left out. -/
def bullet (item : List Char) : List Char :=
  if item.isEmpty then [] else "<li>".toList ++ item.flatMap escapeMarkup ++ "</li>".toList

/-- Items as a bullet list. -/
def bulletChars (items : List (List Char)) : List Char :=
  "<ul>".toList ++ items.flatMap bullet ++ "</ul>".toList

/-- Items as a bullet list. -/
def bulletList (items : List String) : String :=
  String.ofList (bulletChars (items.map String.toList))

/-- One row of a table of entries. -/
structure Row where
  label : String
  value : String
deriving DecidableEq, Repr

/-- The text that shows a value. -/
def Value.shown : Value → String
  | .scalar text => text
  | .list items => bulletList items

/-- The rows of a manifest: its entries, and its source if it is known. -/
def rows (m : Manifest) : List Row :=
  m.entries.toList.map (fun entry => ⟨label entry.1, entry.2.shown⟩)
    ++ m.source.toList.map (fun source => ⟨label "script_source", source⟩)

end Scriptorium.Manifest
