/-
White space: the Unicode property White_Space, and the cuts made at it.

`trim` drops blanks at both ends, `words` splits at runs of blanks. What they return holds no
blank at its ends, or none at all.
-/

import Scriptorium.Text.CodePoint

namespace Scriptorium.Text

/-! ### The property -/

/-- The code points with the property White_Space. -/
def blankRanges : List (Nat × Nat) :=
  [(0x09, 0x0D), (0x20, 0x20), (0x85, 0x85), (0xA0, 0xA0), (0x1680, 0x1680), (0x2000, 0x200A),
   (0x2028, 0x2029), (0x202F, 0x202F), (0x205F, 0x205F), (0x3000, 0x3000)]

/-- A white-space character of any script. -/
def isBlank (c : Char) : Bool :=
  inRanges blankRanges c.toNat

/-! ### Cutting at the ends -/

/-- Drops, at the right end, all characters that satisfy `p`. -/
def dropRightWhile (p : Char → Bool) (s : List Char) : List Char :=
  (s.reverse.dropWhile p).reverse

/-- Drops, at both ends, all characters that satisfy `p`. -/
def trimWhile (p : Char → Bool) (s : List Char) : List Char :=
  dropRightWhile p (s.dropWhile p)

/-- Drops the blanks at the left end. -/
def trimLeft (s : List Char) : List Char :=
  s.dropWhile isBlank

/-- Drops the blanks at the right end. -/
def trimRight (s : List Char) : List Char :=
  dropRightWhile isBlank s

/-- Drops the blanks at both ends. -/
def trim (s : List Char) : List Char :=
  trimWhile isBlank s

/-- Drops the blanks at both ends of a string. -/
def trimmed (s : String) : String :=
  String.ofList (trim s.toList)

@[simp] theorem toList_trimmed (s : String) : (trimmed s).toList = trim s.toList := by
  simp [trimmed]

/-! ### Words -/

/-- Splits at runs of blanks; `word` is the word read so far, reversed. -/
def wordsFrom (word : List Char) : List Char → List (List Char)
  | [] => if word.isEmpty then [] else [word.reverse]
  | c :: s =>
    if isBlank c then
      if word.isEmpty then wordsFrom [] s else word.reverse :: wordsFrom [] s
    else wordsFrom (c :: word) s

/-- The maximal runs of characters that are not blank. -/
def words (s : List Char) : List (List Char) :=
  wordsFrom [] s

/-- The words of a text with one space between neighbours. -/
def collapse (s : List Char) : List Char :=
  [' '].intercalate (words s)

end Scriptorium.Text
