/-
Where a quoted string ends.

A string may be a template: braces in it open holes for expressions, in which strings may begin
again, and a colon in a hole begins its layout. What is open is kept in a list of levels, the
innermost first; the string ends when none is left.
-/

import Scriptorium.Text.NamePart

namespace Scriptorium.Script

/-! ### How a string begins -/

/-- How a string is written. -/
structure Quotation where
  mark : Char
  triple : Bool
  raw : Bool
  template : Bool
deriving DecidableEq, Repr

/-- A mark that begins and ends a string. -/
def isMark (c : Char) : Bool :=
  c == '"' || c == '\'' || c == '\x60'

/-- A letter that may stand in front of a string and say how it is to be read. -/
def isFlag (c : Char) : Bool :=
  c.toLower ∈ ['r', 'b', 'u', 'f', 't']

/-- The quotation that begins a text behind some flags, and how long its mark is. -/
def quotation? (flags : List Char) : List Char → Option (Quotation × Nat)
  | [] => none
  | c :: s =>
    if isMark c then
      let triple := c != '\x60' && s.take 2 == [c, c]
      let raw := flags.any (·.toLower == 'r')
      let template := flags.any fun d => d.toLower == 'f' || d.toLower == 't'
      some (⟨c, triple, raw, template⟩, if triple then 3 else 1)
    else none

/-! ### Levels -/

/-- Something that is open inside a string. -/
inductive Level where
  | text (q : Quotation)
  /-- An expression, with the number of brackets open in it and the name just read, reversed. -/
  | hole (depth : Nat) (name : List Char)
  | layout
deriving DecidableEq, Repr

/-- The number of characters that belong to the backslash before them. -/
def escapeLength (q : Quotation) : List Char → Nat
  | [] => 0
  | '\r' :: '\n' :: _ => 2
  | 'N' :: '\x7b' :: s =>
    if q.template && !q.raw then 3 + (s.takeWhile fun c => c != '\x7d' && c != '\n').length else 1
  | c :: _ => if q.template && (c == '\x7b' || c == '\x7d') then 0 else 1

/-- What a character in the text of a string does: the levels that are open then, and how many
more characters it takes. A line end breaks a string off, unless its marks are triple. -/
def Quotation.turn (q : Quotation) (outer : List Level) (c : Char) (s : List Char) :
    Option (List Level × Nat) :=
  if c = '\\' then some (.text q :: outer, escapeLength q s)
  else if c = q.mark then
    if q.triple then
      if s.take 2 = [c, c] then some (outer, 2) else some (.text q :: outer, 0)
    else some (outer, 0)
  else if c = '\n' ∧ q.triple = false then none
  else if q.template ∧ (c = '\x7b' ∨ c = '\x7d') then
    if s.head? = some c then some (.text q :: outer, 1)
    else if c = '\x7b' then some (.hole 0 [] :: .text q :: outer, 0)
    else some (.text q :: outer, 0)
  else some (.text q :: outer, 0)

/-- What a character in a hole does. -/
def holeTurn (depth : Nat) (name : List Char) (outer : List Level) (c : Char) (s : List Char) :
    List Level × Nat :=
  match quotation? (if name.all isFlag then name else []) (c :: s) with
  | some (q, n) => (.text q :: .hole depth [] :: outer, n - 1)
  | none =>
    if c ∈ ['(', '[', '\x7b'] then (.hole (depth + 1) [] :: outer, 0)
    else if c = '\x7d' ∧ depth = 0 then (outer, 0)
    else if c ∈ [')', ']', '\x7d'] then (.hole (depth - 1) [] :: outer, 0)
    else if c = ':' ∧ depth = 0 ∧ s.head? ≠ some '=' then (.layout :: outer, 0)
    else (.hole depth (if Text.isNamePart c then c :: name else []) :: outer, 0)

/-- What a character does at the innermost level. -/
def Level.turn (level : Level) (outer : List Level) (c : Char) (s : List Char) :
    Option (List Level × Nat) :=
  match level with
  | .text q => q.turn outer c s
  | .hole depth name => some (holeTurn depth name outer c s)
  | .layout =>
    if c = '\x7b' then some (.hole 0 [] :: .layout :: outer, 0)
    else if c = '\x7d' then some (outer, 0)
    else some (.layout :: outer, 0)

/-! ### How long a string is -/

/-- The number of characters up to where all levels have ended, added to `done`. -/
def lengthFrom (levels : List Level) (done : Nat) (s : List Char) : Option Nat :=
  match levels, s with
  | [], _ => some done
  | _ :: _, [] => none
  | level :: outer, c :: s =>
    match level.turn outer c s with
    | none => none
    | some (levels, n) => lengthFrom levels (done + 1 + n) (s.drop n)
termination_by s.length
decreasing_by simp only [List.length_drop, List.length_cons]; omega

/-- The length of a string whose mark, `n` characters long, begins the text `s`. -/
def Quotation.length? (q : Quotation) (n : Nat) (s : List Char) : Option Nat :=
  lengthFrom [.text q] n (s.drop n)

end Scriptorium.Script
