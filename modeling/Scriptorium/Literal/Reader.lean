/-
Reading one constant literal; nothing is ever evaluated.

The reader keeps the displays that are open in a stack of frames. It either expects a value or
has just got one; each step takes at least one character, so it ends. What may close a display
and what a value in it may be followed by stands in two small tables, `Frame.closed?` and
`Frame.after`.
-/

import Scriptorium.Literal.Numeral
import Scriptorium.Literal.Quoted

namespace Scriptorium.Literal

/-! ### Values without parts -/

/-- The constant that a word names. -/
def constant? (word : List Char) : Option Literal :=
  if word = "None".toList then some .null
  else if word = "True".toList then some (.bool true)
  else if word = "False".toList then some (.bool false)
  else none

/-- The word at the beginning of a text, as a constant, and what follows. -/
def readWord (s : List Char) : Except Fault (Literal × List Char) :=
  let word := s.takeWhile Text.isWordChar
  match constant? word with
  | some v => .ok (v, s.dropWhile Text.isWordChar)
  | none => .error (.notALiteral word)

/-- A numeral behind its sign, with trivia between them. -/
def readSigned (negative : Bool) (s : List Char) : Except Fault (Literal × List Char) :=
  (readNumeral (skipTrivia s)).map fun (v, rest) => (if negative then negated v else v, rest)

/-- A number, a string or a word, and what follows. -/
def readAtom (s : List Char) : Except Fault (Literal × List Char) :=
  match s with
  | [] => .error (.unexpected [])
  | c :: rest =>
    if c = '+' ∨ c = '-' then readSigned (c = '-') rest
    else if c.isDigit || (c == '.' && rest.head?.any Char.isDigit) then readNumeral s
    else if atPiece s then
      (readPieces [] s).map fun (text, rest) => (.str (String.ofList text), rest)
    else if Text.isLetter c || c == '_' then readWord s
    else .error (.unexpected s)

theorem length_readWord_lt {s rest : List Char} {v : Literal} (h : readWord s = .ok (v, rest)) :
    rest.length < s.length := by
  simp only [readWord] at h
  split at h
  · rename_i w hword
    cases h
    have split : (s.takeWhile Text.isWordChar ++ s.dropWhile Text.isWordChar).length = s.length :=
      congrArg List.length (List.takeWhile_append_dropWhile)
    have : s.takeWhile Text.isWordChar ≠ [] := by
      intro empty
      rw [empty] at hword
      cases hword
    have := List.length_pos_iff.mpr this
    rw [List.length_append] at split
    omega
  · cases h

theorem length_readAtom_lt {s rest : List Char} {v : Literal} (h : readAtom s = .ok (v, rest)) :
    rest.length < s.length := by
  cases s with
  | nil => cases h
  | cons c s =>
    simp only [readAtom] at h
    split at h
    · simp only [readSigned] at h
      cases hvalue : readNumeral (skipTrivia s) with
      | error fault => simp [hvalue, Except.map] at h
      | ok found =>
        simp only [hvalue, Except.map, Except.ok.injEq, Prod.mk.injEq] at h
        obtain ⟨_, rfl⟩ := h
        have := length_readNumeral_lt hvalue
        have := length_skipTrivia_le s
        simp only [List.length_cons]
        omega
    split at h
    · exact length_readNumeral_lt h
    split at h
    · cases hvalue : readPieces [] (c :: s) with
      | error fault => simp [hvalue, Except.map] at h
      | ok found =>
        simp only [hvalue, Except.map, Except.ok.injEq, Prod.mk.injEq] at h
        obtain ⟨_, rfl⟩ := h
        exact length_readPieces_lt hvalue
    split at h
    · exact length_readWord_lt h
    · cases h

/-! ### Open displays -/

/-- A display that is open, with what has been read of it, the last item first. -/
inductive Frame where
  | list (items : List Literal)
  /-- An opening parenthesis that may turn out to group one value or to begin a tuple. -/
  | group
  | tuple (items : List Literal)
  /-- An opening brace that may turn out to begin a set or a dictionary. -/
  | brace
  | set (items : List Literal)
  /-- A dictionary whose next key is expected. -/
  | dictKey (pairs : List (Literal × Literal))
  /-- A dictionary with a key whose value is expected. -/
  | dictValue (key : Literal) (pairs : List (Literal × Literal))

/-- The display that begins with `c`. -/
def Frame.opened? (c : Char) : Option Frame :=
  match c with
  | '[' => some (.list [])
  | '(' => some .group
  | '\x7b' => some .brace
  | _ => none

/-- The value of a display that `c` closes where a value could stand. -/
def Frame.closed? (c : Char) : Frame → Option Literal
  | .list items => if c = ']' then some (.list items.reverse) else none
  | .group => if c = ')' then some (.tuple []) else none
  | .tuple items => if c = ')' then some (.tuple items.reverse) else none
  | .brace => if c = '\x7d' then some (.dict []) else none
  | .set items => if c = '\x7d' then some (.set items.reverse) else none
  | .dictKey pairs => if c = '\x7d' ∧ pairs ≠ [] then some (.dict pairs.reverse) else none
  | .dictValue _ _ => none

/-- What a character behind a value in a display does. -/
inductive Turn where
  | close (v : Literal)
  | next (frame : Frame)
  | refuse

/-- The turn of a display that has just got the value `v` and meets `c`. -/
def Frame.after (v : Literal) (c : Char) : Frame → Turn
  | .list items =>
    if c = ',' then .next (.list (v :: items))
    else if c = ']' then .close (.list (v :: items).reverse)
    else .refuse
  | .group =>
    if c = ',' then .next (.tuple [v]) else if c = ')' then .close v else .refuse
  | .tuple items =>
    if c = ',' then .next (.tuple (v :: items))
    else if c = ')' then .close (.tuple (v :: items).reverse)
    else .refuse
  | .brace =>
    if c = ':' then .next (.dictValue v [])
    else if c = ',' then .next (.set [v])
    else if c = '\x7d' then .close (.set [v])
    else .refuse
  | .set items =>
    if c = ',' then .next (.set (v :: items))
    else if c = '\x7d' then .close (.set (v :: items).reverse)
    else .refuse
  | .dictKey pairs => if c = ':' then .next (.dictValue v pairs) else .refuse
  | .dictValue key pairs =>
    if c = ',' then .next (.dictKey ((key, v) :: pairs))
    else if c = '\x7d' then .close (.dict ((key, v) :: pairs).reverse)
    else .refuse

/-! ### The reader -/

/-- What the reader waits for. -/
inductive Stage where
  /-- A value, or the end of a display that may end here. -/
  | expect
  /-- What follows the value just read. -/
  | got (v : Literal)

/-- The display that `c` closes, with the displays around it. -/
def closing? (c : Char) : List Frame → Option (Literal × List Frame)
  | [] => none
  | frame :: frames => (frame.closed? c).map (·, frames)

/-- Reads to the end of the outermost value. -/
def run (stage : Stage) (frames : List Frame) (s : List Char) :
    Except Fault (Literal × List Char) :=
  match stage, frames with
  | .expect, frames =>
    match _hs : skipTrivia s with
    | [] => .error (.unexpected [])
    | c :: rest =>
      match closing? c frames with
      | some (v, frames) => run (.got v) frames rest
      | none =>
        match Frame.opened? c with
        | some frame => run .expect (frame :: frames) rest
        | none =>
          match _hatom : readAtom (c :: rest) with
          | .error fault => .error fault
          | .ok (v, rest) => run (.got v) frames rest
  | .got v, [] => .ok (v, s)
  | .got v, frame :: frames =>
    match _hs : skipTrivia s with
    | [] => .error (.unexpected [])
    | c :: rest =>
      match frame.after v c with
      | .close w => run (.got w) frames rest
      | .next frame => run .expect (frame :: frames) rest
      | .refuse => .error (.unexpected (c :: rest))
termination_by s.length
decreasing_by
  all_goals
    have := length_skipTrivia_le s
    have := congrArg List.length _hs
    simp only [List.length_cons] at this
    try have := length_readAtom_lt _hatom
    grind

/-- Reads a source that holds one literal. -/
def parse (source : String) : Except Error Literal :=
  let s := source.toList
  match run .expect [] s with
  | .error fault => .error (fault.locate s)
  | .ok (v, rest) =>
    match skipTrivia rest with
    | [] => .ok v
    | rest => .error (.trailingInput (offsetOf s rest))

end Scriptorium.Literal
