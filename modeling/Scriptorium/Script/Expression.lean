/-
Whether a phrase is an expression.

The check reads a phrase once and knows, for each bracket that is open, whether an operand is
due or has been read. It refuses operands and operators that stand side by side, operators at an
end, and brackets that do not match; it does not build a tree and it knows no precedence, since
neither decides whether an expression is well formed.
-/

import Scriptorium.Script.Phrase

namespace Scriptorium.Script

/-! ### Places -/

/-- Where items of an expression stand. -/
inductive Place where
  | value
  | hint
  | call
  | index
  | paren
  | list
  | brace
deriving DecidableEq, Repr

/-- What has been read of the item at a place. -/
inductive Phase where
  /-- Nothing at all has been read at the place. -/
  | first
  /-- An item may begin. -/
  | start
  /-- The colon of a slice has been read, behind which an operand may be left out. -/
  | slice
  /-- An operand is due. -/
  | operand
  /-- An operand has been read. -/
  | done
  /-- An operand has been read that is a string, which another string may continue. -/
  | string
  /-- The name of a member is due. -/
  | member
  /-- A negation has been read where an operator was due. -/
  | negated
  /-- The head of a lambda is being read. -/
  | lambda
deriving DecidableEq, Repr

/-- The state of a place: how many conditions have no alternative yet, and whether the items run
over a loop. -/
structure Frame where
  place : Place
  phase : Phase
  conditions : Nat := 0
  loop : Bool := false
deriving DecidableEq, Repr

namespace Frame

/-- Whether an operand may begin. -/
def expects (f : Frame) : Bool :=
  f.phase ∈ [.first, .start, .slice, .operand]

/-- Whether an operand has just been read. -/
def holds (f : Frame) : Bool :=
  f.phase == .done || f.phase == .string

/-- Whether an item may end. -/
def hasItem (f : Frame) : Bool :=
  f.holds || f.phase == .slice

/-- Whether a place is in brackets that may hold nothing. -/
def mayBeEmpty (f : Frame) : Bool :=
  f.place ∈ [.call, .paren, .list, .brace]

/-- Whether each condition has its alternative. A loop may have conditions of its own. -/
def isBalanced (f : Frame) : Bool :=
  f.conditions == 0 || f.loop

/-- Whether the place may end. -/
def mayEnd (f : Frame) : Bool :=
  f.isBalanced && (f.hasItem || (f.phase == .first && f.mayBeEmpty)
    || (f.phase == .start && (f.mayBeEmpty || f.place == .index)))

/-- The frame in another phase. -/
def inPhase (f : Frame) (phase : Phase) : Frame :=
  { f with phase }

/-! ### Tokens at a place -/

/-- Words behind an operand that an operand follows. -/
def isJoiningWord (w : List Char) : Bool :=
  (["and", "or", "in", "is", "as"].map String.toList).contains w

/-- Operators behind an operand that an operand follows. -/
def isJoiningOperator (op : List Char) : Bool :=
  (["+", "-", "*", "**", "/", "//", "%", "@", "<<", ">>", "&", "|", "^", "<", ">", "<=", ">=",
    "==", "!=", "<>", ":="].map String.toList).contains op

/-- The frame behind a word. -/
def word (f : Frame) (w : List Char) : Option Frame :=
  if f.phase = .lambda then some f
  else if f.phase = .member then some (f.inPhase .done)
  else if f.phase = .negated then if w = "in".toList then some (f.inPhase .operand) else none
  else if f.expects then
    if (["not", "await", "from"].map String.toList).contains w then some (f.inPhase .operand)
    else if w = "lambda".toList then some (f.inPhase .lambda)
    else if w = "yield".toList then if f.mayBeEmpty then some (f.inPhase .start) else none
    else some (f.inPhase .done)
  else if isJoiningWord w then some (f.inPhase .operand)
  else if w = "not".toList then some (f.inPhase .negated)
  else if w = "if".toList then some { f.inPhase .operand with conditions := f.conditions + 1 }
  else if w = "else".toList then
    if f.conditions = 0 then none
    else some { f.inPhase .operand with conditions := f.conditions - 1 }
  else if w = "for".toList ∧ f.mayBeEmpty then some { f.inPhase .operand with loop := true }
  else if w = "async".toList ∧ f.mayBeEmpty then some f
  else none

/-- The frame behind a colon: the end of the head of a lambda, or a separator. -/
def colon (f : Frame) : Option Frame :=
  if f.phase = .lambda then some (f.inPhase .operand)
  else
    match f.place with
    | .index => if f.phase = .operand then none else some (f.inPhase .slice)
    | .brace | .hint => if f.holds then some (f.inPhase .operand) else none
    | _ => none

/-- The frame behind a comma. -/
def comma (f : Frame) : Option Frame :=
  if f.phase = .lambda then some f
  else if f.hasItem && f.isBalanced && (f.mayBeEmpty || f.place == .index) then
    some { f.inPhase .start with conditions := 0 }
  else none

/-- The frame behind an operator. -/
def operator (f : Frame) (op : List Char) : Option Frame :=
  if op = ":".toList then f.colon
  else if op = ",".toList then f.comma
  else if f.phase = .lambda then some f
  else if f.holds then
    if op = ".".toList then some (f.inPhase .member)
    else if isJoiningOperator op ∨ (op = "=".toList ∧ f.place = .call) then
      some (f.inPhase .operand)
    else none
  else if f.expects then
    if op = "...".toList then some (f.inPhase .done)
    else if (["+", "-", "~"].map String.toList).contains op then some (f.inPhase .operand)
    else if (["*", "**"].map String.toList).contains op ∧ f.phase ∈ [.first, .start] then
      some (f.inPhase .operand)
    else none
  else none

/-- The frame behind a number or the end of brackets that are an operand. -/
def atom (f : Frame) : Option Frame :=
  if f.phase = .lambda then some f else if f.expects then some (f.inPhase .done) else none

/-- The frame behind a string. -/
def stringAtom (f : Frame) : Option Frame :=
  if f.phase = .lambda then some f
  else if f.expects ∨ f.phase = .string then some (f.inPhase .string)
  else none

/-- The frame in which a bracket opens, and the place in the bracket. -/
def bracket (f : Frame) (c : List Char) : Option (Frame × Place) :=
  if f.holds then
    if c = ['('] then some (f.inPhase .done, .call)
    else if c = ['['] then some (f.inPhase .done, .index)
    else none
  else
    f.atom.map fun g =>
      (g, if c = ['('] then .paren else if c = ['['] then .list else .brace)

end Frame

/-- The bracket that closes a place. -/
def Place.closing : Place → List Char
  | .value | .hint => []
  | .call | .paren => [')']
  | .index | .list => [']']
  | .brace => ['\x7d']

/-! ### The check -/

/-- Reads a token; the frames are those of the open places, the innermost first. -/
def readToken (frames : List Frame) (t : Token) : Option (List Frame) :=
  match frames with
  | [] => none
  | f :: outer =>
    match t.kind with
    | .name => (f.word t.text).map (· :: outer)
    | .number => f.atom.map (· :: outer)
    | .string => f.stringAtom.map (· :: outer)
    | .operator => (f.operator t.text).map (· :: outer)
    | .opening => (f.bracket t.text).map fun (g, place) => ⟨place, .first, 0, false⟩ :: g :: outer
    | .closing => if f.mayEnd ∧ t.text = f.place.closing then some outer else none
    | .remark | .lineEnd => some frames
    | .stray => none

/-- Whether a phrase is an expression that may stand at a place. -/
def isWellFormed (place : Place) (ts : Phrase) : Bool :=
  let phase := if place = .hint then .first else .operand
  match ts.foldlM readToken [⟨place, phase, 0, false⟩] with
  | some [f] => f.mayEnd
  | _ => false

/-- The text of an expression, and whether it is well formed. -/
structure Snippet where
  text : List Char
  wellFormed : Bool
deriving DecidableEq, Repr

/-- The expression of a phrase. -/
def Snippet.ofPhrase (place : Place) (ts : Phrase) : Snippet :=
  let ts := Phrase.core ts
  ⟨Phrase.text ts, isWellFormed place ts⟩

end Scriptorium.Script
