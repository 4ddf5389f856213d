/-
The outline of a script: its statements at the outermost level.

A script is cut into lines, where a line goes on while a bracket is open. A statement whose head
ends with a colon has the more deeply indented lines that follow as its body; of a body only a
string at its beginning is kept. What makes no sense is passed over, and the rest reads as usual.
-/

import Scriptorium.Script.Decorator
import Scriptorium.Script.ParameterList

namespace Scriptorium.Script

/-! ### Statements -/

/-- A function with its parameters and the text of the string that begins its body. -/
structure Function where
  name : List Char
  parameters : List ParameterItem
  docstring : Option (List Char) := none
deriving DecidableEq, Repr

/-- A definition. What is in a class is of no interest. -/
inductive Definition where
  | function (f : Function)
  | classDefinition
deriving DecidableEq, Repr

/-- A statement at the outermost level. -/
inductive Statement where
  | remark
  | decorated (decorators : List Decorator) (definition : Definition)
  | definition (d : Definition)
  | other
deriving DecidableEq, Repr

/-! ### Lines -/

/-- Whether an open bracket is given up in front of tokens at the margin, `depth` being the number
of brackets open: a definition begins there, or a decorator while the brackets are never closed. -/
def isGivenUp (depth : Nat) : Phrase → Bool
  | [] => false
  | t :: ts =>
    t.gap.isEmpty
      && (t.isWord "def" || t.isWord "class"
        || (t.isWord "async" && ts.head?.any (Token.isWord "def"))
        || (t.isOp "@" && (Phrase.closeFrom (depth - 1) ts).isNone))

/-- The lines of a script, `depth` being the number of brackets open. -/
def linesFrom (depth : Nat) : Phrase → List Phrase
  | [] => [[]]
  | t :: ts =>
    if t.kind = .lineEnd ∧ (depth = 0 ∨ isGivenUp depth ts) then [] :: linesFrom 0 ts
    else
      let depth := match t.kind with
        | .opening => depth + 1
        | .closing => depth - 1
        | _ => depth
      match linesFrom depth ts with
      | [] => [[t]]
      | line :: rest => (t :: line) :: rest

/-- The column at the end of a gap. A tab is eight columns wide, and a carriage return or a form
feed goes back to the margin. -/
def columnFrom (column : Nat) : List Char → Nat
  | [] => column
  | c :: s =>
    if c = ' ' then columnFrom (column + 1) s
    else if c = '\t' then columnFrom (column + 8) s
    else if c = '\r' ∨ c = '\x0c' then columnFrom 0 s
    else if c = '\\' ∨ c = '\n' then columnFrom column s
    else column

/-- The indentation of a line. -/
def indentation : Phrase → Nat
  | [] => 0
  | t :: _ => columnFrom 0 t.gap

/-- Whether a line holds more than a comment. -/
def isCode (line : Phrase) : Bool :=
  !(Phrase.core line).isEmpty

/-! ### Bodies -/

/-- The text of the strings that begin a statement and are all of its first expression. -/
def leadingString? (line : Phrase) : Option (List Char) :=
  let statement := match Phrase.cut (Token.isOp ";") line with
    | some (first, _) => Phrase.core first
    | none => Phrase.core line
  let strings := statement.takeWhile (·.kind == .string)
  if strings.isEmpty then none
  else
    match statement.drop strings.length with
    | [] => some (Phrase.text strings)
    | t :: rest =>
      if t.isOp "," ∧ (Phrase.cut (Token.isOp "=") rest).isNone then some (Phrase.text strings)
      else none

/-- The first line of code among the lines behind a head, if it is indented. -/
def firstLine? (lines : List Phrase) : Option Phrase :=
  (lines.find? isCode).filter (0 < indentation ·)

/-- Whether a head ends with its colon, so that its body stands on lines of its own. -/
def opensBody (line : Phrase) : Bool :=
  (Phrase.core line).getLast?.any (Token.isOp ":")

/-- The lines behind the body of a head. -/
def dropBody (line : Phrase) (lines : List Phrase) : List Phrase :=
  match firstLine? lines with
  | some first =>
    if opensBody line then
      lines.dropWhile fun l => !isCode l || indentation first ≤ indentation l
    else lines
  | none => lines

theorem dropBody_sublist (line : Phrase) (lines : List Phrase) :
    (dropBody line lines).Sublist lines := by
  unfold dropBody
  split
  · split
    · exact List.dropWhile_sublist _
    · exact List.Sublist.refl _
  · exact List.Sublist.refl _

theorem length_dropBody_le (line : Phrase) (lines : List Phrase) :
    (dropBody line lines).length ≤ lines.length :=
  (dropBody_sublist line lines).length_le

/-! ### Definitions -/

/-- The function of a head behind the word that begins it, with the lines that follow. Type
parameters in brackets may stand behind the name. -/
def functionOf? (head : Phrase) (lines : List Phrase) : Option Function :=
  match head with
  | [] => none
  | name :: rest =>
    let rest := match Phrase.group? rest with
      | some (group, after) => if group.head?.any (Token.isBracket '[') then after else rest
      | none => rest
    match Phrase.group? rest with
    | none => none
    | some (group, after) =>
      if name.kind = .name ∧ group.head?.any (Token.isBracket '(') then
        let body := match Phrase.cut (Token.isOp ":") after with
          | some (_, suite) => if isCode suite then some suite else firstLine? lines
          | none => none
        some {
          name := name.text
          parameters := ParameterItem.ofPhrase (Phrase.inside group)
          docstring := body.bind leadingString? }
      else none

/-- The definition that a line begins. -/
def definition? (line : Phrase) (lines : List Phrase) : Option Definition :=
  match line with
  | [] => none
  | t :: rest =>
    if t.isWord "class" then some .classDefinition
    else if t.isWord "def" then (functionOf? rest lines).map .function
    else if t.isWord "async" ∧ rest.head?.any (Token.isWord "def") then
      (functionOf? rest.tail lines).map .function
    else none

/-! ### Scripts -/

/-- The statement of a line that is no decorator, with the lines that follow. Without a definition
its decorators are lost. -/
def statementOf (decorators : List Decorator) (line : Phrase) (lines : List Phrase) : Statement :=
  match definition? line lines with
  | some d => if decorators.isEmpty then .definition d else .decorated decorators d
  | none => .other

/-- The statements of lines; `decorators` are those that wait for their definition. -/
def statementsOf (decorators : List Decorator) (lines : List Phrase) : List Statement :=
  match lines with
  | [] => []
  | line :: rest =>
    match line with
    | [] => statementsOf decorators rest
    | t :: ts =>
      if t.kind = .remark then
        (if decorators.isEmpty then [.remark] else []) ++ statementsOf decorators rest
      else if t.isOp "@" then
        if isCode ts then
          statementsOf (decorators ++ [Decorator.ofPhrase (Phrase.core ts)]) rest
        else .other :: statementsOf [] (rest.dropWhile (!isCode ·)).tail
      else statementOf decorators line rest :: statementsOf [] (dropBody line rest)
termination_by lines.length
decreasing_by
  all_goals simp only [List.length_cons, List.length_tail]
  · omega
  · omega
  · omega
  · have := (List.dropWhile_sublist (!isCode ·) (l := rest)).length_le
    omega
  · exact Nat.lt_succ_of_le (length_dropBody_le _ _)

/-- The statements of a script. -/
def outline (source : String) : List Statement :=
  statementsOf [] (linesFrom 0 (tokens source.toList))

end Scriptorium.Script
