/-
Decorators: the lines with an at sign in front of a definition.

A decorator is told apart by its shape. What it is applied to and what it is given are kept as
text, since they are never evaluated.
-/

import Scriptorium.Script.Expression

namespace Scriptorium.Script

/-! ### Arguments -/

/-- An argument of a call. -/
inductive Argument where
  | positional (text : List Char)
  | named (name value : List Char)
  /-- A sequence or mapping whose parts are given. -/
  | spread
deriving DecidableEq, Repr

/-- The argument of a phrase. Behind the name of an argument the line may end. -/
def Argument.ofPhrase? : Phrase → Option Argument
  | [] => none
  | t :: ts =>
    if t.isOp "*" ∨ t.isOp "**" then some .spread
    else
      match ts.dropWhile Token.isSilent with
      | u :: value =>
        if t.kind = .name ∧ u.isOp "=" then some (.named t.text (Phrase.text (Phrase.core value)))
        else some (.positional (Phrase.text (t :: ts)))
      | [] => some (.positional t.text)

/-- The item of a loop that makes the arguments of a call: the phrase before the first loop, when
no comma stands in it. -/
def loopItem? (ts : Phrase) : Option Phrase :=
  match Phrase.cut (Token.isWord "for") ts with
  | some (item, _) =>
    match Phrase.items item with
    | [[]] => none
    | [item] => some (if item.getLast?.any (Token.isWord "async") then item.dropLast else item)
    | _ => none
  | none => none

/-- The arguments between the brackets of a call. The item of a loop counts as one. -/
def argumentsOf (ts : Phrase) : List Argument :=
  match loopItem? ts with
  | some item => (Argument.ofPhrase? item).toList
  | none => (Phrase.items ts).filterMap Argument.ofPhrase?

/-! ### Shapes -/

/-- A decorator by its shape. -/
inductive Decorator where
  /-- The call of a member of a receiver. -/
  | memberCall (receiver member : List Char) (text : List Char) (arguments : List Argument)
  | call (callee : List Char)
  | member (receiver member : List Char)
  | name (name : List Char)
  | unrecognized
deriving DecidableEq, Repr

/-- What may follow an operand in a chain. -/
inductive Link where
  | member (name : List Char)
  | call (arguments : List Argument)
  | index
deriving DecidableEq, Repr

/-- The links of a chain with their phrases. -/
def links? (ts : Phrase) : Option (List (Link × Phrase)) :=
  match ts with
  | [] => some []
  | t :: rest =>
    if t.isOp "." then
      match rest with
      | name :: rest =>
        if name.kind = .name then
          (links? rest).map ((.member name.text, [t, name]) :: ·)
        else none
      | [] => none
    else
      match _hgroup : Phrase.group? (t :: rest) with
      | none => none
      | some (group, after) =>
        if t.isBracket '(' then
          (links? after).map ((.call (argumentsOf (Phrase.inside group)), group) :: ·)
        else if t.isBracket '[' then (links? after).map ((.index, group) :: ·)
        else none
termination_by ts.length
decreasing_by
  · simp only [List.length_cons]; omega
  all_goals exact Phrase.length_group?_lt _hgroup

/-- The operand that begins a chain, and what follows. -/
def operand? (ts : Phrase) : Option (Phrase × Phrase) :=
  match ts with
  | [] => none
  | t :: rest =>
    match t.kind with
    | .name =>
      if t.isWord "not" ∨ t.isWord "lambda" then none
      else if t.isWord "await" ∧ rest.head?.any (·.kind == .opening) then none
      else some ([t], rest)
    | .number => some ([t], rest)
    | .operator => if t.isOp "..." then some ([t], rest) else none
    | .string =>
      some (ts.takeWhile (·.kind == .string), ts.dropWhile (·.kind == .string))
    | .opening => Phrase.group? ts
    | _ => none

/-- Whether a phrase is a name and no constant. -/
def isVariable : Phrase → Bool
  | [t] => t.kind == .name && !(["None", "True", "False"].map String.toList).contains t.text
  | _ => false

/-- The phrase of the links of a chain, given from the last to the first, behind its operand. -/
def chainText (operand : Phrase) (links : List (Link × Phrase)) : List Char :=
  Phrase.text (operand ++ links.reverse.flatMap Prod.snd)

/-- The decorator of an operand and its links, given from the last to the first. -/
def Decorator.ofChain (operand : Phrase) : List (Link × Phrase) → Decorator
  | [] => if isVariable operand then .name (Phrase.text operand) else .unrecognized
  | (.call arguments, group) :: (.member chosen, _) :: before =>
    .memberCall (chainText operand before) chosen (Phrase.text group) arguments
  | (.call _, _) :: before => .call (chainText operand before)
  | (.member chosen, _) :: before => .member (chainText operand before) chosen
  | (.index, _) :: _ => .unrecognized

/-- The decorator of the phrase behind an at sign. -/
def Decorator.ofPhrase (ts : Phrase) : Decorator :=
  match operand? ts with
  | none => .unrecognized
  | some (operand, rest) =>
    match links? rest with
    | none => .unrecognized
    | some links => ofChain operand links.reverse

end Scriptorium.Script
