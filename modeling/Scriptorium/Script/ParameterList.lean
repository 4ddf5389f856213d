/-
Parameter lists as they are written.
-/

import Scriptorium.Script.Expression

namespace Scriptorium.Script

/-- An item of a parameter list. -/
inductive ParameterItem where
  | plain (name : List Char)
  | annotated (name : List Char) (type : Snippet)
  /-- A parameter with a default. Its target may be a tuple of names in parentheses. -/
  | defaulted (target : List Char) (default : Snippet)
  | annotatedDefaulted (name : List Char) (type default : Snippet)
  /-- A star of its own, behind which parameters are passed by name. -/
  | star
  /-- The parameter that takes all further positional arguments. -/
  | sequence
  /-- The parameter that takes all further named arguments. -/
  | mapping
  /-- A slash, before which parameters are passed by position. -/
  | slash
  /-- A tuple of names in parentheses. -/
  | tuple
  | remark
  | malformed
deriving DecidableEq, Repr

namespace ParameterItem

/-- The item of a name and what follows its colon. -/
def ofAnnotation (name : List Char) (ts : Phrase) : ParameterItem :=
  match Phrase.cut (Token.isOp "=") ts with
  | some (type, default) =>
    .annotatedDefaulted name (.ofPhrase .hint type) (.ofPhrase .value default)
  | none => .annotated name (.ofPhrase .hint ts)

/-- The item of a tuple and what follows it. -/
def ofTuple (group : Phrase) : Phrase → ParameterItem
  | [] => .tuple
  | t :: ts =>
    if t.isOp "=" then .defaulted (Phrase.text group) (.ofPhrase .value ts) else .malformed

/-- The item of a name and what follows it. Junk behind a name is passed over. -/
def ofName (name : List Char) : Phrase → ParameterItem
  | [] => .plain name
  | t :: ts =>
    if t.isOp ":" then ofAnnotation name ts
    else if t.isOp "=" then .defaulted name (.ofPhrase .value ts)
    else .plain name

/-- The item of a phrase between commas. Behind a name or a tuple the line may end. -/
def ofPhrase? : Phrase → Option ParameterItem
  | [] => none
  | t :: ts =>
    if t.isOp "*" then some (if ts.isEmpty then .star else .sequence)
    else if t.isOp "**" then some .mapping
    else if t.isOp "/" then some (if ts.isEmpty then .slash else .malformed)
    else if t.kind = .name then some (ofName t.text (ts.dropWhile Token.isSilent))
    else
      match Phrase.group? (t :: ts) with
      | some (group, rest) =>
        some (if t.isBracket '(' then ofTuple group (rest.dropWhile Token.isSilent)
          else .malformed)
      | none => some .malformed

/-- The comments of a phrase. -/
def remarks (ts : Phrase) : List ParameterItem :=
  (ts.filter (·.kind == .remark)).map fun _ => .remark

/-- The item between two commas, with the comments before and behind it. -/
def ofPart (ts : Phrase) : List ParameterItem :=
  let rest := ts.dropWhile Token.isSilent
  remarks (ts.takeWhile Token.isSilent) ++ (ofPhrase? (Phrase.core rest)).toList
    ++ remarks (rest.reverse.takeWhile Token.isSilent)

/-- The items of what is between the parentheses of a parameter list. -/
def ofPhrase (ts : Phrase) : List ParameterItem :=
  (Phrase.split (Token.isOp ",") ts).flatMap ofPart

end ParameterItem

end Scriptorium.Script
