/-
Phrases: runs of tokens, their text and their cuts.

A phrase is cut only at tokens that stand outside all brackets and outside the head of a lambda.
-/

import Scriptorium.Script.Token

namespace Scriptorium.Script

/-- A run of tokens. -/
abbrev Phrase := List Token

/-! ### Tokens by their text -/

/-- Whether a token is a given operator. -/
def Token.isOp (op : String) (t : Token) : Bool :=
  t.kind == .operator && t.text == op.toList

/-- Whether a token is a given word. -/
def Token.isWord (word : String) (t : Token) : Bool :=
  t.kind == .name && t.text == word.toList

/-- Whether a token is a given bracket. -/
def Token.isBracket (c : Char) (t : Token) : Bool :=
  (t.kind == .opening || t.kind == .closing) && t.text == [c]

/-- Whether a token has no part in the structure: a comment, or a line end in brackets. -/
def Token.isSilent (t : Token) : Bool :=
  t.kind == .remark || t.kind == .lineEnd

namespace Phrase

/-! ### Text -/

/-- The text of a phrase, without the gap in front of it. -/
def text : Phrase → List Char
  | [] => []
  | t :: ts => t.text ++ ts.flatMap fun u => u.gap ++ u.text

/-- Drops the silent tokens at both ends. -/
def core (p : Phrase) : Phrase :=
  ((p.dropWhile Token.isSilent).reverse.dropWhile Token.isSilent).reverse

/-! ### Nesting -/

/-- What is open at a place of a phrase. -/
structure Nesting where
  brackets : Nat := 0
  lambdas : Nat := 0
deriving DecidableEq, Repr

/-- Whether nothing is open. -/
def Nesting.isTop (n : Nesting) : Bool :=
  n.brackets == 0 && n.lambdas == 0

/-- What is open behind a token. A lambda is open up to its colon. -/
def Nesting.after (n : Nesting) (t : Token) : Nesting :=
  match t.kind with
  | .opening => { n with brackets := n.brackets + 1 }
  | .closing => { n with brackets := n.brackets - 1 }
  | _ =>
    if n.brackets = 0 ∧ t.isWord "lambda" then { n with lambdas := n.lambdas + 1 }
    else if n.brackets = 0 ∧ t.isOp ":" then { n with lambdas := n.lambdas - 1 }
    else n

/-! ### Cuts -/

/-- The phrases before and after the first token at the top that satisfies `p`. -/
def cutFrom (p : Token → Bool) (n : Nesting) : Phrase → Option (Phrase × Phrase)
  | [] => none
  | t :: ts =>
    if n.isTop && p t then some ([], ts)
    else (cutFrom p (n.after t) ts).map fun (before, after) => (t :: before, after)

/-- The phrases before and after the first token at the top that satisfies `p`. -/
def cut (p : Token → Bool) (ts : Phrase) : Option (Phrase × Phrase) :=
  cutFrom p {} ts

/-- Cuts a phrase at every token at the top that satisfies `p`. -/
def splitFrom (p : Token → Bool) (n : Nesting) : Phrase → List Phrase
  | [] => [[]]
  | t :: ts =>
    if n.isTop && p t then [] :: splitFrom p n ts
    else
      match splitFrom p (n.after t) ts with
      | [] => [[t]]
      | part :: rest => (t :: part) :: rest

/-- Cuts a phrase at every token at the top that satisfies `p`. -/
def split (p : Token → Bool) (ts : Phrase) : List Phrase :=
  splitFrom p {} ts

/-- The items between the commas of a phrase. -/
def items (ts : Phrase) : List Phrase :=
  (split (Token.isOp ",") ts).map core

/-! ### Brackets -/

/-- The phrase up to the bracket that closes the innermost of `depth + 1` open ones and that
bracket, and what follows. -/
def closeFrom (depth : Nat) : Phrase → Option (Phrase × Phrase)
  | [] => none
  | t :: ts =>
    match t.kind, depth with
    | .closing, 0 => some ([t], ts)
    | .closing, depth + 1 => (closeFrom depth ts).map fun (p, rest) => (t :: p, rest)
    | .opening, depth => (closeFrom (depth + 1) ts).map fun (p, rest) => (t :: p, rest)
    | _, depth => (closeFrom depth ts).map fun (p, rest) => (t :: p, rest)

/-- The brackets that begin a phrase with what is in them, and what follows. -/
def group? : Phrase → Option (Phrase × Phrase)
  | [] => none
  | t :: ts =>
    if t.kind = .opening then (closeFrom 0 ts).map fun (p, rest) => (t :: p, rest) else none

/-- What is between the brackets of a group. -/
def inside (group : Phrase) : Phrase :=
  group.tail.dropLast

/-- Nothing is lost at a closing bracket. -/
theorem append_of_closeFrom {depth : Nat} {ts p rest : Phrase}
    (h : closeFrom depth ts = some (p, rest)) : p ++ rest = ts := by
  induction ts generalizing depth p with
  | nil => cases h
  | cons t ts ih =>
    unfold closeFrom at h
    split at h
    · cases h
      rfl
    all_goals
      obtain ⟨⟨q, r⟩, hq, heq⟩ := Option.map_eq_some_iff.1 h
      cases heq
      exact congrArg (t :: ·) (ih hq)

/-- Brackets and what follows them are the phrase. -/
theorem append_of_group? {ts p rest : Phrase} (h : group? ts = some (p, rest)) :
    p ++ rest = ts := by
  cases ts with
  | nil => cases h
  | cons t ts =>
    simp only [group?] at h
    split at h
    · obtain ⟨⟨q, r⟩, hq, heq⟩ := Option.map_eq_some_iff.1 h
      cases heq
      exact congrArg (t :: ·) (append_of_closeFrom hq)
    · cases h

theorem length_group?_lt {ts p rest : Phrase} (h : group? ts = some (p, rest)) :
    rest.length < ts.length := by
  have hp : p ≠ [] := by
    rintro rfl
    cases ts with
    | nil => cases h
    | cons t ts =>
      simp only [group?] at h
      split at h
      · obtain ⟨⟨q, r⟩, _, heq⟩ := Option.map_eq_some_iff.1 h
        cases heq
      · cases h
  have := List.length_pos_iff.mpr hp
  rw [← append_of_group? h, List.length_append]
  omega

end Phrase

end Scriptorium.Script
