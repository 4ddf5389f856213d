/-
The signature of the wrapper through which a command is called.

A slash follows the last positional-only parameter, and a bare star comes before the first
keyword-only one.
-/

import Scriptorium.Command.Basic
import Scriptorium.Literal.Printer

namespace Scriptorium

/-- The source of a default in a wrapper; what is computed becomes the constant for no value. -/
def Default.source? : Default → Option (List Char)
  | .absent => none
  | .computed => some (Literal.render .null)
  | .literal v => some v.render

/-- The source of a parameter in a wrapper. -/
def Parameter.render (p : Parameter) : List Char :=
  p.name.toList ++ ':' :: ' ' :: (p.type.toList ++
    match p.default.source? with
    | none => []
    | some source => ' ' :: '=' :: ' ' :: source)

namespace Command

/-- Whether a parameter can only be passed by position. -/
def isPositionalOnly (p : Parameter) : Bool :=
  p.kind == .positionalOnly

/-- The parts of a parameter list, with the marks that show the kinds. -/
def parts (starred : Bool) : List Parameter → List (List Char)
  | [] => []
  | p :: rest =>
    let star := p.kind == .keywordOnly && !starred
    let slash := isPositionalOnly p && !rest.any isPositionalOnly
    (if star then [['*']] else []) ++ p.render :: (if slash then [['/']] else [])
      ++ parts (starred || star) rest

/-- The signature of the wrapper of a command. -/
def wrapperChars (name : String) (c : Command) : List Char :=
  "def ".toList ++ name.toList ++ '(' :: (Literal.commas (parts false c.parameters) ++ [')', ':'])

/-- The signature of the wrapper of a command. -/
def wrapper (name : String) (c : Command) : String :=
  String.ofList (wrapperChars name c)

end Command

end Scriptorium
