/-
Commands: the functions of a script that can be called from outside.
-/

import Scriptorium.Literal.Basic

namespace Scriptorium

/-- What is known of the default of a parameter. -/
inductive Default where
  | absent
  /-- The default is an expression that is no literal. -/
  | computed
  | literal (v : Literal)
deriving Inhabited

/-- Whether there is a default. -/
def Default.isDeclared : Default → Bool
  | .absent => false
  | .computed | .literal _ => true

/-- How a parameter may be passed. -/
inductive ParameterKind where
  | positionalOrKeyword
  | positionalOnly
  | keywordOnly
deriving DecidableEq, Repr, Inhabited

/-- A parameter of a command. -/
structure Parameter where
  name : String
  /-- The text of the annotation, or of the type that stands for a missing one. -/
  type : String
  default : Default := .absent
  kind : ParameterKind := .positionalOrKeyword
deriving Inhabited

/-- The decorator call that marks a function as a command. -/
structure Marker where
  receiver : String := ""
  attr : String := ""
  /-- The name given to the call. -/
  explicitName : Option String := none
deriving DecidableEq, Repr, Inhabited

/-- A command. -/
structure Command where
  name : String
  parameters : List Parameter
  marker : Marker := {}
  docstring : Option String := none
deriving Inhabited

namespace Command

/-- The first parameter of a name. -/
def find? (c : Command) (name : String) : Option Parameter :=
  c.parameters.find? (·.name == name)

/-- The name by which the command is called. -/
def invocationName (c : Command) : String :=
  c.marker.explicitName.getD c.name

/-- The parameters that can be passed by position. -/
def positional (c : Command) : List Parameter :=
  c.parameters.filter (·.kind != .keywordOnly)

/-- The parameters that can only be passed by name. -/
def keywordOnly (c : Command) : List Parameter :=
  c.parameters.filter (·.kind == .keywordOnly)

/-- The number of parameters with a default. -/
def defaultCount (c : Command) : Nat :=
  c.parameters.countP (·.default.isDeclared)

end Command

end Scriptorium
