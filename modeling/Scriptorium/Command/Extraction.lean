/-
The commands of a script.

A command is a function at the outermost level with a decorator that calls a member of a marker's
name. Nothing is evaluated: a default that is not written as a literal counts as computed.
-/

import Scriptorium.Command.Basic
import Scriptorium.Command.Docstring
import Scriptorium.Command.TypeText
import Scriptorium.Config
import Scriptorium.Literal.Reader
import Scriptorium.Script.Outline

namespace Scriptorium.Command

open Script (Argument Decorator Function ParameterItem Snippet Statement)

/-! ### Parameters -/

/-- The type that an annotation names, or the fallback for one that is not well formed or has no
text. -/
def typeOf (fallback : String) (hint : Snippet) : String :=
  let text := typeText hint.text
  if hint.wellFormed ∧ text ≠ [] then String.ofList text else fallback

/-- The default that an expression is. -/
def defaultOf (expression : Snippet) : Default :=
  if expression.wellFormed then
    match Literal.parse (String.ofList expression.text) with
    | .ok v => .literal v
    | .error _ => .computed
  else .computed

/-- The parameter of an item that names one, of the given kind. -/
def parameter? (fallback : String) (kind : ParameterKind) : ParameterItem → Option Parameter
  | .plain name => some { name := String.ofList name, type := fallback, kind }
  | .annotated name type =>
    some { name := String.ofList name, type := typeOf fallback type, kind }
  | .defaulted target default =>
    some { name := String.ofList target, type := fallback, default := defaultOf default, kind }
  | .annotatedDefaulted name type default =>
    some {
      name := String.ofList name
      type := typeOf fallback type
      default := defaultOf default
      kind }
  | .star | .sequence | .mapping | .slash | .tuple | .remark | .malformed => none

/-- An item behind which parameters can only be passed by name. -/
def isStarred : ParameterItem → Bool
  | .star | .sequence => true
  | _ => false

/-- The parameters read so far, and whether those to come can only be passed by name. -/
structure Collected where
  parameters : List Parameter := []
  starred : Bool := false

namespace Collected

/-- How the next parameter may be passed, unless a slash comes later. -/
def kind (c : Collected) : ParameterKind :=
  if c.starred then .keywordOnly else .positionalOrKeyword

/-- Reads an item. A slash makes all parameters before it positional only, whatever they were. -/
def add (fallback : String) (c : Collected) (item : ParameterItem) : Collected :=
  match item with
  | .slash =>
    { c with parameters := c.parameters.map fun p => { p with kind := .positionalOnly } }
  | _ => {
      parameters := c.parameters ++ (parameter? fallback c.kind item).toList
      starred := c.starred || isStarred item }

end Collected

/-- The parameters of a list of items. -/
def parametersOf (fallback : String) (items : List ParameterItem) : List Parameter :=
  (items.foldl (Collected.add fallback) {}).parameters

/-! ### Markers -/

/-- The texts that may give a name: the first positional argument and those for `name`. -/
def nameTexts (positionalSeen : Bool) : List Argument → List (List Char)
  | [] => []
  | .positional text :: rest =>
    if positionalSeen then nameTexts true rest else text :: nameTexts true rest
  | .named name value :: rest =>
    if name = "name".toList then value :: nameTexts positionalSeen rest
    else nameTexts positionalSeen rest
  | .spread :: rest => nameTexts positionalSeen rest

/-- The string that a text writes. -/
def string? (text : List Char) : Option String :=
  match Literal.parse (String.ofList text) with
  | .ok (.str s) => some s
  | _ => none

/-- The name that arguments give to a command. -/
def explicitName? (arguments : List Argument) : Option String :=
  (nameTexts false arguments).findSome? string?

/-- The marker that a decorator is. -/
def marker? (markers : List String) : Decorator → Option Marker
  | .memberCall receiver attr _ arguments =>
    if String.ofList attr ∈ markers then
      some ⟨String.ofList receiver, String.ofList attr, explicitName? arguments⟩
    else none
  | .call _ | .member _ _ | .name _ | .unrecognized => none

/-! ### Commands -/

/-- The documentation that the text of a string expression writes. -/
def docstring? (text : List Char) : Option String :=
  (string? text).bind fun s =>
    let cleaned := cleanDocstring s.toList
    if cleaned.isEmpty then none else some (String.ofList cleaned)

/-- The command that a marked function is. -/
def ofFunction (fallback : String) (marker : Marker) (f : Function) : Command where
  name := String.ofList f.name
  parameters := parametersOf fallback f.parameters
  marker := marker
  docstring := f.docstring.bind docstring?

/-- The command of a statement. -/
def ofStatement? (e : Config.Extractor) : Statement → Option Command
  | .decorated decorators (.function f) =>
    (decorators.findSome? (marker? e.markers)).map fun marker => ofFunction e.fallbackType marker f
  | .decorated _ .classDefinition | .definition _ | .remark | .other => none

/-- The commands of statements, in their order. -/
def ofStatements (e : Config.Extractor) (statements : List Statement) : List Command :=
  statements.filterMap (ofStatement? e)

/-- The commands of a script. -/
def extract (e : Config.Extractor) (source : String) : List Command :=
  ofStatements e (Script.outline source)

end Scriptorium.Command
