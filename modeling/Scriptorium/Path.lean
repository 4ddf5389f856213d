/-
Paths: names between slashes.

A path is read as its components. Repeated slashes, a slash at the end, and `.` anywhere but at
the beginning leave no component, so they do not count when paths are compared.
-/

import Scriptorium.Text.Line

namespace Scriptorium.Path

/-! ### Components -/

/-- A component of a path. -/
inductive Component where
  | root
  | current
  | parent
  | normal (name : List Char)
deriving DecidableEq, Repr

/-- The component of a piece between slashes, if it leaves one behind the beginning. -/
def Component.ofPiece? (piece : List Char) : Option Component :=
  if piece = [] ∨ piece = ['.'] then none
  else if piece = ['.', '.'] then some .parent
  else some (.normal piece)

/-- The component that only a beginning can leave. -/
def Component.ofFirst? (pieces : List (List Char)) (path : List Char) : Option Component :=
  if path.head? = some '/' then some .root
  else if pieces.head? = some ['.'] then some .current
  else none

/-- The components of a path. -/
def components (path : List Char) : List Component :=
  let pieces := Text.splitAt '/' path
  (Component.ofFirst? pieces path).toList ++ pieces.filterMap Component.ofPiece?

/-- The name of a normal component. -/
def Component.name? : Component → Option (List Char)
  | .normal name => some name
  | _ => none

/-! ### Parts of a path -/

/-- The name of a file: the last component, if it is a name. -/
def fileNameOf? (cs : List Component) : Option (List Char) :=
  cs.getLast?.bind Component.name?

/-- The components without the last, unless there is none or only the root. -/
def parentOf? (cs : List Component) : Option (List Component) :=
  match cs.getLast? with
  | none | some .root => none
  | some _ => some cs.dropLast

/-- The name of the file of a path. -/
def fileName? (path : List Char) : Option (List Char) :=
  fileNameOf? (components path)

/-- Cuts a name at its last point; a point at the beginning does not count. -/
def splitName (name : List Char) : List Char × Option (List Char) :=
  match Text.cutAtLast '.' name with
  | none | some ([], _) => (name, none)
  | some (stem, ending) => (stem, some ending)

/-- The name of the file without its ending. -/
def stem? (path : List Char) : Option (List Char) :=
  (fileName? path).map fun name => (splitName name).1

/-- The ending of the name of the file. -/
def ending? (path : List Char) : Option (List Char) :=
  (fileName? path).bind fun name => (splitName name).2

/-! ### Text -/

/-- The text of a component. -/
def Component.text : Component → List Char
  | .root => []
  | .current => ['.']
  | .parent => ['.', '.']
  | .normal name => name

/-- The text of a path with the given components. -/
def textOf (cs : List Component) : List Char :=
  if cs = [.root] then ['/'] else ['/'].intercalate (cs.map Component.text)

/-- The path of an entry of a directory. -/
def join (directory name : List Char) : List Char :=
  if directory = [] ∨ directory.getLast? = some '/' then directory ++ name
  else directory ++ '/' :: name

/-- Drops the slashes and the `.` parts at the end of a path, though not its first part. -/
def dropIdleEnd : List (List Char) → List (List Char)
  | [] => []
  | first :: rest =>
    first :: (rest.reverse.dropWhile fun piece => piece = [] ∨ piece = ['.']).reverse

/-- The path of the directory that holds the last component, as it is written. -/
def parentText? (path : List Char) : Option (List Char) :=
  match parentOf? (components path) with
  | none => none
  | some above =>
    if above = [.root] then some ['/']
    else some (['/'].intercalate (dropIdleEnd (dropIdleEnd (Text.splitAt '/' path)).dropLast))

/-! ### Relative paths -/

/-- What follows the components of a base. -/
def strip? : (base path : List Component) → Option (List Component)
  | [], path => some path
  | _ :: _, [] => none
  | b :: base, c :: path => if b = c then strip? base path else none

/-- The text of a component in a relative path. -/
def Component.text? : Component → Option (List Char)
  | .normal name => some name
  | .parent => some ['.', '.']
  | .root | .current => none

/-- A path below a root, with single slashes; a path elsewhere keeps all its components. -/
def relativeOf (root path : List Component) : List Char :=
  ['/'].intercalate (((strip? root path).getD path).filterMap Component.text?)

/-- A path below a root. -/
def relative (root path : List Char) : List Char :=
  relativeOf (components root) (components path)

/-! ### Order -/

/-- The order of names by their characters. -/
def nameBefore : List Char → List Char → Bool
  | _, [] => false
  | [], _ :: _ => true
  | a :: s, b :: t => a < b || (a == b && nameBefore s t)

/-- The place of the kind of a component: the root, `.`, `..`, and names. -/
def Component.rank : Component → Nat
  | .root => 0
  | .current => 1
  | .parent => 2
  | .normal _ => 3

/-- The order of components, by their kinds, and of names among themselves. -/
def Component.before : Component → Component → Bool
  | .normal a, .normal b => nameBefore a b
  | a, b => a.rank < b.rank

/-- The order of paths by their components. -/
def before : List Component → List Component → Bool
  | _, [] => false
  | [], _ :: _ => true
  | a :: s, b :: t => a.before b || (a == b && before s t)

end Scriptorium.Path
