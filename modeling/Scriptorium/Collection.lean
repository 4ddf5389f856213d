/-
Collecting the scripts that files and directories hold.

A directory is walked through to its end, but for what is hidden. The result has no path twice
and is in the order of the components of the paths.
-/

import Scriptorium.FileTree

namespace Scriptorium.Collection

/-! ### Errors -/

/-- Why scripts cannot be collected. -/
inductive Error where
  | noInputs
  | notScript (path : String)
  | missing (path : String)
deriving DecidableEq, Repr

/-- The message of an error. -/
def Error.message : Error → String
  | .noInputs => "No script paths were provided"
  | .notScript path => "Script file '" ++ path ++ "' must end in .py"
  | .missing path => "Script path '" ++ path ++ "' does not exist"

/-! ### Walking -/

/-- Whether a name is hidden. -/
def isHidden (name : List Char) : Bool :=
  name.head? == some '.'

/-- Whether a path has the ending of scripts. -/
def isScript (path : List Char) : Bool :=
  Path.ending? path == some "py".toList

mutual

/-- The scripts of a tree at a path. -/
def scriptsAt (path : List Char) : FileTree → List (List Char)
  | .file _ => if isScript path then [path] else []
  | .directory entries => scriptsAmong path entries

/-- The scripts of the entries of the directory at a path. -/
def scriptsAmong (path : List Char) : List (String × FileTree) → List (List Char)
  | [] => []
  | (name, t) :: rest =>
    (if isHidden name.toList then [] else scriptsAt (Path.join path name.toList) t)
      ++ scriptsAmong path rest

end

/-- The scripts that an input stands for. -/
def scriptsOf (disk : Disk) (input : String) : Except Error (List (List Char)) :=
  match disk.find input.toList with
  | .error _ => .error (.missing input)
  | .ok (.directory entries) => .ok (scriptsAmong input.toList entries)
  | .ok (.file _) => if isScript input.toList then .ok [input.toList] else .error (.notScript input)

/-! ### Order -/

/-- Puts a path in its place, unless one with the same components is there. -/
def insertPath (path : List Char) : List (List Char) → List (List Char)
  | [] => [path]
  | q :: rest =>
    let a := Path.components path
    let b := Path.components q
    if Path.before a b then path :: q :: rest
    else if a = b then q :: rest
    else q :: insertPath path rest

/-- The scripts that inputs stand for, in order. The first input that stands for none decides
the error. -/
def collect (disk : Disk) (inputs : List String) : Except Error (List (List Char)) :=
  if inputs.isEmpty then .error .noInputs
  else
    (inputs.mapM (scriptsOf disk)).map fun found =>
      found.flatten.foldl (fun paths path => insertPath path paths) []

end Scriptorium.Collection
