/-
Trees of files, and what can be done with a path in one.

A path is followed step by step from the directory in which one is; each step but the last has to
lead to a directory. What cannot be done has a fault as its cause.
-/

import Scriptorium.Path

namespace Scriptorium

/-! ### Trees -/

/-- A file or a directory. -/
inductive FileTree where
  /-- A file with its text, if it has one: other bytes are no text. -/
  | file (text? : Option String)
  | directory (entries : List (String × FileTree))
deriving Inhabited

namespace FileTree

/-- The file of some bytes. -/
def ofBytes (bytes : ByteArray) : FileTree :=
  .file (String.fromUTF8? bytes)

/-- Whether a tree is a directory. -/
def isDirectory : FileTree → Bool
  | .file _ => false
  | .directory _ => true

/-- The entries of a directory. -/
def entries : FileTree → List (String × FileTree)
  | .file _ => []
  | .directory entries => entries

/-- The tree that names lead to. -/
def get? (t : FileTree) : List String → Option FileTree
  | [] => some t
  | name :: names => (t.entries.lookup name).bind fun child => get? child names

/-- Puts a tree under a name. -/
def setEntry (name : String) (child : FileTree) :
    List (String × FileTree) → List (String × FileTree)
  | [] => [(name, child)]
  | (n, t) :: rest => if n = name then (n, child) :: rest else (n, t) :: setEntry name child rest

/-- Puts a tree where names lead to, with directories on the way. -/
def set (t : FileTree) (names : List String) (new : FileTree) : FileTree :=
  match names with
  | [] => new
  | name :: names =>
    let child := (t.entries.lookup name).getD (.directory [])
    .directory (setEntry name (child.set names new) t.entries)

theorem lookup_setEntry (name : String) (child : FileTree) (entries : List (String × FileTree)) :
    (setEntry name child entries).lookup name = some child := by
  induction entries with
  | nil => simp [setEntry]
  | cons e rest ih =>
    obtain ⟨n, t⟩ := e
    by_cases h : n = name
    · subst h
      simp [setEntry]
    · have : (name == n) = false := by simp [Ne.symm h]
      simp [setEntry, h, List.lookup_cons, this, ih]

/-- What has been put is found. -/
theorem get?_set (t : FileTree) (names : List String) (new : FileTree) :
    (t.set names new).get? names = some new := by
  induction names generalizing t with
  | nil => simp [set, get?]
  | cons name names ih => simp [set, get?, entries, lookup_setEntry, ih]

end FileTree

/-! ### Faults -/

/-- Why something cannot be done with a path. -/
inductive Fault where
  | missing
  | taken
  | notDirectory
  | isDirectory
  | notText
deriving DecidableEq, Repr

/-- The message of a fault. -/
def Fault.message : Fault → String
  | .missing => "No such file or directory (os error 2)"
  | .taken => "File exists (os error 17)"
  | .notDirectory => "Not a directory (os error 20)"
  | .isDirectory => "Is a directory (os error 21)"
  | .notText => "stream did not contain valid UTF-8"

/-! ### Paths in a tree -/

/-- A tree of files and the directory in it from which paths start. -/
structure Disk where
  root : FileTree
  here : List String := []
deriving Inhabited

namespace Disk

/-- The names that the steps of a path lead to; the last of them may lead to nothing. -/
def follow (disk : Disk) (names : List String) : List (List Char) → Except Fault (List String)
  | [] => .ok names
  | step :: steps =>
    match disk.root.get? names with
    | none => .error .missing
    | some (.file _) => .error .notDirectory
    | some (.directory _) =>
      if step = [] ∨ step = ['.'] then disk.follow names steps
      else if step = ['.', '.'] then disk.follow names.dropLast steps
      else disk.follow (names ++ [String.ofList step]) steps

/-- The names that a path leads to. -/
def resolve (disk : Disk) (path : List Char) : Except Fault (List String) :=
  match path with
  | [] => .error .missing
  | c :: rest =>
    if c = '/' then disk.follow [] (Text.splitAt '/' rest)
    else disk.follow disk.here (Text.splitAt '/' path)

/-- The tree at a path. -/
def find (disk : Disk) (path : List Char) : Except Fault FileTree :=
  match disk.resolve path with
  | .error fault => .error fault
  | .ok names =>
    match disk.root.get? names with
    | some t => .ok t
    | none => .error .missing

/-- Whether a path leads to a directory. -/
def hasDirectory (disk : Disk) (path : List Char) : Bool :=
  match disk.find path with
  | .ok t => t.isDirectory
  | .error _ => false

/-- The text of the file at a path. -/
def read (disk : Disk) (path : List Char) : Except Fault String :=
  match disk.find path with
  | .error fault => .error fault
  | .ok (.directory _) => .error .isDirectory
  | .ok (.file none) => .error .notText
  | .ok (.file (some text)) => .ok text

/-! ### Building -/

/-- The names that the steps of a path lead to, whatever is there. -/
def namesFrom (names : List String) : List (List Char) → List String
  | [] => names
  | step :: steps =>
    if step = [] ∨ step = ['.'] then namesFrom names steps
    else if step = ['.', '.'] then namesFrom names.dropLast steps
    else namesFrom (names ++ [String.ofList step]) steps

/-- Puts a tree at a path, with directories on the way. -/
def place (disk : Disk) (path : List Char) (t : FileTree) : Disk :=
  let start := if path.head? = some '/' then [] else disk.here
  { disk with root := disk.root.set (namesFrom start (Text.splitAt '/' path)) t }

/-! ### Writing -/

/-- Puts a file at a path. -/
def write (disk : Disk) (path : List Char) (text : String) : Except Fault Disk :=
  match disk.resolve path with
  | .error fault =>
    .error (if fault = .missing ∧ path.getLast? = some '/' then .isDirectory else fault)
  | .ok names =>
    match disk.root.get? names with
    | some (.directory _) => .error .isDirectory
    | _ => .ok { disk with root := disk.root.set names (.file (some text)) }

/-- Makes a directory at a path at which there is nothing. -/
def makeDirectory (disk : Disk) (path : List Char) : Except Fault Disk :=
  match disk.resolve path with
  | .error fault => .error fault
  | .ok names =>
    match disk.root.get? names with
    | some _ => .error .taken
    | none => .ok { disk with root := disk.root.set names (.directory []) }

/-- Makes a directory with the directories above it, where they are missing; the components of the
path are given from the last to the first. -/
def makeDirectories (disk : Disk) : List Path.Component → Except Fault Disk
  | [] => .ok disk
  | last :: above =>
    let path := Path.textOf (last :: above).reverse
    match disk.makeDirectory path with
    | .ok disk => .ok disk
    | .error .missing =>
      match disk.makeDirectories above with
      | .error fault => .error fault
      | .ok disk =>
        match disk.makeDirectory path with
        | .ok disk => .ok disk
        | .error fault => if disk.hasDirectory path then .ok disk else .error fault
    | .error fault => if disk.hasDirectory path then .ok disk else .error fault

end Disk

end Scriptorium
