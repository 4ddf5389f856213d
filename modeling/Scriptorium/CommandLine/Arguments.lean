/-
The arguments of the command line.

Words are read from left to right: options and their values, the command, then the options and
inputs of the command. An option may be given once, in one word with its value behind an equals
sign or in two. The first word that makes no sense decides the error.
-/

import Scriptorium.Output.Format
import Scriptorium.Text.Line

namespace Scriptorium.CommandLine

/-! ### Requests -/

/-- What is asked for. -/
inductive Request where
  | metadata (input : Option String) (format : Format)
  | commands (input : Option String) (identifier : Option String) (format : Format)
  | inspect (input : String) (root baseUrl : Option String) (format : Format)
  | catalog (inputs : List String) (root output name baseUrl : Option String)
      (jobs : Option Nat) (format : Format)
deriving Repr

/-- The arguments of a run. -/
structure Arguments where
  /-- The path of a file with settings. -/
  config : Option String := none
  verbose : Bool := false
  request : Request
deriving Repr

/-- The paths of the files and directories that are read or written. -/
def Request.paths : Request → List String
  | .metadata input _ | .commands input _ _ => input.toList
  | .inspect input _ _ _ => [input]
  | .catalog inputs _ output _ _ _ _ => inputs ++ output.toList

/-- Whether the standard input is read. -/
def Request.readsInput : Request → Bool
  | .metadata none _ | .commands none _ _ => true
  | _ => false

/-- What the command line asks for. -/
inductive Invocation where
  | run (arguments : Arguments)
  | version
  | help
deriving Repr

/-- What is wrong with a command line. -/
inductive Error where
  | unexpected (word : String)
  | noCommand
  | unneededValue (option : String)
  | missingValue (option : String)
  | invalidValue (option value : String)
  | repeated (option : String)
  | missingInput
deriving DecidableEq, Repr

/-- The message of an error. -/
def Error.message : Error → String
  | .unexpected word => "unexpected argument '" ++ word ++ "' found"
  | .noCommand => "a command is required"
  | .unneededValue option => "the option '--" ++ option ++ "' takes no value"
  | .missingValue option => "a value is required for '--" ++ option ++ "'"
  | .invalidValue option value => "invalid value '" ++ value ++ "' for '--" ++ option ++ "'"
  | .repeated option => "the option '--" ++ option ++ "' cannot be used multiple times"
  | .missingInput => "an input is required"

/-! ### Options -/

/-- What an option takes. -/
inductive Kind where
  | flag
  | text
  | path
  | number
  | format
deriving DecidableEq, Repr

/-- The number that a word writes in decimal digits, if it fits into sixty-four bits. -/
def number? (word : String) : Option Nat :=
  let digits := (Text.dropStart? ['+'] word.toList).getD word.toList
  let n := digits.foldl (fun n c => n * 10 + (c.toNat - '0'.toNat)) 0
  if !digits.isEmpty && digits.all Char.isDigit && n < 0x10000000000000000 then some n else none

/-- Whether an option of a kind may have a value. A path is not empty. -/
def Kind.accepts (kind : Kind) (value : String) : Bool :=
  match kind with
  | .flag | .text => true
  | .path => value != ""
  | .number => (number? value).isSome
  | .format => (Format.ofName? value).isSome

/-- The commands. -/
inductive Name where
  | metadata
  | commands
  | inspect
  | catalog
deriving DecidableEq, Repr

/-- The command of a name. -/
def Name.ofWord? : String → Option Name
  | "metadata" => some .metadata
  | "commands" => some .commands
  | "inspect" => some .inspect
  | "catalog" => some .catalog
  | _ => none

/-- The options that may stand before and behind the command. -/
def sharedOptions : List (String × Kind) :=
  [("config", .path), ("verbose", .flag), ("help", .flag)]

/-- The options of a command; none are those that stand before it. -/
def optionsOf : Option Name → List (String × Kind)
  | none => ("version", .flag) :: sharedOptions
  | some .metadata => [("input", .path), ("format", .format)] ++ sharedOptions
  | some .commands =>
    [("input", .path), ("format", .format), ("identifier", .text)] ++ sharedOptions
  | some .inspect =>
    [("input", .path), ("root", .path), ("base-url", .text), ("format", .format)] ++ sharedOptions
  | some .catalog =>
    [("root", .path), ("output", .path), ("name", .text), ("base-url", .text), ("jobs", .number),
      ("format", .format)] ++ sharedOptions

/-- The option of a letter. -/
def longName? : Char → Option String
  | 'v' => some "verbose"
  | 'h' => some "help"
  | 'V' => some "version"
  | _ => none

/-! ### Words -/

/-- A word of the command line by its form. -/
inductive Word where
  /-- The mark behind which no word is an option. -/
  | separator
  | option (name : String) (value : Option String)
  | letters (letters : List Char)
  | plain
deriving DecidableEq, Repr

/-- The form of a word. A hyphen of its own is plain. -/
def Word.of (word : String) : Word :=
  match word.toList with
  | ['-', '-'] => .separator
  | '-' :: '-' :: rest =>
    match Text.cutAt '=' rest with
    | some (name, value) => .option (String.ofList name) (some (String.ofList value))
    | none => .option (String.ofList rest) none
  | '-' :: c :: rest => .letters (c :: rest)
  | _ => .plain

/-! ### Reading -/

/-- What has been given to a command: options with their values, and inputs. -/
structure Given where
  options : List (String × String) := []
  inputs : List String := []
deriving DecidableEq, Repr

/-- Gives an option a value. -/
def Given.add (g : Given) (kind : Kind) (option value : String) : Except Error Given :=
  if g.options.any (·.1 == option) then .error (.repeated option)
  else if kind.accepts value then .ok { g with options := g.options ++ [(option, value)] }
  else .error (.invalidValue option value)

/-- Gives flags by their letters. -/
def Given.addLetters (g : Given) (options : List (String × Kind)) (word : String) :
    List Char → Except Error Given
  | [] => .ok g
  | c :: rest =>
    match longName? c with
    | some option =>
      if options.any (·.1 == option) then
        match g.add .flag option "" with
        | .ok g =>
          if option = "help" ∨ option = "version" then .ok g else g.addLetters options word rest
        | .error e => .error e
      else .error (.unexpected word)
    | none => .error (.unexpected word)

/-- Whether help or the version is asked for, behind which nothing counts. -/
def Given.isFinal (g : Given) : Bool :=
  g.options.any fun o => o.1 == "help" || o.1 == "version"

/-- Reads the words of a command, or those before it, up to a word that is neither an option nor
an input. -/
def readWords (name : Option Name) (g : Given) (words : List String) :
    Except Error (Given × List String) :=
  if g.isFinal then .ok (g, [])
  else
    match words with
    | [] => .ok (g, [])
    | word :: rest =>
      match Word.of word with
      | .separator =>
        match name, rest with
        | some .catalog, _ =>
          if rest.all (Kind.path.accepts ·) then .ok ({ g with inputs := g.inputs ++ rest }, [])
          else .error (.invalidValue "input" "")
        | _, [] => .ok (g, [])
        | _, next :: _ => .error (.unexpected next)
      | .option option value =>
        match (optionsOf name).lookup option, value with
        | none, _ => .error (.unexpected word)
        | some .flag, some _ => .error (.unneededValue option)
        | some .flag, none =>
          match g.add .flag option "" with
          | .ok g => readWords name g rest
          | .error e => .error e
        | some kind, some value =>
          match g.add kind option value with
          | .ok g => readWords name g rest
          | .error e => .error e
        | some kind, none =>
          match rest with
          | [] => .error (.missingValue option)
          | value :: rest =>
            if Word.of value = .plain then
              match g.add kind option value with
              | .ok g => readWords name g rest
              | .error e => .error e
            else .error (.missingValue option)
      | .letters letters =>
        match g.addLetters (optionsOf name) word letters with
        | .ok g => readWords name g rest
        | .error e => .error e
      | .plain =>
        match name with
        | none => .ok (g, words)
        | some .catalog =>
          if Kind.path.accepts word then
            readWords name { g with inputs := g.inputs ++ [word] } rest
          else .error (.invalidValue "input" word)
        | some _ => .error (.unexpected word)
termination_by words.length

/-! ### Requests from what is given -/

/-- The value of an option. -/
def Given.get? (g : Given) (option : String) : Option String :=
  g.options.lookup option

/-- The format that is asked for. -/
def Given.format (g : Given) : Format :=
  ((g.get? "format").bind Format.ofName?).getD .json

/-- The request of a command. -/
def request (name : Name) (g : Given) : Except Error Request :=
  match name with
  | .metadata => .ok (.metadata (g.get? "input") g.format)
  | .commands => .ok (.commands (g.get? "input") (g.get? "identifier") g.format)
  | .inspect =>
    match g.get? "input" with
    | some input => .ok (.inspect input (g.get? "root") (g.get? "base-url") g.format)
    | none => .error (.missingValue "input")
  | .catalog =>
    if g.inputs.isEmpty then .error .missingInput
    else
      .ok (.catalog g.inputs (g.get? "root") (g.get? "output") (g.get? "name")
        (g.get? "base-url") ((g.get? "jobs").bind number?) g.format)

/-- What options before or behind the command ask for in place of a run. -/
def Given.instead? (g : Given) : Option Invocation :=
  if g.options.any (·.1 == "help") then some .help
  else if g.options.any (·.1 == "version") then some .version
  else none

/-- Reads a command line. Settings given behind the command come before those given in front of
it. -/
def read (words : List String) : Except Error Invocation := do
  let (before, rest) ← readWords none {} words
  match before.instead?, rest with
  | some invocation, _ => .ok invocation
  | none, [] => .error .noCommand
  | none, word :: rest =>
    match Name.ofWord? word with
    | none => if word = "help" then .ok .help else .error (.unexpected word)
    | some name =>
      let (given, _) ← readWords (some name) {} rest
      match given.instead? with
      | some invocation => .ok invocation
      | none =>
        let asked ← request name given
        .ok (.run {
          config := (given.get? "config").or (before.get? "config")
          verbose := (given.get? "verbose").isSome || (before.get? "verbose").isSome
          request := asked })

end Scriptorium.CommandLine
