/-
What a command line does.

A run takes the files, the standard input and the time as they are, and its outcome holds all that
it does: the status, the two outputs, and the file that it writes.
-/

import Scriptorium.Catalog.Assembly
import Scriptorium.Collection
import Scriptorium.CommandLine.Arguments
import Scriptorium.Exchange.Settings
import Scriptorium.Inspection

namespace Scriptorium.CommandLine

/-! ### Outcomes -/

/-- What a run finds. -/
structure Surroundings where
  disk : Disk
  /-- The text of the standard input, if it is one. -/
  input : Option String := some ""
  /-- The time at which catalogs are made. -/
  now : String

/-- What a run does. -/
structure Outcome where
  status : Nat := 0
  output : String := ""
  /-- What goes to the standard error output. -/
  complaints : String := ""
  disk : Disk
  /-- The path and the text of the file that has been written. -/
  written : Option (String × String) := none

/-- The outcome of an error. -/
def failure (disk : Disk) (status : Nat) (message : String) : Outcome :=
  { status, complaints := "error: " ++ message ++ "\n", disk }

/-- The outcome of a text, which ends with a line end. -/
def printed (disk : Disk) (complaints : List String) (text : String) : Outcome :=
  { output := if text.toList.getLast? = some '\n' then text else text ++ "\n"
    complaints := String.join (complaints.map (· ++ "\n"))
    disk }

/-! ### One script -/

/-- The name of the program. -/
def programName : String := "script-inspect"

/-- The version of the program, which is also that of its catalogs. -/
def programVersion : String := "0.1.0"

/-- The text to read, from a file or from the standard input. -/
def sourceOf (s : Surroundings) : Option String → Except String String
  | none =>
    match s.input with
    | some text => .ok text
    | none => .error ("Failed to read stdin: " ++ Fault.notText.message)
  | some path =>
    (s.disk.read path.toList).mapError fun fault =>
      "Failed to read '" ++ path ++ "': " ++ fault.message

/-- Prints a manifest. -/
def runMetadata (s : Surroundings) (input : Option String) (format : Format) : Outcome :=
  match sourceOf s input with
  | .error message => failure s.disk 1 message
  | .ok source =>
    let reading := Manifest.read source
    printed s.disk (reading.warnings.map fun w => "warning: " ++ w.message)
      (format.manifest reading.manifest)

/-- The identifier under which commands are printed. -/
def identifierOf (input identifier : Option String) : String :=
  match identifier, input with
  | some identifier, _ => Identifier.sanitize identifier
  | none, some path => Identifier.sanitize (Catalog.identifierSeed path)
  | none, none => "script"

/-- Prints the commands of a script. -/
def runCommands (s : Surroundings) (config : Config) (input identifier : Option String)
    (format : Format) : Outcome :=
  match sourceOf s input with
  | .error message => failure s.disk 1 message
  | .ok source =>
    printed s.disk []
      (format.commands (identifierOf input identifier) (Command.extract config.extractor source))

/-- The directory below which a script is reported: the one that holds it, or for a file that is
named for a version, the one above. -/
def defaultRoot (input : List Char) : List Path.Component :=
  let above := (Path.parentOf? (Path.components input)).getD []
  if Catalog.seedOf input = (Path.stem? input).getD [] then above
  else (Path.parentOf? above).getD []

/-- The settings with another base address. -/
def withBaseUrl (config : Config) (baseUrl : Option String) : Config :=
  { config with baseUrl := baseUrl.getD config.baseUrl }

/-- Prints all that is found in a script. -/
def runInspect (s : Surroundings) (config : Config) (input : String) (root : Option String)
    (format : Format) : Outcome :=
  let below := match root with
    | some root => Path.components root.toList
    | none => defaultRoot input.toList
  match Report.ofFile config s.disk below input.toList with
  | .error fault =>
    failure s.disk 1 ("Failed to inspect '" ++ input ++ "': I/O error: " ++ fault.message)
  | .ok report =>
    printed s.disk (report.warnings.map fun w => "warning: " ++ report.path ++ ": " ++ w)
      (format.report report)

/-! ### Catalogs -/

/-- The directory below which the scripts of a catalog are reported. -/
def catalogRoot (disk : Disk) (root : Option String) (inputs : List String) :
    List Path.Component :=
  match root, inputs.find? fun input => disk.hasDirectory input.toList with
  | some root, _ => Path.components root.toList
  | none, some directory => Path.components directory.toList
  | none, none => defaultRoot (inputs.headD "").toList

/-- The reports of the scripts that can be read, and a line for each of the others. -/
def inspectAll (config : Config) (disk : Disk) (root : List Path.Component) :
    List (List Char) → List Report × List String
  | [] => ([], [])
  | path :: paths =>
    let (reports, failures) := inspectAll config disk root paths
    match Report.ofFile config disk root path with
    | .ok report => (report :: reports, failures)
    | .error fault =>
      (reports, (String.ofList path ++ ": I/O error: " ++ fault.message) :: failures)

/-- Writes a text to a file, with the directories above it. -/
def save (disk : Disk) (path text : String) : Except String Disk :=
  let parent := (Path.parentText? path.toList).getD []
  match disk.makeDirectories (Path.components parent).reverse with
  | .error fault =>
    .error ("Failed to create output directory '" ++ String.ofList parent ++ "': "
      ++ fault.message)
  | .ok disk =>
    (disk.write path.toList text).mapError fun fault =>
      "Failed to write '" ++ path ++ "': " ++ fault.message

/-- Adds the scripts that could not be read to an outcome, whose status they change. -/
def withFailures (o : Outcome) : List String → Outcome
  | [] => o
  | failures =>
    { o with
      status := 1
      complaints := "\nFailures:\n" ++ String.join (failures.map fun f => "  " ++ f ++ "\n")
        ++ "error: " ++ toString failures.length ++ " script(s) could not be inspected\n" }

/-- Makes a catalog, and prints it or writes it to a file. -/
def runCatalog (s : Surroundings) (config : Config) (inputs : List String)
    (root output : Option String) (format : Format) : Outcome :=
  match Collection.collect s.disk inputs with
  | .error e => failure s.disk 1 ("invalid input: " ++ e.message)
  | .ok paths =>
    let (reports, failures) := inspectAll config s.disk (catalogRoot s.disk root inputs) paths
    let catalog := Catalog.build config programVersion s.now reports
    let text := format.catalog catalog
    match output with
    | none => withFailures { output := text, disk := s.disk } failures
    | some path =>
      match save s.disk path text with
      | .error message => failure s.disk 1 message
      | .ok disk =>
        let line := "Cataloged " ++ toString catalog.scripts.length ++ " script(s) into '"
          ++ path ++ "'.\n"
        withFailures { output := line, disk, written := some (path, text) } failures

/-! ### Runs -/

/-- Does what is asked for. How many scripts a catalog run inspects at a time is of no account for
what it does: the threads that are asked for are taken to be granted, and the results of all of them
are in the order of the paths. -/
def answer (s : Surroundings) (config : Config) : Request → Outcome
  | .metadata input format => runMetadata s input format
  | .commands input identifier format => runCommands s config input identifier format
  | .inspect input root baseUrl format =>
    runInspect s (withBaseUrl config baseUrl) input root format
  | .catalog inputs root output name baseUrl _ format =>
    let config := withBaseUrl config baseUrl
    let name := name.or config.catalog.name
    runCatalog s { config with catalog := { config.catalog with name } } inputs root output format

/-- The settings of a run. -/
def configOf (disk : Disk) : Option String → Except String Config
  | none => .ok {}
  | some path =>
    (Config.load disk path.toList).mapError fun e =>
      "Failed to load config '" ++ path ++ "': " ++ e.message

/-- A short text about the program. -/
def helpText : String :=
  "Extract embedded manifests and command signatures from scripts\n\n"
    ++ "Usage: " ++ programName ++ " [OPTIONS] <COMMAND>\n\n"
    ++ "Commands:\n  metadata\n  commands\n  inspect\n  catalog\n"

/-- Does what a command line asks for. -/
def run (s : Surroundings) (words : List String) : Outcome :=
  match read words with
  | .error e => failure s.disk 2 e.message
  | .ok .version => printed s.disk [] (programName ++ " " ++ programVersion)
  | .ok .help => printed s.disk [] helpText
  | .ok (.run arguments) =>
    match configOf s.disk arguments.config with
    | .error message => failure s.disk 1 message
    | .ok config => answer s config arguments.request

end Scriptorium.CommandLine
