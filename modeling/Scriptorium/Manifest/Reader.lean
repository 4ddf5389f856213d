/-
Reading a manifest block, tolerantly and line by line.

A line with an equals sign begins an entry. A scalar is held until the next line that is not a
remark; a list without its closing bracket goes on over the comment lines that follow. A line
that makes no sense never stops the reading: it leaves a warning. What a line adds to the
manifest is a list of events, so that the manifest is the entries of the events put in order.
-/

import Scriptorium.Literal.Strings
import Scriptorium.Manifest.Basic
import Scriptorium.Manifest.Block

namespace Scriptorium.Manifest

/-! ### Warnings -/

/-- What was recovered from while reading a block. -/
inductive Warning where
  | scalarCut (key line : String)
  | listCut (key line : String)
  | unclosedList (key : String)
  | missingKey (line : String)
  | emptiedList (key : String) (error : Literal.Error)
  | keptRaw (key : String) (error : Literal.Error)
  | coercedScalar (key : String)
  | ignoredSource
deriving DecidableEq, Repr

/-- The text of a warning. -/
def Warning.message : Warning → String
  | .scalarCut key line => "value for '" ++ key ++ "' terminated by non-comment line: " ++ line
  | .listCut key line => "list for '" ++ key ++ "' terminated by non-comment line: " ++ line
  | .unclosedList key => "list for '" ++ key ++ "' is missing its closing ']'"
  | .missingKey line => "skipping assignment without a key: " ++ line
  | .emptiedList key error =>
    "malformed list for '" ++ key ++ "' (" ++ error.message ++ "); using empty list"
  | .keptRaw key error =>
    "malformed list for '" ++ key ++ "' (" ++ error.message ++ "); keeping raw text"
  | .coercedScalar key => "'" ++ key ++ "' is not a list; coercing scalar value"
  | .ignoredSource => "'" ++ externalSourceKey ++ "' is a list; ignoring it as script source"

/-- What reading a line yields. -/
inductive Event where
  | entry (key : String) (value : Value)
  | warning (w : Warning)
deriving DecidableEq, Repr

/-- The entry of an event. -/
def Event.entry? : Event → Option (String × Value)
  | .entry key value => some (key, value)
  | .warning _ => none

/-- The warning of an event. -/
def Event.warning? : Event → Option Warning
  | .entry _ _ => none
  | .warning w => some w

/-! ### Parts of lines -/

/-- Drops the comment marks and blanks at the beginning of a line. -/
def dropMarks (s : List Char) : List Char :=
  s.dropWhile fun c => c == '#' || c == ' ' || c == '\t'

/-- Drops double quotation marks at both ends, then single ones. -/
def dropQuotes (s : List Char) : List Char :=
  Text.trimWhile (· == '\'') (Text.trimWhile (· == '"') s)

/-- A bracket or a comma. -/
def isListMark (c : Char) : Bool :=
  c == '[' || c == ']' || c == ','

/-- The items on one line of a list: literals if they can be read as such, else one item. -/
def lineItems (content : List Char) : List String :=
  let body := Text.trim (Text.trimWhile isListMark (Text.trim content))
  if body.isEmpty then []
  else
    match Literal.parseStrings (String.ofList ('[' :: (body ++ ['\n', ']']))) with
    | .ok items => items.filter (· ≠ "")
    | .error _ =>
      let item := Text.trim (dropQuotes body)
      if item.isEmpty then [] else [String.ofList item]

/-- Whether a line is a comment. -/
def isComment (line : List Char) : Bool :=
  line.head? == some '#'

/-! ### Entries -/

/-- What has been begun and not yet entered. -/
inductive Pending where
  | nothing
  | scalar (key value : String)
  | list (key : String) (items : List String)
deriving DecidableEq, Repr

/-- Enters a scalar; one for the dependencies is coerced, with a warning. -/
def enterScalar (key value : String) : List Event :=
  (if key = dependenciesKey then [.warning (.coercedScalar key)] else [])
    ++ [.entry key (.scalar value)]

/-- Enters a list that stands on one line. What is malformed becomes an empty list of
dependencies, or is kept as it is written under any other key. -/
def enterList (key : String) (value : List Char) : List Event :=
  match Literal.parseStrings (String.ofList value) with
  | .ok items => [.entry key (.list items)]
  | .error error =>
    if key = dependenciesKey then [.warning (.emptiedList key error), .entry key (.list [])]
    else
      [.warning (.keptRaw key error), .entry key (.scalar (String.ofList (dropQuotes value)))]

/-- Begins the entry of a key. -/
def beginValue (key : String) (value : List Char) : Pending × List Event :=
  match value with
  | '[' :: head =>
    if head.getLast? = some ']' then (.nothing, enterList key value)
    else (.list key (lineItems head), [])
  | _ => (.scalar key (String.ofList (dropQuotes value)), [])

/-- Begins the entry of a line with an equals sign. -/
def beginEntry (line : List Char) : Pending × List Event :=
  match Text.cutAt '=' line with
  | none => (.nothing, [])
  | some (left, right) =>
    let key := Text.trim (dropMarks left)
    if key.isEmpty then (.nothing, [.warning (.missingKey (String.ofList line))])
    else beginValue (String.ofList key) (Text.trim right)

/-! ### Lines -/

/-- Reads one trimmed line. -/
def step (pending : Pending) (line : List Char) : Pending × List Event :=
  match pending with
  | .nothing => if '=' ∈ line then beginEntry line else (.nothing, [])
  | .scalar key value =>
    if '=' ∈ line then
      let (next, events) := beginEntry line
      (next, enterScalar key value ++ events)
    else if isComment line then (.scalar key value, [])
    else
      (.nothing, .warning (.scalarCut key (String.ofList line)) :: enterScalar key value)
  | .list key items =>
    if isComment line then
      let items := items ++ lineItems (dropMarks line)
      if line.getLast? = some ']' then (.nothing, [.entry key (.list items)])
      else (.list key items, [])
    else
      (.nothing, [.warning (.listCut key (String.ofList line)), .entry key (.list items)])

/-- Enters what is pending at the end of the block. -/
def finish : Pending → List Event
  | .nothing => []
  | .scalar key value => enterScalar key value
  | .list key items => [.warning (.unclosedList key), .entry key (.list items)]

/-- Reads trimmed lines to the end of the block. -/
def readLines (pending : Pending) : List (List Char) → List Event
  | [] => finish pending
  | line :: rest =>
    let (next, events) := step pending line
    events ++ readLines next rest

/-- What reading a block yields. -/
def eventsOf (block : List Char) : List Event :=
  readLines .nothing ((Text.lines (Text.trim block)).map Text.trim)

/-! ### Manifests -/

/-- The manifest with the entries of a list of events. -/
def ofEvents (events : List Event) : Manifest :=
  (events.filterMap Event.entry?).foldl (fun m entry => m.insert entry.1 entry.2) {}

/-- Takes the source of a script from the entry that names it. -/
def withExternalSource (m : Manifest) : Manifest × List Warning :=
  match m.get? externalSourceKey with
  | some (.scalar source) => ({ m with source := some source }, [])
  | some (.list _) => (m, [.ignoredSource])
  | none => (m, [])

/-- A manifest with the warnings that reading it left. -/
structure Reading where
  manifest : Manifest := {}
  warnings : List Warning := []

/-- Reads the manifest of a script; without a block it is empty. -/
def read (text : String) : Reading :=
  match block? text.toList with
  | none => {}
  | some block =>
    let events := eventsOf block
    let (manifest, more) := (ofEvents events).withExternalSource
    ⟨manifest, events.filterMap Event.warning? ++ more⟩

end Scriptorium.Manifest
