/-
The tree of a YAML document.

The tokens are read by recursive descent. A node may have an anchor, behind which an alias stands
for the same node. Of tags only this is kept: whether a plain scalar has one, and whether that is
the tag of no value.
-/

import Scriptorium.Yaml.Token

namespace Scriptorium.Yaml

/-- How a scalar is written. -/
inductive Form where
  /-- Without quotation marks and without a tag. -/
  | plain
  /-- Without quotation marks and with the tag of no value. -/
  | plainNull
  | other
deriving DecidableEq, Repr

/-- The form of a scalar by its tag. -/
def Form.of (plain : Bool) (tag : Option (List Char)) : Form :=
  match plain, tag with
  | true, none => .plain
  | true, some name =>
    if ["!!null", "!<tag:yaml.org,2002:null>"].any (·.toList == name) then .plainNull else .other
  | false, _ => .other

/-- A node of a document. -/
inductive Node where
  | scalar (text : List Char) (form : Form)
  | sequence (items : List Node)
  | mapping (pairs : List (Node × Node))
deriving Inhabited

namespace Node

/-- A scalar that is not written at all. -/
def nothing : Node := .scalar [] .plain

/-- The anchors with their nodes, the latest first. -/
abbrev Anchors := List (List Char × Node)

/-- What reading a node gives: the node, the anchors known then, and the tokens that follow. -/
abbrev Result (α : Type) := Except Error (α × Anchors × List Token)

/-- What an alias inside the node that begins with some tokens stands for: it has no parts yet. -/
def unfinished : List Token → Node
  | .sequenceStart :: _ | .flowSequenceStart :: _ | .blockEntry :: _ => .sequence []
  | _ => .mapping []

/-- The anchor and the tag of a node, in either order. -/
def properties : List Token → Option (List Char) × Option (List Char) × List Token
  | .anchor name :: .tag tag :: rest => (some name, some tag, rest)
  | .tag tag :: .anchor name :: rest => (some name, some tag, rest)
  | .anchor name :: rest => (some name, none, rest)
  | .tag tag :: rest => (none, some tag, rest)
  | ts => (none, none, ts)

/-- Whether tokens begin with one of the given ones. -/
def startsWith (stops : List Token) (ts : List Token) : Bool :=
  ts.head?.any (stops.contains ·)

mutual

/-- Reads a node. Outside of brackets, `block` allows a block, and `indentless` a sequence that is
not indented deeper than its key. -/
def read (fuel : Nat) (block indentless : Bool) (anchors : Anchors) (ts : List Token) :
    Result Node :=
  match fuel with
  | 0 => .error .noNode
  | fuel + 1 =>
    match ts with
    | .alias name :: rest =>
      match anchors.lookup name with
      | some node => .ok (node, anchors, rest)
      | none => .error .unknownAnchor
    | ts =>
      let (anchor, tag, body) := properties ts
      let inner := match anchor with
        | some name => (name, unfinished body) :: anchors
        | none => anchors
      match readBody fuel block indentless (anchor.isSome || tag.isSome) tag inner body with
      | .error e => .error e
      | .ok (node, anchors, rest) =>
        match anchor with
        | some name => .ok (node, (name, node) :: anchors, rest)
        | none => .ok (node, anchors, rest)

/-- Reads a node behind its anchor and its tag; with either, it may be left out. -/
def readBody (fuel : Nat) (block indentless optional : Bool) (tag : Option (List Char))
    (anchors : Anchors) (ts : List Token) : Result Node :=
  match fuel with
  | 0 => .error .noNode
  | fuel + 1 =>
    match ts with
    | .scalar text plain :: rest => .ok (.scalar text (.of plain tag), anchors, rest)
    | .flowSequenceStart :: rest =>
      (readFlowSequence fuel true anchors rest).map fun (items, more) => (.sequence items, more)
    | .flowMappingStart :: rest =>
      (readFlowMapping fuel true anchors rest).map fun (pairs, more) => (.mapping pairs, more)
    | .blockEntry :: rest =>
      if indentless then
        (readEntries fuel false anchors (.blockEntry :: rest)).map fun (items, more) =>
          (.sequence items, more)
      else if optional then .ok (.scalar [] (.of true tag), anchors, ts)
      else .error .noNode
    | .sequenceStart :: rest =>
      if block then
        (readEntries fuel true anchors rest).map fun (items, more) => (.sequence items, more)
      else if optional then .ok (.scalar [] (.of true tag), anchors, ts)
      else .error .noNode
    | .mappingStart :: rest =>
      if block then
        (readPairs fuel anchors rest).map fun (pairs, more) => (.mapping pairs, more)
      else if optional then .ok (.scalar [] (.of true tag), anchors, ts)
      else .error .noNode
    | ts => if optional then .ok (.scalar [] (.of true tag), anchors, ts) else .error .noNode

/-- Reads a node, or nothing before one of the given tokens. -/
def readUnless (fuel : Nat) (stops : List Token) (block indentless : Bool) (anchors : Anchors)
    (ts : List Token) : Result Node :=
  match fuel with
  | 0 => .error .noNode
  | fuel + 1 =>
    if startsWith stops ts then .ok (nothing, anchors, ts)
    else read fuel block indentless anchors ts

/-- Reads the entries of a block sequence; `closed` says that a token ends it. -/
def readEntries (fuel : Nat) (closed : Bool) (anchors : Anchors) (ts : List Token) :
    Result (List Node) :=
  match fuel with
  | 0 => .error .noNode
  | fuel + 1 =>
    match ts with
    | .blockEntry :: rest =>
      let stops : List Token :=
        if closed then [.blockEntry, .blockEnd] else [.blockEntry, .key, .value, .blockEnd]
      match readUnless fuel stops true false anchors rest with
      | .error e => .error e
      | .ok (item, anchors, rest) =>
        (readEntries fuel closed anchors rest).map fun (items, more) => (item :: items, more)
    | .blockEnd :: rest => if closed then .ok ([], anchors, rest) else .ok ([], anchors, ts)
    | _ => if closed then .error .noEntry else .ok ([], anchors, ts)

/-- Reads the pairs of a block mapping. -/
def readPairs (fuel : Nat) (anchors : Anchors) (ts : List Token) : Result (List (Node × Node)) :=
  match fuel with
  | 0 => .error .noNode
  | fuel + 1 =>
    match ts with
    | .key :: rest =>
      match readUnless fuel [.key, .value, .blockEnd] true true anchors rest with
      | .error e => .error e
      | .ok (key, anchors, rest) =>
        let found : Result Node := match rest with
          | .value :: rest => readUnless fuel [.key, .value, .blockEnd] true true anchors rest
          | rest => .ok (nothing, anchors, rest)
        match found with
        | .error e => .error e
        | .ok (value, anchors, rest) =>
          (readPairs fuel anchors rest).map fun (pairs, more) => ((key, value) :: pairs, more)
    | .blockEnd :: rest => .ok ([], anchors, rest)
    | _ => .error .noKey

/-- Reads the items of a sequence in brackets. A key in it makes a mapping of one pair. -/
def readFlowSequence (fuel : Nat) (first : Bool) (anchors : Anchors) (ts : List Token) :
    Result (List Node) :=
  match fuel with
  | 0 => .error .noNode
  | fuel + 1 =>
    match ts with
    | .flowSequenceEnd :: rest => .ok ([], anchors, rest)
    | ts =>
      if first = false ∧ startsWith [.flowEntry] ts = false then .error .noSeparator
      else
        match if first then ts else ts.tail with
        | .flowSequenceEnd :: rest => .ok ([], anchors, rest)
        | .key :: rest =>
          match readFlowPair fuel .flowSequenceEnd anchors rest with
          | .error e => .error e
          | .ok (pair, anchors, rest) =>
            (readFlowSequence fuel false anchors rest).map fun (items, more) =>
              (.mapping [pair] :: items, more)
        | ts =>
          match read fuel false false anchors ts with
          | .error e => .error e
          | .ok (item, anchors, rest) =>
            (readFlowSequence fuel false anchors rest).map fun (items, more) =>
              (item :: items, more)

/-- Reads the pairs of a mapping in brackets. A key may stand without a value. -/
def readFlowMapping (fuel : Nat) (first : Bool) (anchors : Anchors) (ts : List Token) :
    Result (List (Node × Node)) :=
  match fuel with
  | 0 => .error .noNode
  | fuel + 1 =>
    match ts with
    | .flowMappingEnd :: rest => .ok ([], anchors, rest)
    | ts =>
      if first = false ∧ startsWith [.flowEntry] ts = false then .error .noSeparator
      else
        match if first then ts else ts.tail with
        | .flowMappingEnd :: rest => .ok ([], anchors, rest)
        | .key :: rest =>
          match readFlowPair fuel .flowMappingEnd anchors rest with
          | .error e => .error e
          | .ok (pair, anchors, rest) =>
            (readFlowMapping fuel false anchors rest).map fun (pairs, more) =>
              (pair :: pairs, more)
        | ts =>
          match read fuel false false anchors ts with
          | .error e => .error e
          | .ok (key, anchors, rest) =>
            (readFlowMapping fuel false anchors rest).map fun (pairs, more) =>
              ((key, nothing) :: pairs, more)

/-- Reads the key and the value of a pair in brackets that `close` ends. -/
def readFlowPair (fuel : Nat) (close : Token) (anchors : Anchors) (ts : List Token) :
    Result (Node × Node) :=
  match fuel with
  | 0 => .error .noNode
  | fuel + 1 =>
    match readUnless fuel [.value, .flowEntry, close] false false anchors ts with
    | .error e => .error e
    | .ok (key, anchors, .value :: rest) =>
      (readUnless fuel [.flowEntry, close] false false anchors rest).map fun (value, more) =>
        ((key, value), more)
    | .ok (key, anchors, rest) => .ok ((key, nothing), anchors, rest)

end

/-! ### Documents -/

/-- Whether a token begins or ends a document, or comes before its beginning. -/
def isBoundary (ts : List Token) : Bool :=
  ts.isEmpty || startsWith [.directive, .documentStart, .documentEnd] ts

/-- Reads the node of a document with nothing but its end behind it. Each token takes at most
four steps. -/
def readDocument (ts : List Token) : Except Error Node :=
  if isBoundary ts then
    if (ts.dropWhile (· == .documentEnd)).isEmpty then .ok nothing else .error .severalDocuments
  else
    match read (4 * ts.length + 4) true false [] ts with
    | .error e => .error e
    | .ok (node, _, rest) =>
      if (rest.dropWhile (· == .documentEnd)).isEmpty then .ok node else .error .severalDocuments

/-- Reads the only document of a text; none if there is nothing in the text. -/
def ofText? (text : List Char) : Except Error (Option Node) := do
  let ts ← tokens text
  if ts.isEmpty then return none
  else if startsWith [.directive, .documentStart] ts then
    match ts.dropWhile (· == .directive) with
    | .documentStart :: rest => return some (← readDocument rest)
    | _ => throw .noDocument
  else if startsWith [.documentEnd] ts then throw .noNode
  else return some (← readDocument ts)

end Node

end Scriptorium.Yaml
