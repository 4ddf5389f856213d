/-
Manifests, commands, reports and catalogs as Markdown.

Tables have one row for each entry, parameter or script. In a cell a bar is escaped and a line
feed becomes a space.
-/

import Scriptorium.Catalog.Basic
import Scriptorium.Command.Wrapper
import Scriptorium.Identifier.Basic
import Scriptorium.Manifest.Display

namespace Scriptorium.Markdown

/-! ### Tables -/

/-- A text in a cell of a table. -/
def cellChars (s : List Char) : List Char :=
  Text.replaceChar '\n' [' '] (Text.replaceChar '|' ['\\', '|'] s)

/-- A text in a cell of a table. -/
def cell (s : String) : String :=
  String.ofList (cellChars s.toList)

/-- A text set as code. -/
def code (s : String) : String :=
  "`" ++ s ++ "`"

/-- A row of a table. -/
def row (cells : List String) : String :=
  "| " ++ " | ".intercalate cells ++ " |\n"

/-- The rows of the entries of a manifest. -/
def manifestRows (m : Manifest) : List String :=
  m.rows.map fun r => row [r.label, cell r.value]

/-- A manifest as a table. -/
def manifest (m : Manifest) : String :=
  if m.rows.isEmpty then "_No metadata._\n"
  else "| Key | Value |\n" ++ "|-----|-------|\n" ++ String.join (manifestRows m)

/-! ### Commands -/

/-- The default of a parameter in a table. -/
def defaultText : Default → String
  | .absent => "-"
  | .computed => "(computed)"
  | .literal v => code v.text

/-- The kind of a parameter in a table. -/
def kindText : ParameterKind → String
  | .positionalOrKeyword => "positional or keyword"
  | .positionalOnly => "positional only"
  | .keywordOnly => "keyword only"

/-- The row of a parameter. -/
def parameterRow (p : Parameter) : String :=
  row [code p.name, code (cell p.type), cell (defaultText p.default), kindText p.kind]

/-- The parameters of a command as a table. -/
def parameters (ps : List Parameter) : String :=
  if ps.isEmpty then ""
  else
    "| Parameter | Type | Default | Kind |\n" ++ "|-----------|------|---------|------|\n"
      ++ String.join (ps.map parameterRow) ++ "\n"

/-- A command of the script with the given identifier. -/
def command (identifier : String) (c : Command) : String :=
  "### " ++ code c.invocationName ++ "\n\n"
    ++ (match c.docstring with
      | some doc => doc ++ "\n\n"
      | none => "")
    ++ "```python\n" ++ c.wrapper (Identifier.wrapperName identifier c.name) ++ "\n```\n\n"
    ++ parameters c.parameters

/-- The commands of the script with the given identifier. -/
def commands (identifier : String) (cs : List Command) : String :=
  if cs.isEmpty then "_No commands._\n" else String.join (cs.map (command identifier))

/-! ### Reports and catalogs -/

/-- The warnings of a report. -/
def warnings (ws : List String) : String :=
  if ws.isEmpty then ""
  else "## Warnings\n\n" ++ String.join (ws.map fun w => "- " ++ w ++ "\n")

/-- A report. -/
def report (r : Report) : String :=
  "# " ++ r.manifest.title ++ "\n\n" ++ r.manifest.description ++ "\n\n"
    ++ "- **Path:** " ++ code r.path ++ "\n\n"
    ++ "## Metadata\n\n" ++ manifest r.manifest ++ "\n"
    ++ "## Commands\n\n" ++ commands (Identifier.sanitize r.identifierSeed) r.commands
    ++ warnings r.warnings

/-- The row of a script. -/
def recordRow (r : Catalog.Record) : String :=
  row [code r.identifier, cell r.manifest.title,
    ", ".intercalate (r.commands.map fun c => code c.invocationName), code r.path]

/-- A catalog. -/
def catalog (c : Catalog) : String :=
  "# " ++ c.name.getD "Script Catalog" ++ "\n\n"
    ++ "- **Version:** " ++ c.version ++ "\n"
    ++ "- **Generated:** " ++ c.generatedAt ++ "\n"
    ++ "- **Scripts:** " ++ toString c.scripts.length ++ "\n\n"
    ++ if c.scripts.isEmpty then ""
      else
        "| Identifier | Title | Commands | Path |\n" ++ "|------------|-------|----------|------|\n"
          ++ String.join (c.scripts.map recordRow)

end Scriptorium.Markdown
