/-
The formats in which manifests, commands, reports and catalogs are written.
-/

import Scriptorium.Exchange.Encode
import Scriptorium.Json.Printer
import Scriptorium.Output.Markdown
import Scriptorium.Yaml.Printer

namespace Scriptorium

/-- A format of output. -/
inductive Format where
  | json
  | yaml
  | markdown
deriving DecidableEq, Repr, Inhabited

namespace Format

/-- The format of a name. -/
def ofName? (name : String) : Option Format :=
  match name with
  | "json" => some .json
  | "yaml" => some .yaml
  | "markdown" => some .markdown
  | _ => none

/-- A tree in a format for data, or else a text. -/
def choose (format : Format) (tree : Data) (text : String) : String :=
  match format with
  | .json => Json.pretty tree
  | .yaml => Yaml.render tree
  | .markdown => text

/-- A manifest in a format. -/
def manifest (format : Format) (m : Manifest) : String :=
  format.choose m.toData (Markdown.manifest m)

/-- The commands of the script with the given identifier in a format. -/
def commands (format : Format) (identifier : String) (cs : List Command) : String :=
  format.choose (Command.listToData cs) (Markdown.commands identifier cs)

/-- A report in a format. -/
def report (format : Format) (r : Report) : String :=
  format.choose r.toData (Markdown.report r)

/-- A catalog in a format. -/
def catalog (format : Format) (c : Catalog) : String :=
  format.choose c.toData (Markdown.catalog c)

end Format

end Scriptorium
