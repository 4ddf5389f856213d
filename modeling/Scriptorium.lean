import Scriptorium.Text.Blank
import Scriptorium.Text.Line
import Scriptorium.Text.Case
import Scriptorium.Text.Numeric
import Scriptorium.Text.NamePart
import Scriptorium.Decimal.Rounding
import Scriptorium.Decimal.Shortest
import Scriptorium.Decimal.Layout
import Scriptorium.Literal.Numeral
import Scriptorium.Literal.Quoted
import Scriptorium.Literal.Reader
import Scriptorium.Literal.Strings
import Scriptorium.Identifier.Allocator
import Scriptorium.Manifest.Reader
import Scriptorium.Manifest.Display
import Scriptorium.Command.Wrapper
import Scriptorium.Inspection
import Scriptorium.Collection
import Scriptorium.Exchange.Settings
import Scriptorium.CommandLine.Run
import Scriptorium.Catalog.Timestamp
import Scriptorium.Json.Printer
import Scriptorium.Json.Reader
import Scriptorium.Catalog.Basic
import Scriptorium.Catalog.Assembly
import Scriptorium.Exchange.Decode
import Scriptorium.Yaml.Printer
import Scriptorium.Output.Format
import Scriptorium.Main
import Scriptorium.Proofs.Text.CharacterClass
import Scriptorium.Proofs.Literal.Trivia
import Scriptorium.Proofs.Literal.Numeral
import Scriptorium.Proofs.Literal.Quoted
import Scriptorium.Proofs.Literal.Step
import Scriptorium.Proofs.Literal.Spelling
import Scriptorium.Proofs.Literal.Parts
import Scriptorium.Proofs.Literal.SourceForm
import Scriptorium.Proofs.Literal.Lexeme
import Scriptorium.Proofs.Literal.Names
import Scriptorium.Proofs.Text.Line
import Scriptorium.Proofs.Manifest.Block
import Scriptorium.Proofs.Literal.Strings
import Scriptorium.Proofs.Manifest.RoundTrip
import Scriptorium.Proofs.Catalog.VersionOrder
import Scriptorium.Proofs.Catalog.Selection
import Scriptorium.Proofs.Manifest.Insertion
import Scriptorium.Proofs.Manifest.Run
import Scriptorium.Proofs.Manifest.Assignment
import Scriptorium.Proofs.Manifest.ItemRow
import Scriptorium.Proofs.Manifest.ListLine
import Scriptorium.Proofs.Manifest.Layout
import Scriptorium.Proofs.Manifest.Remark
import Scriptorium.Proofs.Identifier.Allocation
import Scriptorium.Proofs.Catalog.Records
import Scriptorium.Proofs.Command.Signature
import Scriptorium.Proofs.Exchange.Decoding
import Scriptorium.Proofs.Exchange.Form
import Scriptorium.Proofs.Exchange.Literal
import Scriptorium.Proofs.Exchange.RoundTrip
import Scriptorium.Proofs.Manifest.LineEnd
import Scriptorium.Proofs.Manifest.ScalarChange
import Scriptorium.Proofs.Catalog.WrapperName
import Scriptorium.Proofs.Path.Component
import Scriptorium.Proofs.Collection.Order
import Scriptorium.Proofs.CommandLine.CatalogPaths
import Scriptorium.Proofs.Command.ParameterKinds
import Scriptorium.Proofs.Manifest.IdleLine
import Scriptorium.Proofs.Manifest.QuotedScalar
import Scriptorium.Proofs.Literal.BareWord
import Scriptorium.Proofs.Literal.IntegerRange
import Scriptorium.Proofs.Literal.Position
import Scriptorium.Proofs.Catalog.VersionNumbers
import Scriptorium.Proofs.Catalog.PreRelease
import Scriptorium.Proofs.Manifest.BareItem
import Scriptorium.Proofs.Catalog.Exclusion
import Scriptorium.Proofs.CommandLine.DefaultRoot
import Scriptorium.Proofs.Catalog.Seed
import Scriptorium.Proofs.Exchange.FiniteNumber
import Scriptorium.Proofs.Text.Solid
import Scriptorium.Proofs.Command.Docstring
import Scriptorium.Proofs.Output.Table
import Scriptorium.Proofs.Script.Chain
import Scriptorium.Proofs.Script.Module
import Scriptorium.Proofs.Command.Marking
import Scriptorium.Proofs.Command.Spacing
import Scriptorium.Proofs.Script.Munch
import Scriptorium.Proofs.Script.StringEnd
import Scriptorium.Proofs.Script.Rescan
import Scriptorium.Proofs.Script.Lexeme
import Scriptorium.Proofs.Command.Annotation
import Scriptorium.Proofs.Text.Occurrence
import Scriptorium.Proofs.Manifest.BulletList
import Scriptorium.Proofs.Text.Pattern
import Scriptorium.Proofs.Manifest.BlockSearch
import Scriptorium.Proofs.FileTree.Following
import Scriptorium.Proofs.FileTree.Relisting
import Scriptorium.Proofs.Collection.Walk
import Scriptorium.Proofs.Collection.Collected
import Scriptorium.Proofs.FileTree.Writing
import Scriptorium.Proofs.CommandLine.CatalogRun
import Scriptorium.Proofs.Manifest.Operation
import Scriptorium.Proofs.Manifest.Source
import Scriptorium.Proofs.Path.Spelling
import Scriptorium.Proofs.Path.Relative
import Scriptorium.Proofs.Script.Origin
import Scriptorium.Proofs.Command.ParameterName
import Scriptorium.Proofs.Command.Respacing
