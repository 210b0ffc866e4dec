import Transclusion.Command.Run
import Transclusion.Command.Session
import Transclusion.CommandLine.Arguments
import Transclusion.CommandLine.Grammar
import Transclusion.Configuration.Bundled
import Transclusion.Configuration.Coercion
import Transclusion.Configuration.Expansion
import Transclusion.Configuration.Layers
import Transclusion.Configuration.Loading
import Transclusion.Configuration.Overrides
import Transclusion.Configuration.Sections
import Transclusion.Decimal.Binary64
import Transclusion.Decimal.Integer
import Transclusion.Decimal.Shortest
import Transclusion.Directive.Basic
import Transclusion.Directive.Parameters
import Transclusion.Encoding
import Transclusion.Expansion
import Transclusion.Failure
import Transclusion.FileSystem.Basic
import Transclusion.FileSystem.Data
import Transclusion.FileSystem.Listing
import Transclusion.Json.Fault
import Transclusion.Json.Printer
import Transclusion.Json.Reader
import Transclusion.Log.Channel
import Transclusion.Log.Record
import Transclusion.Main
import Transclusion.OrderedMap
import Transclusion.Output
import Transclusion.Path
import Transclusion.Placeholder
import Transclusion.Preprocess
import Transclusion.Proofs.Command.Exit
import Transclusion.Proofs.Command.History
import Transclusion.Proofs.Command.Logging
import Transclusion.Proofs.Command.Program
import Transclusion.Proofs.Command.Quiet
import Transclusion.Proofs.Command.Restored
import Transclusion.Proofs.Command.Silent
import Transclusion.Proofs.Command.Sparing
import Transclusion.Proofs.Command.Steps
import Transclusion.Proofs.Command.Target
import Transclusion.Proofs.Configuration.Assignment
import Transclusion.Proofs.Configuration.Coercion
import Transclusion.Proofs.Configuration.Depth
import Transclusion.Proofs.Configuration.Layers
import Transclusion.Proofs.Configuration.Names
import Transclusion.Proofs.Configuration.Overrides
import Transclusion.Proofs.Decimal.Binary64
import Transclusion.Proofs.Decimal.Integer
import Transclusion.Proofs.Directive.Canonical
import Transclusion.Proofs.Directive.Keyword
import Transclusion.Proofs.Directive.Lines
import Transclusion.Proofs.Directive.Parameters
import Transclusion.Proofs.Directive.Pieces
import Transclusion.Proofs.Directive.Quotes
import Transclusion.Proofs.Directive.Search
import Transclusion.Proofs.Directive.Substituted
import Transclusion.Proofs.Expansion.Accounting
import Transclusion.Proofs.Expansion.Below
import Transclusion.Proofs.Expansion.Breaks
import Transclusion.Proofs.Expansion.Chain
import Transclusion.Proofs.Expansion.Composition
import Transclusion.Proofs.Expansion.Dependence
import Transclusion.Proofs.Expansion.Depth
import Transclusion.Proofs.Expansion.Document
import Transclusion.Proofs.Expansion.Emission
import Transclusion.Proofs.Expansion.Failing
import Transclusion.Proofs.Expansion.Guard
import Transclusion.Proofs.Expansion.Lines
import Transclusion.Proofs.Expansion.Passage
import Transclusion.Proofs.Expansion.Progress
import Transclusion.Proofs.Expansion.Replay
import Transclusion.Proofs.Expansion.Resolve
import Transclusion.Proofs.Expansion.Run
import Transclusion.Proofs.Expansion.Steps
import Transclusion.Proofs.FileSystem.Failing
import Transclusion.Proofs.FileSystem.Frame
import Transclusion.Proofs.FileSystem.Growth
import Transclusion.Proofs.FileSystem.Listing
import Transclusion.Proofs.FileSystem.Overwrite
import Transclusion.Proofs.FileSystem.Spared
import Transclusion.Proofs.Json.Ascii
import Transclusion.Proofs.Json.Whole
import Transclusion.Proofs.Library
import Transclusion.Proofs.OrderedMap
import Transclusion.Proofs.Placeholder.Apart
import Transclusion.Proofs.Placeholder.Literal
import Transclusion.Proofs.Placeholder.Scan
import Transclusion.Proofs.Placeholder.Simultaneous
import Transclusion.Proofs.Preprocess
import Transclusion.Proofs.Region.Edits
import Transclusion.Proofs.Region.Enumeration
import Transclusion.Proofs.Region.Layout
import Transclusion.Proofs.Region.Marker
import Transclusion.Proofs.Region.ReadBack
import Transclusion.Proofs.Region.Removal
import Transclusion.Proofs.Region.Scan
import Transclusion.Proofs.Region.Seams
import Transclusion.Proofs.Region.Spans
import Transclusion.Proofs.Scope
import Transclusion.Proofs.Text.Case
import Transclusion.Proofs.Text.Order
import Transclusion.Proofs.Text.Search
import Transclusion.Proofs.Text.Trim
import Transclusion.Proofs.Text.Utf8
import Transclusion.Proofs.Transform
import Transclusion.Proofs.Value.Keys
import Transclusion.Proofs.Value.Tree
import Transclusion.Proofs.Yaml.Scalar
import Transclusion.Region
import Transclusion.Report
import Transclusion.Scope
import Transclusion.SourceIndex
import Transclusion.Text.Alphanumeric
import Transclusion.Text.Base64
import Transclusion.Text.Basic
import Transclusion.Text.Blank
import Transclusion.Text.Case
import Transclusion.Text.Digit
import Transclusion.Text.Printable
import Transclusion.Text.Quoted
import Transclusion.Text.Ranges
import Transclusion.Text.Surrogates
import Transclusion.Text.Utf8
import Transclusion.Transform
import Transclusion.Uuid
import Transclusion.Value.Basic
import Transclusion.Value.Display
import Transclusion.Value.Members
import Transclusion.Value.Moment
import Transclusion.Value.Store
import Transclusion.VariablesFile
import Transclusion.Yaml.Block
import Transclusion.Yaml.Cursor
import Transclusion.Yaml.Document
import Transclusion.Yaml.Node
import Transclusion.Yaml.Plain
import Transclusion.Yaml.Quoted
import Transclusion.Yaml.Scalar
import Transclusion.Yaml.Source
import Transclusion.Yaml.Tag
import Transclusion.Yaml.Token
