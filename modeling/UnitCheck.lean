import UnitCheck.CheckedFile
import UnitCheck.Command.Arguments
import UnitCheck.Command.Check
import UnitCheck.Command.Invocation
import UnitCheck.Command.Run
import UnitCheck.Command.Schema
import UnitCheck.Command.Session
import UnitCheck.Config.Basic
import UnitCheck.Config.Discovery
import UnitCheck.Config.Reader
import UnitCheck.Decimal.Basic
import UnitCheck.Decimal.Binary
import UnitCheck.Decimal.Shortest
import UnitCheck.Diagnostic
import UnitCheck.Document.Basic
import UnitCheck.Document.Line
import UnitCheck.Document.Printer
import UnitCheck.Document.Reader
import UnitCheck.Failure
import UnitCheck.FileTree.Basic
import UnitCheck.FileTree.Resolve
import UnitCheck.FileTree.Walk
import UnitCheck.Json.Basic
import UnitCheck.Json.Printer
import UnitCheck.Json.Reader
import UnitCheck.LineIndex
import UnitCheck.Logged
import UnitCheck.Main
import UnitCheck.Mismatch
import UnitCheck.Output.Basic
import UnitCheck.Output.Format
import UnitCheck.Path.Basic
import UnitCheck.Path.FileName
import UnitCheck.Path.UnitFile
import UnitCheck.Proofs.ByteOrderMark
import UnitCheck.Proofs.Command.Checking
import UnitCheck.Proofs.Command.CompletionOrder
import UnitCheck.Proofs.Document.Append
import UnitCheck.Proofs.Document.Comments
import UnitCheck.Proofs.Document.Growth
import UnitCheck.Proofs.Document.Layout
import UnitCheck.Proofs.Document.LineByLine
import UnitCheck.Proofs.Document.LineKind
import UnitCheck.Proofs.Document.LineStarts
import UnitCheck.Proofs.Document.Moved
import UnitCheck.Proofs.Document.PhysicalLine
import UnitCheck.Proofs.Document.ReplacedValue
import UnitCheck.Proofs.Document.RoundTrip
import UnitCheck.Proofs.Document.Spans
import UnitCheck.Proofs.Document.Swallowed
import UnitCheck.Proofs.Document.Values
import UnitCheck.Proofs.Document.WellFormed
import UnitCheck.Proofs.FileTree.FaultyLinks
import UnitCheck.Proofs.FileTree.Following
import UnitCheck.Proofs.FileTree.Scan
import UnitCheck.Proofs.FileTree.Walk
import UnitCheck.Proofs.Findings
import UnitCheck.Proofs.Json.Grammar
import UnitCheck.Proofs.Json.Reading
import UnitCheck.Proofs.LineEnds
import UnitCheck.Proofs.LineIndex
import UnitCheck.Proofs.ListRelations
import UnitCheck.Proofs.Output.Formats
import UnitCheck.Proofs.Output.Json
import UnitCheck.Proofs.Path.Below
import UnitCheck.Proofs.Path.Components
import UnitCheck.Proofs.Path.FileName
import UnitCheck.Proofs.Path.UnitFile
import UnitCheck.Proofs.Positions
import UnitCheck.Proofs.Report.Excerpts
import UnitCheck.Proofs.Report.Printed
import UnitCheck.Proofs.Report.Rows
import UnitCheck.Proofs.Schema.Extension
import UnitCheck.Proofs.Schema.FirstFault
import UnitCheck.Proofs.Schema.Invariant
import UnitCheck.Proofs.Schema.Listing
import UnitCheck.Proofs.Schema.Merging
import UnitCheck.Proofs.Text.Decoding
import UnitCheck.Proofs.Text.Numeral
import UnitCheck.Proofs.Text.Slice
import UnitCheck.Proofs.Text.Trim
import UnitCheck.Proofs.Validation
import UnitCheck.Report.Basic
import UnitCheck.Report.Snippet
import UnitCheck.Schema.Builtin
import UnitCheck.Schema.Listing
import UnitCheck.Schema.Registry
import UnitCheck.Schema.Table
import UnitCheck.Schema.TableReader
import UnitCheck.Span
import UnitCheck.Text.Blank
import UnitCheck.Text.Bytes
import UnitCheck.Text.Numeral
import UnitCheck.Text.Quoted
import UnitCheck.Text.Utf8
import UnitCheck.Text.Visible
import UnitCheck.Text.Width
import UnitCheck.UnitInput
import UnitCheck.Yaml.Cursor
import UnitCheck.Yaml.Event
import UnitCheck.Yaml.Event.Grammar
import UnitCheck.Yaml.Fault
import UnitCheck.Yaml.Node
import UnitCheck.Yaml.Plain
import UnitCheck.Yaml.Token
import UnitCheck.Yaml.Token.Scalar
import UnitCheck.Yaml.Token.Stream
import UnitCheck.Yaml.Token.Tag
