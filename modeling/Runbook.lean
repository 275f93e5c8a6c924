import Runbook.Calendar.Basic
import Runbook.Calendar.Iso
import Runbook.CommandLine.Basic
import Runbook.CommandLine.Command
import Runbook.CommandLine.Options
import Runbook.CommandLine.Reply
import Runbook.Document.Annotation
import Runbook.Document.Artifact
import Runbook.Document.Classification
import Runbook.Document.Detector
import Runbook.Document.Manifest
import Runbook.Files.Path
import Runbook.Files.Tree
import Runbook.Host.Basic
import Runbook.Host.Process
import Runbook.Host.Workspace
import Runbook.Json.Printer
import Runbook.Json.Reader
import Runbook.Log.Basic
import Runbook.Log.Reading
import Runbook.Log.Template
import Runbook.Main
import Runbook.Markup.ContentLink
import Runbook.Markup.Directive
import Runbook.Markup.Fence
import Runbook.Markup.Forest
import Runbook.Markup.Sanitize
import Runbook.Markup.Token
import Runbook.Markup.Tree
import Runbook.Markup.ZeroWidth
import Runbook.Number.Binary64
import Runbook.Number.Decimal
import Runbook.Number.Numeral
import Runbook.Number.Shortest
import Runbook.Outcome.Basic
import Runbook.Pipeline.Basic
import Runbook.Pipeline.Provider
import Runbook.Pipeline.Sink
import Runbook.Plan.Basic
import Runbook.Plan.Draft
import Runbook.Preflight.Basic
import Runbook.Report.Basic
import Runbook.Report.Display
import Runbook.Report.File
import Runbook.Runner.Basic
import Runbook.Runner.Batch
import Runbook.Runner.Execution
import Runbook.Runner.Single
import Runbook.Settings.Basic
import Runbook.Settings.Reading
import Runbook.Settings.Substitution
import Runbook.Settings.Template
import Runbook.Sql.Statement
import Runbook.Text.Basic
import Runbook.Text.Blank
import Runbook.Text.Digit
import Runbook.Text.Fold
import Runbook.Text.Lower
import Runbook.Text.Pieces
import Runbook.Text.Printable
import Runbook.Text.Ranges
import Runbook.Text.Utf8
import Runbook.Text.WordChar
import Runbook.Text.Words
import Runbook.Value.Basic
import Runbook.Value.Convert
import Runbook.Value.Fault
import Runbook.Value.Show
import Runbook.Yaml.Cursor
import Runbook.Yaml.Data
import Runbook.Yaml.Document
import Runbook.Yaml.Node
import Runbook.Yaml.Scalar
import Runbook.Yaml.Tag
import Runbook.Yaml.Token
import Runbook.Yaml.Value
import Runbook.Proofs.Markup.Mark
import Runbook.Proofs.Markup.Redaction
import Runbook.Proofs.Markup.Stream
import Runbook.Proofs.Markup.Run
import Runbook.Proofs.Markup.Block
import Runbook.Proofs.Markup.Segment
import Runbook.Proofs.Markup.Coverage
import Runbook.Proofs.Markup.Grammar
import Runbook.Proofs.Markup.Comment
import Runbook.Proofs.Text.Case
import Runbook.Proofs.Text.Lines
import Runbook.Proofs.Value.Fault
import Runbook.Proofs.Document.Detection
import Runbook.Proofs.Document.Disarmed
import Runbook.Proofs.Markup.FenceLine
import Runbook.Proofs.Markup.FencedBlock
import Runbook.Proofs.Markup.DirectiveLine
import Runbook.Proofs.Markup.FenceEnd
import Runbook.Proofs.Markup.FenceReaders
import Runbook.Proofs.Markup.ZeroWidth
import Runbook.Proofs.Markup.HiddenOctets
import Runbook.Proofs.Document.PreCheck
import Runbook.Proofs.Document.Legible
import Runbook.Proofs.Report.Fenced
import Runbook.Proofs.Report.Enclosed
import Runbook.Proofs.Report.Tail
import Runbook.Proofs.Report.Rendered
import Runbook.Proofs.Report.Row
import Runbook.Proofs.Report.Tables
import Runbook.Proofs.Json.Excess
import Runbook.Proofs.Document.FileBlock
import Runbook.Proofs.Host.Action
import Runbook.Proofs.Runner.Execution
import Runbook.Proofs.Runner.Batch
import Runbook.Proofs.Markup.Stretch
import Runbook.Proofs.Document.Sanitized
import Runbook.Proofs.Document.Manifest
import Runbook.Proofs.Files.Tree
import Runbook.Proofs.Json.Written
import Runbook.Proofs.Pipeline.JsonSink
import Runbook.Proofs.Pipeline.ReportSink
import Runbook.Proofs.Preflight.Availability
import Runbook.Proofs.Plan.Draft
import Runbook.Proofs.Runner.Missing
import Runbook.Proofs.Files.Directory
import Runbook.Proofs.Files.Placement
import Runbook.Proofs.Text.Digit
import Runbook.Proofs.Host.Workspace
import Runbook.Proofs.Host.Session
import Runbook.Proofs.Runner.Workspace
import Runbook.Proofs.Value.Fields
import Runbook.Proofs.Plan.Directives
import Runbook.Proofs.Plan.Single
import Runbook.Proofs.Runner.Command
import Runbook.Proofs.Runner.Repository
import Runbook.Proofs.Runner.Single
import Runbook.Proofs.Pipeline.Delivery
import Runbook.Proofs.Sql.Lexeme
import Runbook.Proofs.Sql.Statement
import Runbook.Proofs.Document.Claimed
import Runbook.Proofs.Markup.CommentCut
import Runbook.Proofs.Document.CommentNode
import Runbook.Proofs.Document.Attachment
import Runbook.Proofs.Text.Words
import Runbook.Proofs.Plan.CommitMessage
import Runbook.Proofs.Sql.Rejoined
import Runbook.Proofs.Markup.Concealment
import Runbook.Proofs.Document.Decoration
import Runbook.Proofs.Document.Flagged
import Runbook.Proofs.Markup.ClosingLine
import Runbook.Proofs.Text.Offset
import Runbook.Proofs.Markup.FenceSearch
import Runbook.Proofs.Markup.GenuineBlock
import Runbook.Proofs.Markup.CodeInfo
import Runbook.Proofs.Document.Binding
import Runbook.Proofs.Document.Priority
import Runbook.Proofs.Settings.Reference
import Runbook.Proofs.Settings.Substitution
import Runbook.Proofs.Settings.Acceptance
import Runbook.Proofs.Files.Reduction
import Runbook.Proofs.Pipeline.Confinement
import Runbook.Proofs.Calendar.Date
import Runbook.Proofs.Calendar.Moment
import Runbook.Proofs.Calendar.Iso
import Runbook.Proofs.Report.Stamp
import Runbook.Proofs.Files.Denotation
import Runbook.Proofs.Runner.Database
import Runbook.Proofs.Text.Runs
import Runbook.Proofs.Pipeline.ResultFile
import Runbook.Proofs.Markup.LinkTarget
