import DaqStream.Bytes.LittleEndian
import DaqStream.CommandLine.Help
import DaqStream.CommandLine.Host
import DaqStream.CommandLine.Invocation
import DaqStream.CommandLine.Job
import DaqStream.CommandLine.Option
import DaqStream.CommandLine.Report
import DaqStream.Filter.Basic
import DaqStream.Filter.KindCounts
import DaqStream.Fragment.BuiltEvent
import DaqStream.Fragment.Header
import DaqStream.Logging
import DaqStream.Main
import DaqStream.Pipeline.Error
import DaqStream.Pipeline.Mediator
import DaqStream.Pipeline.Unglom
import DaqStream.Predicate.Basic
import DaqStream.Proofs.Record.Block
import DaqStream.Proofs.Record.Layout
import DaqStream.Proofs.Record.Reading
import DaqStream.Record.Basic
import DaqStream.Record.Content
import DaqStream.Record.Decode
import DaqStream.Record.Encode
import DaqStream.Record.Error
import DaqStream.Record.Field
import DaqStream.Record.Kind
import DaqStream.Run.Barrier
import DaqStream.Settings.Basic
import DaqStream.Settings.Document
import DaqStream.Settings.Layers
import DaqStream.Settings.Reading
import DaqStream.Settings.Value
import DaqStream.Settings.Variables
import DaqStream.Text.Blank
import DaqStream.Text.Decimal
import DaqStream.Text.Hexadecimal
import DaqStream.Text.Pieces
import DaqStream.Text.Scan
import DaqStream.Text.Utf8
import DaqStream.Toml.Document
import DaqStream.Toml.Number
import DaqStream.Toml.Printer
import DaqStream.Toml.Statement
import DaqStream.Toml.Text
import DaqStream.Toml.Tree
import DaqStream.Toml.Value
import DaqStream.Transport.Endpoint
import DaqStream.Transport.Error
import DaqStream.Transport.FileTree
import DaqStream.Transport.Sink
import DaqStream.Transport.Source
import DaqStream.Proofs.Record.Wire
import DaqStream.Proofs.Record.Grammar
import DaqStream.Proofs.Record.Norm
import DaqStream.Proofs.Record.Replay
import DaqStream.Proofs.Record.RoundTrip
import DaqStream.Proofs.Pipeline.Cycle
import DaqStream.Proofs.Pipeline.RunState
import DaqStream.Proofs.Pipeline.Watched
import DaqStream.Proofs.Pipeline.Lifecycle
import DaqStream.Proofs.Record.Scan
import DaqStream.Proofs.Transport.Delivery
import DaqStream.Proofs.Pipeline.PassThrough
import DaqStream.Proofs.Transport.Acceptance
import DaqStream.Proofs.Pipeline.Passive
import DaqStream.Proofs.Run.Barrier
import DaqStream.Proofs.Run.Interleaving
import DaqStream.Proofs.Run.Stretch
import DaqStream.Proofs.Pipeline.OneRun
import DaqStream.Proofs.Pipeline.Course
import DaqStream.Proofs.Pipeline.Journal
import DaqStream.Proofs.Pipeline.Accounts
import DaqStream.Proofs.Pipeline.Selected
import DaqStream.Proofs.Record.Kind
import DaqStream.Proofs.Record.Rebuild
import DaqStream.Proofs.Record.Canonical
import DaqStream.Proofs.Record.Reachable
import DaqStream.Proofs.Record.Framing
import DaqStream.Proofs.Fragment.Flat
import DaqStream.Proofs.Fragment.BuiltEvent
import DaqStream.Proofs.Pipeline.Decomposition
import DaqStream.Proofs.Pipeline.Splitting
import DaqStream.Proofs.Pipeline.Parts
import DaqStream.Proofs.Pipeline.AbnormalEnd
import DaqStream.Proofs.Pipeline.Rerun
import DaqStream.Proofs.Run.History
import DaqStream.Proofs.Transport.Writing
import DaqStream.Proofs.Transport.Isolation
import DaqStream.Proofs.Fragment.Walk
import DaqStream.Proofs.Fragment.Wrapping
import DaqStream.Proofs.Record.Buffer
import DaqStream.Proofs.Settings.Exclusion
import DaqStream.Proofs.Record.Equality
import DaqStream.Proofs.Grouping
import DaqStream.Proofs.Filter.Grouping
import DaqStream.Proofs.Predicate.Grouping
import DaqStream.Proofs.Filter.KindCounts
import DaqStream.Proofs.Pipeline.Counted
import DaqStream.Proofs.Pipeline.BlockAccounts
import DaqStream.Proofs.Pipeline.Failures
import DaqStream.Proofs.Settings.Validation
import DaqStream.Proofs.Record.Window
import DaqStream.Proofs.Record.Cursor
import DaqStream.Proofs.Record.Bounds
import DaqStream.Proofs.Fragment.Bounds
