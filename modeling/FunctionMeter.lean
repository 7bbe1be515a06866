import FunctionMeter.Category
import FunctionMeter.Command.Args
import FunctionMeter.Command.Basic
import FunctionMeter.Config.Basic
import FunctionMeter.Decoration
import FunctionMeter.Document.Basic
import FunctionMeter.Document.Store
import FunctionMeter.Files
import FunctionMeter.Ignore.Glob
import FunctionMeter.Ignore.Rules
import FunctionMeter.Ignore.Walk
import FunctionMeter.Json.Basic
import FunctionMeter.Json.Decode
import FunctionMeter.Json.Reader
import FunctionMeter.Json.Writer
import FunctionMeter.Language.Basic
import FunctionMeter.Language.Role
import FunctionMeter.Loc
import FunctionMeter.Main
import FunctionMeter.Metric
import FunctionMeter.Outline
import FunctionMeter.Path
import FunctionMeter.Position
import FunctionMeter.Provider
import FunctionMeter.Report.Basic
import FunctionMeter.Report.Render
import FunctionMeter.Scheduler.Basic
import FunctionMeter.Scheduler.Simulation
import FunctionMeter.Session.Basic
import FunctionMeter.Session.Message
import FunctionMeter.Session.Server
import FunctionMeter.Session.Shape
import FunctionMeter.Session.Timeline
import FunctionMeter.Symbol
import FunctionMeter.Text.Basic
import FunctionMeter.Text.Style
import FunctionMeter.Toml.Reader
import FunctionMeter.Toml.Scalar
import FunctionMeter.Toml.Table
import FunctionMeter.Tree.Node
import FunctionMeter.Tree.Walk
import FunctionMeter.Uri.Address
import FunctionMeter.Uri.Basic
import FunctionMeter.Uri.Percent
import FunctionMeter.Uri.Punycode
import FunctionMeter.Watch
import FunctionMeter.Proofs.Loc
import FunctionMeter.Proofs.Body
import FunctionMeter.Proofs.Config
import FunctionMeter.Proofs.Painting
import FunctionMeter.Proofs.Json.Grammar
import FunctionMeter.Proofs.Json.Writer
import FunctionMeter.Proofs.Json.Decode
import FunctionMeter.Proofs.Language
import FunctionMeter.Proofs.Metric
import FunctionMeter.Proofs.Document.Mirror
import FunctionMeter.Proofs.Decoration
import FunctionMeter.Proofs.Files
import FunctionMeter.Proofs.Report.Build
import FunctionMeter.Proofs.Report.Json
import FunctionMeter.Proofs.Scheduler.Basic
import FunctionMeter.Proofs.Scheduler.System
import FunctionMeter.Proofs.Scheduler.Interleaving
import FunctionMeter.Proofs.Document.Store
import FunctionMeter.Proofs.Session.Basic
import FunctionMeter.Proofs.Session.Run
import FunctionMeter.Proofs.Tree.Address
import FunctionMeter.Proofs.Tree.Walk
import FunctionMeter.Proofs.Tree.Constructor
import FunctionMeter.Proofs.Position
import FunctionMeter.Proofs.Tree.Span
import FunctionMeter.Proofs.Session.Moves
import FunctionMeter.Proofs.Session.Fresh
import FunctionMeter.Proofs.Session.Closing
import FunctionMeter.Proofs.Agreement
import FunctionMeter.Proofs.Scheduler.Debounce
import FunctionMeter.Proofs.Session.Acts
import FunctionMeter.Proofs.Session.Recalculate
import FunctionMeter.Proofs.Session.Hints
import FunctionMeter.Proofs.Session.Independence
import FunctionMeter.Proofs.Document.Replay
import FunctionMeter.Proofs.Text.Lines
import FunctionMeter.Proofs.Document.Offset
import FunctionMeter.Proofs.Document.Locality
import FunctionMeter.Proofs.Tree.Column
import FunctionMeter.Proofs.Document.Edit
import FunctionMeter.Proofs.Watch.Diff
import FunctionMeter.Proofs.Json.Record
import FunctionMeter.Proofs.Layout
import FunctionMeter.Proofs.Outline
import FunctionMeter.Proofs.Path
import FunctionMeter.Proofs.Resolve
import FunctionMeter.Proofs.Collect
import FunctionMeter.Proofs.Tree.Declarator
import FunctionMeter.Proofs.Watch.Ignored
import FunctionMeter.Proofs.Text.Case
import FunctionMeter.Proofs.Text.Style
import FunctionMeter.Proofs.Detection
import FunctionMeter.Proofs.Json.Order
