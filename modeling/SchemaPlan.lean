import SchemaPlan.Catalog.Assembly
import SchemaPlan.Catalog.Clause
import SchemaPlan.Catalog.Reading
import SchemaPlan.Catalog.Snapshot
import SchemaPlan.Change.Apply
import SchemaPlan.Change.Candidate
import SchemaPlan.Change.Comparison
import SchemaPlan.Change.ConfirmedRename
import SchemaPlan.Change.Encoding
import SchemaPlan.Change.Hint
import SchemaPlan.Change.Operation
import SchemaPlan.Change.Options
import SchemaPlan.Change.Plan
import SchemaPlan.Change.Propagation
import SchemaPlan.Change.Renaming
import SchemaPlan.Command.Apply
import SchemaPlan.Command.Arguments
import SchemaPlan.Command.Generate
import SchemaPlan.Command.Run
import SchemaPlan.Command.Settings
import SchemaPlan.Database.CatalogPart
import SchemaPlan.Database.Encoding
import SchemaPlan.Database.Memory
import SchemaPlan.Database.Statement
import SchemaPlan.Dialect.Compilation
import SchemaPlan.Dialect.Feature
import SchemaPlan.Dialect.Script
import SchemaPlan.Dialect.Spelling
import SchemaPlan.Dialect.Statement
import SchemaPlan.Digest.Sha256
import SchemaPlan.Expression.Calls
import SchemaPlan.Expression.Canonical
import SchemaPlan.Expression.Lexeme
import SchemaPlan.Graph.Basic
import SchemaPlan.Graph.CreationOrder
import SchemaPlan.Graph.Registration
import SchemaPlan.Json.Basic
import SchemaPlan.Json.Printer
import SchemaPlan.Json.Reader
import SchemaPlan.Json.Record
import SchemaPlan.Main
import SchemaPlan.Migration.Error
import SchemaPlan.Migration.Execution
import SchemaPlan.Migration.File
import SchemaPlan.Number.Binary64
import SchemaPlan.Number.Shortest
import SchemaPlan.Order.Sorted
import SchemaPlan.Order.Topological
import SchemaPlan.Proofs.Catalog.Assembly
import SchemaPlan.Proofs.Catalog.Attachment
import SchemaPlan.Proofs.Catalog.ClauseReading
import SchemaPlan.Proofs.Catalog.IndexReading
import SchemaPlan.Proofs.Catalog.Layering
import SchemaPlan.Proofs.Catalog.RowOrder
import SchemaPlan.Proofs.Change.Alteration
import SchemaPlan.Proofs.Change.ColumnChange
import SchemaPlan.Proofs.Change.Comparison
import SchemaPlan.Proofs.Change.Convergence
import SchemaPlan.Proofs.Change.Coverage
import SchemaPlan.Proofs.Change.Deeds
import SchemaPlan.Proofs.Change.Destruction
import SchemaPlan.Proofs.Change.FreshBuild
import SchemaPlan.Proofs.Change.IgnoredExtensions
import SchemaPlan.Proofs.Change.KeptKeys
import SchemaPlan.Proofs.Change.LabelInsertion
import SchemaPlan.Proofs.Change.Landing
import SchemaPlan.Proofs.Change.MaximumMatching
import SchemaPlan.Proofs.Change.NameChange
import SchemaPlan.Proofs.Change.NameSimilarity
import SchemaPlan.Proofs.Change.OperationGraph
import SchemaPlan.Proofs.Change.OrderSafety
import SchemaPlan.Proofs.Change.OutdatedNames
import SchemaPlan.Proofs.Change.Propagation
import SchemaPlan.Proofs.Change.Realization
import SchemaPlan.Proofs.Change.Recreation
import SchemaPlan.Proofs.Change.RecreationClosure
import SchemaPlan.Proofs.Change.Refresh
import SchemaPlan.Proofs.Change.Release
import SchemaPlan.Proofs.Change.RenamedColumn
import SchemaPlan.Proofs.Change.RenamedReferences
import SchemaPlan.Proofs.Change.RenamesFirst
import SchemaPlan.Proofs.Change.Renaming
import SchemaPlan.Proofs.Change.Replay
import SchemaPlan.Proofs.Change.Schedule
import SchemaPlan.Proofs.Change.Shedding
import SchemaPlan.Proofs.Change.Simulation
import SchemaPlan.Proofs.Change.StableMatching
import SchemaPlan.Proofs.Command.Generate
import SchemaPlan.Proofs.Command.Generation
import SchemaPlan.Proofs.Database.History
import SchemaPlan.Proofs.Database.Ledger
import SchemaPlan.Proofs.Dialect.DollarQuote
import SchemaPlan.Proofs.Dialect.EmittedType
import SchemaPlan.Proofs.Dialect.Rendering
import SchemaPlan.Proofs.Expression.CastText
import SchemaPlan.Proofs.Expression.FixedPoint
import SchemaPlan.Proofs.Expression.FunctionCall
import SchemaPlan.Proofs.Expression.KeptTokens
import SchemaPlan.Proofs.Expression.Outline
import SchemaPlan.Proofs.Expression.Pass
import SchemaPlan.Proofs.Expression.Qualifier
import SchemaPlan.Proofs.Expression.QuotedText
import SchemaPlan.Proofs.Expression.Reduced
import SchemaPlan.Proofs.Expression.Relexing
import SchemaPlan.Proofs.Expression.Shape
import SchemaPlan.Proofs.Expression.Spacing
import SchemaPlan.Proofs.Expression.Symbol
import SchemaPlan.Proofs.Graph.Basic
import SchemaPlan.Proofs.Graph.CalledFunctions
import SchemaPlan.Proofs.Graph.ConstraintNames
import SchemaPlan.Proofs.Graph.CreationOrder
import SchemaPlan.Proofs.Graph.IgnoredExtensions
import SchemaPlan.Proofs.Graph.NamedParts
import SchemaPlan.Proofs.Graph.References
import SchemaPlan.Proofs.Graph.Registration
import SchemaPlan.Proofs.Graph.RenamedNames
import SchemaPlan.Proofs.Graph.RenamedTable
import SchemaPlan.Proofs.Graph.RoundTrip
import SchemaPlan.Proofs.Graph.SourceOrder
import SchemaPlan.Proofs.Graph.Substitution
import SchemaPlan.Proofs.Graph.WellFormed
import SchemaPlan.Proofs.Migration.Discovery
import SchemaPlan.Proofs.Migration.ExactlyOnce
import SchemaPlan.Proofs.Migration.File
import SchemaPlan.Proofs.Migration.HistoryKey
import SchemaPlan.Proofs.Migration.Protocol
import SchemaPlan.Proofs.Migration.Status
import SchemaPlan.Proofs.Number.Binary64
import SchemaPlan.Proofs.Number.Rounding
import SchemaPlan.Proofs.Order.Counting
import SchemaPlan.Proofs.Order.Cycle
import SchemaPlan.Proofs.Order.Draining
import SchemaPlan.Proofs.Order.Least
import SchemaPlan.Proofs.Order.Sorted
import SchemaPlan.Proofs.Order.Topological
import SchemaPlan.Proofs.Outcome
import SchemaPlan.Proofs.Schema.ComputedName
import SchemaPlan.Proofs.Schema.Fingerprint
import SchemaPlan.Proofs.Schema.IdentityArguments
import SchemaPlan.Proofs.Schema.LiteralDefault
import SchemaPlan.Proofs.Schema.LosslessConversion
import SchemaPlan.Proofs.Schema.TypeReading
import SchemaPlan.Proofs.Schema.TypeSpelling
import SchemaPlan.Proofs.Schema.TypeText
import SchemaPlan.Proofs.Session.Answered
import SchemaPlan.Proofs.Session.Exchange
import SchemaPlan.Proofs.Session.Run
import SchemaPlan.Proofs.Session.Stored
import SchemaPlan.Proofs.Session.Straight
import SchemaPlan.Proofs.Storage.FileTree
import SchemaPlan.Proofs.Storage.NewFile
import SchemaPlan.Proofs.Text.Blank
import SchemaPlan.Proofs.Text.EditDistance
import SchemaPlan.Proofs.Text.Escaped
import SchemaPlan.Proofs.Text.LowerCase
import SchemaPlan.Proofs.Text.Occurrence
import SchemaPlan.Proofs.Text.Padded
import SchemaPlan.Proofs.Text.Quoted
import SchemaPlan.Proofs.Text.Rewriting
import SchemaPlan.Proofs.Text.Term
import SchemaPlan.Proofs.Time.Reading
import SchemaPlan.Proofs.Time.Stamp
import SchemaPlan.Schema.Canonical
import SchemaPlan.Schema.Column
import SchemaPlan.Schema.Constraint
import SchemaPlan.Schema.DataType
import SchemaPlan.Schema.Declaration
import SchemaPlan.Schema.Encoding
import SchemaPlan.Schema.Error
import SchemaPlan.Schema.Fingerprint
import SchemaPlan.Schema.Function
import SchemaPlan.Schema.Index
import SchemaPlan.Schema.IndexKeys
import SchemaPlan.Schema.Naming
import SchemaPlan.Schema.Object
import SchemaPlan.Schema.ObjectId
import SchemaPlan.Schema.Table
import SchemaPlan.Schema.Trigger
import SchemaPlan.Session.Basic
import SchemaPlan.Session.Notice
import SchemaPlan.Storage.FileTree
import SchemaPlan.Storage.Path
import SchemaPlan.Text.Blank
import SchemaPlan.Text.CaseMap
import SchemaPlan.Text.Digit
import SchemaPlan.Text.EditDistance
import SchemaPlan.Text.Escaped
import SchemaPlan.Text.Hex
import SchemaPlan.Text.Number
import SchemaPlan.Text.Quoted
import SchemaPlan.Text.Range
import SchemaPlan.Text.Split
import SchemaPlan.Text.Term
import SchemaPlan.Text.Unseen
import SchemaPlan.Text.WordChar
import SchemaPlan.Time.Clock
import SchemaPlan.Time.Date
import SchemaPlan.Time.Instant
import SchemaPlan.Time.Reading
