import LiveRecords.Change.Event
import LiveRecords.Change.Notification
import LiveRecords.Document.Decode
import LiveRecords.Document.Keyed
import LiveRecords.Document.Order
import LiveRecords.Document.Reader
import LiveRecords.Document.Render
import LiveRecords.Document.Value
import LiveRecords.Duration
import LiveRecords.Entity.Catalog
import LiveRecords.Entity.ValueType
import LiveRecords.Expr.Arithmetic
import LiveRecords.Expr.Basic
import LiveRecords.Expr.Compile
import LiveRecords.Expr.Kind
import LiveRecords.Expr.Operation
import LiveRecords.Expr.Path
import LiveRecords.Expr.Typed
import LiveRecords.Facade.EntityQuery
import LiveRecords.Facade.Form
import LiveRecords.Failure
import LiveRecords.Job.Basic
import LiveRecords.Live.Reaction
import LiveRecords.Live.Tracker
import LiveRecords.Number.Binary64
import LiveRecords.Number.Numeral
import LiveRecords.Number.Shortest
import LiveRecords.Pattern.Basic
import LiveRecords.Pattern.CharSet
import LiveRecords.Pattern.Parser
import LiveRecords.Pipeline.Assembly
import LiveRecords.Pipeline.Backend
import LiveRecords.Pipeline.Config
import LiveRecords.Pipeline.Gate
import LiveRecords.Pipeline.Handler
import LiveRecords.Pipeline.LiveQuery
import LiveRecords.Pipeline.Provision
import LiveRecords.Pipeline.References
import LiveRecords.Pipeline.Request
import LiveRecords.Pipeline.Scheduling
import LiveRecords.Pipeline.World
import LiveRecords.Query.Aggregate
import LiveRecords.Query.Basic
import LiveRecords.Query.Expansion
import LiveRecords.Query.Projection
import LiveRecords.Sample.Sets
import LiveRecords.Sample.Shop
import LiveRecords.Schema.Basic
import LiveRecords.Script.Basic
import LiveRecords.Script.Expr
import LiveRecords.Script.Layer
import LiveRecords.Script.Query
import LiveRecords.Script.Step
import LiveRecords.Script.Types
import LiveRecords.Session.Basic
import LiveRecords.Session.Readers
import LiveRecords.Session.Step
import LiveRecords.Session.Turns
import LiveRecords.Store.Basic
import LiveRecords.Store.Feed
import LiveRecords.Store.Read
import LiveRecords.Text.Case
import LiveRecords.Text.Category
import LiveRecords.Text.Quoted
import LiveRecords.Text.Runs
import LiveRecords.Text.Script
import LiveRecords.Text.Traits
import LiveRecords.Proofs.Entries
import LiveRecords.Proofs.Document.Likeness
import LiveRecords.Proofs.Number.Whole
import LiveRecords.Proofs.Document.KeyText
import LiveRecords.Proofs.Entity.Key
import LiveRecords.Proofs.Entity.Graph
import LiveRecords.Proofs.Expr.Path
import LiveRecords.Proofs.Job.Interference
import LiveRecords.Proofs.Store.Commit
import LiveRecords.Proofs.Store.Journal
import LiveRecords.Proofs.Store.Reading
import LiveRecords.Proofs.Store.Uniqueness
import LiveRecords.Proofs.Pipeline.Backend
import LiveRecords.Proofs.Pipeline.Clients
import LiveRecords.Proofs.Pipeline.Alone
import LiveRecords.Proofs.Pipeline.Locking
import LiveRecords.Proofs.Pipeline.Lookup
import LiveRecords.Proofs.Live.Stream
import LiveRecords.Proofs.Live.Following
import LiveRecords.Proofs.Live.Subscription
import LiveRecords.Proofs.Live.Convergence
import LiveRecords.Proofs.Live.Recovery
import LiveRecords.Proofs.References.Integrity
import LiveRecords.Proofs.References.Backing
import LiveRecords.Proofs.References.Writer
import LiveRecords.Proofs.References.Prior
import LiveRecords.Proofs.References.Runs
import LiveRecords.Proofs.References.Remains
import LiveRecords.Proofs.References.Calls
import LiveRecords.Proofs.References.Commuting
import LiveRecords.Proofs.References.Serial
import LiveRecords.Proofs.Query.Projection
import LiveRecords.Proofs.Query.Widening
import LiveRecords.Proofs.Live.Answers
import LiveRecords.Proofs.Live.Polling
import LiveRecords.Proofs.Document.SortOrder
import LiveRecords.Proofs.Query.Sorting
import LiveRecords.Proofs.Query.Arguments
import LiveRecords.Proofs.Query.Window
import LiveRecords.Proofs.Query.Extremes
import LiveRecords.Proofs.Live.Beginning
import LiveRecords.Proofs.Pipeline.Calm
import LiveRecords.Proofs.Live.Opening
import LiveRecords.Proofs.Expr.Compiling
import LiveRecords.Proofs.Pipeline.Refusals
import LiveRecords.Proofs.Schema.Widening
import LiveRecords.Proofs.Provision.Cells
import LiveRecords.Proofs.Provision.Walk
import LiveRecords.Proofs.Provision.Completeness
import LiveRecords.Proofs.Live.Delivery
import LiveRecords.Proofs.Job.Tokens
import LiveRecords.Proofs.Provision.Record
import LiveRecords.Proofs.Provision.Staffing
import LiveRecords.Proofs.Provision.Inventory
import LiveRecords.Proofs.Provision.Once
import LiveRecords.Proofs.Job.Occupation
import LiveRecords.Proofs.Pipeline.Places
import LiveRecords.Proofs.Pipeline.Phases
import LiveRecords.Proofs.Pipeline.Seclusion
import LiveRecords.Proofs.Pipeline.Admission
import LiveRecords.Proofs.Job.Finishing
import LiveRecords.Proofs.Pipeline.Steadiness
import LiveRecords.Proofs.Pipeline.Determinacy
import LiveRecords.Proofs.Pipeline.Draining
import LiveRecords.Proofs.Pipeline.Mirroring
import LiveRecords.Proofs.Pipeline.Transparency
import LiveRecords.Proofs.Number.Rounding
import LiveRecords.Proofs.Query.Preorder
import LiveRecords.Proofs.Query.Restriction
import LiveRecords.Proofs.Query.Descent
import LiveRecords.Proofs.Query.Closure
import LiveRecords.Proofs.Query.Settling
import LiveRecords.Proofs.Document.Sameness
import LiveRecords.Proofs.Expr.Hashing
import LiveRecords.Proofs.References.Overlay
import LiveRecords.Proofs.References.Occurrences
import LiveRecords.Proofs.References.Undisturbed
import LiveRecords.Proofs.References.Walk
import LiveRecords.Proofs.References.Effect
import LiveRecords.Proofs.References.Repetition
import LiveRecords.Proofs.Document.Integers
import LiveRecords.Proofs.Query.Sums
import LiveRecords.Proofs.Number.Reading
import LiveRecords.Proofs.Number.Shortest
import LiveRecords.Proofs.Document.KeyIdentity
import LiveRecords.Proofs.Pattern.Spans
import LiveRecords.Proofs.Pattern.Continuation
import LiveRecords.Proofs.Pattern.Escapes
import LiveRecords.Proofs.Pattern.Brackets
import LiveRecords.Proofs.Pattern.Groups
import LiveRecords.Proofs.Pattern.Alternatives
import LiveRecords.Proofs.Pattern.Whole
import LiveRecords.Proofs.Expr.Forms
import LiveRecords.Proofs.Expr.Comparisons
import LiveRecords.Proofs.Change.Encoding
import LiveRecords.Proofs.Pipeline.Paging
import LiveRecords.Proofs.Facade.First
import LiveRecords.Proofs.Expr.Resolution
import LiveRecords.Proofs.Query.Depth
import LiveRecords.Proofs.Number.Range
import LiveRecords.Proofs.Expr.Exactness
import LiveRecords.Proofs.Expr.Exactness
