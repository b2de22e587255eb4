import Listing.Calendar.Date
import Listing.Calendar.Reader
import Listing.Dict
import Listing.Entity.Basic
import Listing.Entity.Registry
import Listing.Error
import Listing.Field.Basic
import Listing.Field.Template
import Listing.Ident
import Listing.Join.Kind
import Listing.Join.Path
import Listing.Json.Basic
import Listing.Json.Decode
import Listing.Json.Printer
import Listing.Json.Reader
import Listing.Json.Relay
import Listing.Number.Binary
import Listing.Number.Layout
import Listing.Number.Reader
import Listing.Number.Shortest
import Listing.Page.Keyset
import Listing.Page.Offset
import Listing.Page.Stage
import Listing.Pipeline.Params
import Listing.Pipeline.Run
import Listing.Proofs.Calendar.Range
import Listing.Proofs.Dict
import Listing.Proofs.Entity.Declared
import Listing.Proofs.Entity.Valid
import Listing.Proofs.Failure
import Listing.Proofs.Ident
import Listing.Proofs.Ident.Grammar
import Listing.Proofs.Number.Exact
import Listing.Proofs.Number.Numeral
import Listing.Proofs.Outcome
import Listing.Proofs.Page.Exact
import Listing.Proofs.Page.Normal
import Listing.Proofs.Page.Start
import Listing.Proofs.Page.Tiling
import Listing.Proofs.Page.Walk
import Listing.Proofs.Pipeline.Advance
import Listing.Proofs.Pipeline.Binding
import Listing.Proofs.Pipeline.Calls
import Listing.Proofs.Pipeline.Containment
import Listing.Proofs.Pipeline.Coverage
import Listing.Proofs.Pipeline.Faults
import Listing.Proofs.Pipeline.FixedPoint
import Listing.Proofs.Pipeline.Modes
import Listing.Proofs.Pipeline.Narrowing
import Listing.Proofs.Pipeline.Position
import Listing.Proofs.Pipeline.Progress
import Listing.Proofs.Pipeline.ReadBack
import Listing.Proofs.Pipeline.Shortcuts
import Listing.Proofs.Pipeline.Trace
import Listing.Proofs.Pipeline.Untouched
import Listing.Proofs.Query.Build
import Listing.Proofs.Query.Clause
import Listing.Proofs.Query.Combinators
import Listing.Proofs.Query.Count
import Listing.Proofs.Query.Database
import Listing.Proofs.Query.Deferred
import Listing.Proofs.Query.Erasure
import Listing.Proofs.Query.Frame
import Listing.Proofs.Query.History
import Listing.Proofs.Query.Joins
import Listing.Proofs.Query.Route
import Listing.Proofs.Query.Scope
import Listing.Proofs.Query.Sound
import Listing.Proofs.Query.Tables
import Listing.Proofs.Query.Tags
import Listing.Proofs.Search.Blank
import Listing.Proofs.Search.Delivery
import Listing.Proofs.Search.Dropping
import Listing.Proofs.Search.Eager
import Listing.Proofs.Search.FieldTags
import Listing.Proofs.Search.Grouping
import Listing.Proofs.Search.Independence
import Listing.Proofs.Search.Meaning
import Listing.Proofs.Search.Normal
import Listing.Proofs.Search.Scopes
import Listing.Proofs.Search.Wildcards
import Listing.Proofs.Sort.Append
import Listing.Proofs.Sort.Normal
import Listing.Proofs.Sort.Scopes
import Listing.Proofs.Sort.Texts
import Listing.Proofs.Sql.Condition
import Listing.Proofs.Sql.Erasure
import Listing.Proofs.Sql.Formula
import Listing.Proofs.Sql.Grammar
import Listing.Proofs.Sql.Lexeme
import Listing.Proofs.Sql.Meaning
import Listing.Proofs.Sql.Placeholders
import Listing.Proofs.Sql.Resolved
import Listing.Proofs.Sql.Spacing
import Listing.Proofs.Sql.Write
import Listing.Proofs.Stage.Acceptance
import Listing.Proofs.Stage.Faults
import Listing.Proofs.Stage.Frame
import Listing.Proofs.Stage.Lenience
import Listing.Proofs.Stage.Normal
import Listing.Proofs.Stage.Scalars
import Listing.Proofs.Stage.Wire
import Listing.Proofs.Term.Bytes
import Listing.Proofs.Term.Echo
import Listing.Proofs.Term.Integer
import Listing.Proofs.Term.Whole
import Listing.Proofs.Term.Width
import Listing.Query.Basic
import Listing.Query.Operand
import Listing.Query.Repository
import Listing.Query.Statement
import Listing.Search.Compile
import Listing.Search.Criterion
import Listing.Search.Lenient
import Listing.Search.Operator
import Listing.Search.Strict
import Listing.Sort.Compile
import Listing.Sort.Direction
import Listing.Sort.Key
import Listing.Sort.Lenient
import Listing.Sort.Strict
import Listing.Sql.Condition
import Listing.Sql.Operand
import Listing.Sql.Token
import Listing.Stage.Config
import Listing.Stage.Context
import Listing.Stage.Handler
import Listing.Stage.Hook
import Listing.Stage.Request
import Listing.Term.Basic
import Listing.Term.Bind
import Listing.Term.Wire
import Listing.Text.Blank
import Listing.Text.Combining
import Listing.Text.Outline
import Listing.Text.Printable
import Listing.Text.Quoted
import Listing.Text.Range
import Listing.Uuid
