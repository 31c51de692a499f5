import RecordQuery.Text.Blank
import RecordQuery.Text.Word
import RecordQuery.Text.Pattern
import RecordQuery.Number.Digits
import RecordQuery.Number.Checked
import RecordQuery.Number.Power
import RecordQuery.Number.Hex
import RecordQuery.Number.Binary
import RecordQuery.Number.Whole
import RecordQuery.Number.Decimal
import RecordQuery.Calendar.Date
import RecordQuery.Calendar.Timestamp
import RecordQuery.Calendar.Layout
import RecordQuery.Calendar.Offset
import RecordQuery.Uuid
import RecordQuery.Value.Basic
import RecordQuery.Value.Binding
import RecordQuery.Row
import RecordQuery.Error
import RecordQuery.Classify
import RecordQuery.Scalar
import RecordQuery.ShapeId
import RecordQuery.Shape
import RecordQuery.Metadata
import RecordQuery.Expr
import RecordQuery.Search
import RecordQuery.Page
import RecordQuery.Query.Basic
import RecordQuery.Query.Build
import RecordQuery.Sql.Dialect
import RecordQuery.Sql.Piece
import RecordQuery.Sql.Condition
import RecordQuery.Sql.Select
import RecordQuery.Sql.Command
import RecordQuery.Compile.Scope
import RecordQuery.Compile.Lowering
import RecordQuery.Compile.Select
import RecordQuery.Write.Target
import RecordQuery.Write.Insert
import RecordQuery.Write.Update
import RecordQuery.Outcome
import RecordQuery.Engine.Executor
import RecordQuery.Engine.Basic
import RecordQuery.Engine.Blocking
import RecordQuery.Document
import RecordQuery.Wire.Name
import RecordQuery.Wire.Form
import RecordQuery.Sqlite
import RecordQuery.Pool
import RecordQuery.Proofs.Sql.Legible
import RecordQuery.Proofs.Compile.Numbering
import RecordQuery.Proofs.Compile.Opaque
import RecordQuery.Proofs.Write.Opaque
import RecordQuery.Proofs.Sql.Grammar
import RecordQuery.Proofs.Compile.Reading
import RecordQuery.Proofs.Compile.Meaning
import RecordQuery.Proofs.Compile.Scoping
import RecordQuery.Proofs.Query.Substitution
import RecordQuery.Proofs.Compile.Total
import RecordQuery.Proofs.Compile.Paging
import RecordQuery.Proofs.Rows.Identity
import RecordQuery.Proofs.Engine.Family
import RecordQuery.Proofs.Write.Batches
import RecordQuery.Proofs.Compile.Compared
import RecordQuery.Proofs.Rows.RoundTrip
import RecordQuery.Proofs.Value.Storage
import RecordQuery.Proofs.Write.Width
import RecordQuery.Proofs.Write.Keyed
import RecordQuery.Proofs.Write.Conditions
import RecordQuery.Proofs.Query.Deferred
import RecordQuery.Proofs.Write.Dialects
import RecordQuery.Proofs.Engine.Agreement
import RecordQuery.Proofs.Engine.Rejection
import RecordQuery.Proofs.Rows.Tiling
import RecordQuery.Proofs.Compile.Accepted
import RecordQuery.Proofs.Query.Grouping
import RecordQuery.Proofs.Compile.Searches
import RecordQuery.Proofs.Write.Taken
import RecordQuery.Proofs.Compile.SelectList
import RecordQuery.Proofs.Compile.Aliases
import RecordQuery.Proofs.Compile.JoinConditions
import RecordQuery.Proofs.Compile.Aggregates
import RecordQuery.Proofs.Rows.Spelling
import RecordQuery.Proofs.Rows.Lookup
import RecordQuery.Proofs.Rows.Repeated
import RecordQuery.Proofs.Compile.OutputColumns
import RecordQuery.Proofs.Engine.First
import RecordQuery.Proofs.Query.Windows
import RecordQuery.Proofs.Engine.Batches
import RecordQuery.Proofs.Engine.PageFigures
import RecordQuery.Proofs.Compile.Orders
import RecordQuery.Proofs.Engine.PageNumbers
import RecordQuery.Proofs.Classify.Violations
import RecordQuery.Proofs.Classify.SchemaErrors
import RecordQuery.Proofs.Classify.Recasing
import RecordQuery.Proofs.Classify.Checks
import RecordQuery.Proofs.Calendar.Offset
import RecordQuery.Proofs.Value.Codes
import RecordQuery.Proofs.Compile.TextMatches
import RecordQuery.Proofs.Write.Ceiling
import RecordQuery.Proofs.Write.NamedOnce
import RecordQuery.Proofs.Sql.Bindings
import RecordQuery.Proofs.Sql.Quoted
import RecordQuery.Proofs.Metadata.Registered
