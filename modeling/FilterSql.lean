import FilterSql.Application
import FilterSql.Calendar.Date
import FilterSql.Calendar.Reading
import FilterSql.CommandLine.Invocation
import FilterSql.CommandLine.Options
import FilterSql.CompileError
import FilterSql.Expr.Basic
import FilterSql.Expr.Decode
import FilterSql.Expr.Nesting
import FilterSql.Files
import FilterSql.Json.Basic
import FilterSql.Json.Fault
import FilterSql.Json.Printer
import FilterSql.Json.Reader
import FilterSql.Json.Shape
import FilterSql.Json.Token
import FilterSql.Limits
import FilterSql.Main
import FilterSql.Numeric.Binary
import FilterSql.Numeric.Notation
import FilterSql.Numeric.Shortest
import FilterSql.Operator
import FilterSql.Ordering
import FilterSql.Program
import FilterSql.Proofs.Expr.Alignment
import FilterSql.Proofs.Expr.Answered
import FilterSql.Proofs.Expr.Brackets
import FilterSql.Proofs.Expr.Compile
import FilterSql.Proofs.Expr.Elaboration
import FilterSql.Proofs.Expr.Faults
import FilterSql.Proofs.Expr.Guard
import FilterSql.Proofs.Expr.Layout
import FilterSql.Proofs.Expr.Literals
import FilterSql.Proofs.Expr.Nesting
import FilterSql.Proofs.Expr.Noninterference
import FilterSql.Proofs.Expr.Payloads
import FilterSql.Proofs.Expr.Raising
import FilterSql.Proofs.Expr.Readback
import FilterSql.Proofs.Expr.Rendering
import FilterSql.Proofs.Expr.Safety
import FilterSql.Proofs.Expr.Skeleton
import FilterSql.Proofs.Expr.Sources
import FilterSql.Proofs.Expr.Template
import FilterSql.Proofs.Expr.Tokens
import FilterSql.Proofs.Expr.Unnamed
import FilterSql.Proofs.Failure
import FilterSql.Proofs.Json.Induction
import FilterSql.Proofs.Json.Limit
import FilterSql.Proofs.Json.Numeral
import FilterSql.Proofs.Json.Scalars
import FilterSql.Proofs.Json.Soundness
import FilterSql.Proofs.Json.Spelled
import FilterSql.Proofs.Json.Strings
import FilterSql.Proofs.Json.SyntaxTree
import FilterSql.Proofs.Json.Tree
import FilterSql.Proofs.Json.Unambiguous
import FilterSql.Proofs.Ordering.Directive
import FilterSql.Proofs.Ordering.Parsing
import FilterSql.Proofs.Ordering.Readback
import FilterSql.Proofs.Ordering.Run
import FilterSql.Proofs.Schema.Declaration
import FilterSql.Proofs.Schema.Decoding
import FilterSql.Proofs.Schema.Descent
import FilterSql.Proofs.Schema.Exposure
import FilterSql.Proofs.Schema.Flattening
import FilterSql.Proofs.Schema.Omission
import FilterSql.Proofs.Schema.PathForm
import FilterSql.Proofs.Schema.Reachability
import FilterSql.Proofs.Schema.Resolution
import FilterSql.Proofs.Schema.Segments
import FilterSql.Proofs.Schema.Validation
import FilterSql.Proofs.Schema.Words
import FilterSql.Proofs.Settings.Documents
import FilterSql.Proofs.Settings.Layering
import FilterSql.Proofs.Settings.Unknown
import FilterSql.Proofs.Sql.FieldPath
import FilterSql.Proofs.Sql.Fragment
import FilterSql.Proofs.Sql.Placeholder
import FilterSql.Proofs.Sql.Scan
import FilterSql.Proofs.Sql.Script
import FilterSql.Proofs.Sql.Spacing
import FilterSql.Proofs.Sql.Token
import FilterSql.Proofs.Sql.Trace
import FilterSql.Proofs.Sql.Writing
import FilterSql.Schema.Document
import FilterSql.Schema.DottedPath
import FilterSql.Schema.FieldType
import FilterSql.Schema.Loaded
import FilterSql.Schema.Record
import FilterSql.Schema.RecordLiteral
import FilterSql.Schema.Resolve
import FilterSql.Settings.Basic
import FilterSql.Settings.Document
import FilterSql.Sql.Backend
import FilterSql.Sql.Builder
import FilterSql.Sql.FieldPath
import FilterSql.Sql.Value
import FilterSql.Text.Blank
import FilterSql.Text.Case
import FilterSql.Text.Quoted
import FilterSql.Text.Unshown
import FilterSql.Uuid
import FilterSql.Warning
