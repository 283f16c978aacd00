import TableQuery.Main
import TableQuery.Shell.Highlight
import TableQuery.Proofs.Query.Pushdown
import TableQuery.Proofs.Query.Reading
import TableQuery.Proofs.Query.Star
import TableQuery.Proofs.Query.Spelling
import TableQuery.Proofs.Database.Failure
import TableQuery.Proofs.Sql.Alias
import TableQuery.Proofs.Sql.Evaluation
import TableQuery.Proofs.Database.Registry
import TableQuery.Proofs.Database.Stored
import TableQuery.Proofs.Query.Distinct
import TableQuery.Proofs.Sql.Distinct
import TableQuery.Proofs.Query.Trace
import TableQuery.Proofs.Database.Shape
import TableQuery.Proofs.Query.Nested
import TableQuery.Proofs.Query.Unordered
import TableQuery.Proofs.Shell.Completeness
import TableQuery.Proofs.Sql.Lexing
import TableQuery.Proofs.Table.Update
import TableQuery.Proofs.Text.Like
import TableQuery.Proofs.Text.Utf8
import TableQuery.Proofs.Text.Blank
import TableQuery.Proofs.Csv.RoundTrip
import TableQuery.Proofs.Json.Reader
import TableQuery.Proofs.Json.RoundTrip
import TableQuery.Proofs.Value.Order
import TableQuery.Proofs.Value.Key
import TableQuery.Proofs.Order.Stable
import TableQuery.Proofs.Order.Keys
import TableQuery.Proofs.Query.RowCount
import TableQuery.Proofs.Order.Sorted
import TableQuery.Proofs.Group
import TableQuery.Proofs.Aggregate.Extreme
import TableQuery.Proofs.Aggregate.Sum
import TableQuery.Proofs.Value.Arithmetic
import TableQuery.Proofs.Aggregate.Distinct
import TableQuery.Proofs.Expr.Static
import TableQuery.Proofs.Expr.Locality
import TableQuery.Proofs.Value.Null
import TableQuery.Proofs.Text.Slice
import TableQuery.Proofs.Shell.Highlight
import TableQuery.Proofs.Shell.Completion
import TableQuery.Proofs.Shell.Matching
import TableQuery.Proofs.Shell.ReadCall
import TableQuery.Proofs.Output.Grid
import TableQuery.Proofs.Expr.Token
import TableQuery.Proofs.Table.Slice
import TableQuery.Proofs.Value.Conversion
import TableQuery.Proofs.Sql.Cutting
import TableQuery.Proofs.Sql.TableFunction
