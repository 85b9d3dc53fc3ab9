import StagedQuery.Aggregation
import StagedQuery.Binary64.Text
import StagedQuery.Catalog.Basic
import StagedQuery.Chart.Basic
import StagedQuery.Chart.Record
import StagedQuery.Condition.Record
import StagedQuery.Filters
import StagedQuery.Json.Text
import StagedQuery.Pipeline.Basic
import StagedQuery.Predicate
import StagedQuery.Request
import StagedQuery.RequestError
import StagedQuery.Statement.Text
import StagedQuery.Proofs.Condition.Pruning
import StagedQuery.Proofs.Filters.Rendering
import StagedQuery.Proofs.Sql.Lexing
import StagedQuery.Proofs.Truth
import StagedQuery.Proofs.Binary64.Plain
import StagedQuery.Proofs.Predicate.Tokens
import StagedQuery.Proofs.Sql.Expression
import StagedQuery.Proofs.Predicate.Atoms
import StagedQuery.Proofs.Condition.Expression
import StagedQuery.Proofs.Filters.Meaning
import StagedQuery.Proofs.Filters.Splitting
import StagedQuery.Proofs.Binary64.Value
import StagedQuery.Proofs.Chart.Faults
import StagedQuery.Proofs.Request.Outcome
import StagedQuery.Proofs.Predicate.Shapes
import StagedQuery.Proofs.Sql.Test
import StagedQuery.Proofs.Filters.Silent
import StagedQuery.Proofs.Request.Silent
import StagedQuery.Proofs.Sql.Masking
import StagedQuery.Proofs.Predicate.Masks
import StagedQuery.Proofs.Condition.Masks
import StagedQuery.Proofs.Filters.Outline
import StagedQuery.Proofs.Chart.Known
import StagedQuery.Proofs.Pipeline.Alike
import StagedQuery.Proofs.Request.Masking
import StagedQuery.Proofs.Request.Insertion
import StagedQuery.Proofs.Sql.Column
import StagedQuery.Proofs.Filters.Columns
import StagedQuery.Proofs.Statement.Scope
import StagedQuery.Proofs.Pipeline.Scope
import StagedQuery.Proofs.Request.Scope
import StagedQuery.Proofs.Json.Places
import StagedQuery.Proofs.Json.Scanning
import StagedQuery.Proofs.Json.Members
import StagedQuery.Proofs.Condition.Agreement
import StagedQuery.Proofs.Condition.Wrapping
import StagedQuery.Proofs.Binary64.Nearest
import StagedQuery.Proofs.Json.Numerals
import StagedQuery.Proofs.Json.Strings
import StagedQuery.Proofs.Binary64.Shortest
import StagedQuery.Proofs.Binary64.Marked
import StagedQuery.Proofs.Json.Ordered
import StagedQuery.Proofs.Json.Written
import StagedQuery.Proofs.Condition.Written
import StagedQuery.Proofs.Chart.Written
import StagedQuery.Proofs.Request.Written
import StagedQuery.Proofs.Predicate.Tests
import StagedQuery.Proofs.Condition.Sent
import StagedQuery.Proofs.Request.Sent
import StagedQuery.Proofs.Binary64.Whole
import StagedQuery.Proofs.Predicate.Lists
import StagedQuery.Proofs.Predicate.Integers
import StagedQuery.Proofs.Sql.Terms
import StagedQuery.Proofs.Statement.Filters
import StagedQuery.Proofs.Binary64.Positional
import StagedQuery.Proofs.Statement.Reading
import StagedQuery.Proofs.Statement.Recovery
import StagedQuery.Proofs.Pipeline.Grouping
import StagedQuery.Proofs.Sql.Like
import StagedQuery.Proofs.Predicate.Matching
import StagedQuery.Proofs.Sql.Variable
import StagedQuery.Proofs.Statement.Pieces
import StagedQuery.Proofs.Statement.Variables
import StagedQuery.Proofs.Pipeline.Fixed
import StagedQuery.Proofs.Pipeline.Widths
import StagedQuery.Proofs.Request.Widths
import StagedQuery.Proofs.Sql.Formula
import StagedQuery.Proofs.Sql.Window
import StagedQuery.Proofs.Statement.Evaluation
import StagedQuery.Proofs.Pipeline.Deciles
