import StagedQuery.Pipeline.Basic
import StagedQuery.Proofs.Sql.Variable
import StagedQuery.Proofs.Statement.Pieces

/-!
# Fixed Pieces of the Chart Query

The tables of the chart query are the same for all charts and conditions, but for the clauses.  All
their pieces are read here once.  They balance their parentheses, end no statement and declare
nothing, and each width of bins stands where it divides the average of its own metric.
-/

namespace StagedQuery.Pipeline

open Sql (Token Use)
open Sql.Token (declare space)

/-- No clause at any stage. -/
def noFilters : Filters := ⟨none, none, none⟩

/-- The widths of bins only occur by name. -/
def binnedMetrics : List (Field × Declaration) :=
  [(.fitness, ⟨"fitness_bin_size", .nan⟩), (.citationCount, ⟨"citation_count_bin_sz", .nan⟩)]

/-- The tables of the query, without clauses. -/
def fixedTables : List NamedTable :=
  [base, category, fitness, perPair, condition noFilters, percentiles, aggregation binnedMetrics]

/-- The tokens before what the average of a metric is divided by. -/
def averageOver (metric : Field) : List Token :=
  [.word "FLOOR".toList, .symbol '(', .word "AVG".toList, .symbol '(',
    .word metric.name.toList, .symbol ')', space, .symbol '/', space]

/-- A width is declared, and divides the average of its own metric. -/
def widthUses : List Use :=
  binnedMetrics.flatMap fun (metric, width) ↦
    [⟨width.name, [declare, space]⟩, ⟨width.name, averageOver metric⟩]

theorem fixedTables_standUnder : ∀ table ∈ fixedTables,
    ∀ piece ∈ table.name :: table.select.pieces ++ table.select.filters,
      Sql.StandsUnder widthUses piece := by
  decide +kernel

end StagedQuery.Pipeline
