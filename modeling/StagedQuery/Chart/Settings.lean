import StagedQuery.Aggregation
import StagedQuery.Binary64.Basic
import StagedQuery.SortDirection

/-!
# Chart Settings

What a chart should show, as it is asked for: names that are not yet checked, and bin widths that
may be any doubles.
-/

namespace StagedQuery

structure ChartSettings where
  x : String
  groupBy : List String
  direction : SortDirection
  yField : String
  yAggregation : Aggregation
  fitnessBinSize : Binary64
  citationCountBinSize : Binary64

namespace ChartSettings

/-- The name that asks for a count of rows in place of a field. -/
def rowCountName : String := "n_article"

/-- The settings from which a chart starts.  The widths are the doubles ten and one. -/
def initial : ChartSettings where
  x := "cited_pub_year"
  groupBy := ["cited_journal"]
  direction := .ascending
  yField := rowCountName
  yAggregation := .count
  fitnessBinSize := .finite ⟨false, ⟨1026 * Nat.pow 2 52 + Nat.pow 2 50, by decide⟩⟩
  citationCountBinSize := .finite ⟨false, ⟨1023 * Nat.pow 2 52, by decide⟩⟩

/-- Whether the measure is a plain count of rows. -/
def countsRows (settings : ChartSettings) : Bool :=
  settings.yAggregation = .count || settings.yField = rowCountName

end ChartSettings

end StagedQuery
