import StagedQuery.Chart.Basic
import StagedQuery.Pipeline.Articles
import StagedQuery.Pipeline.Pairs

/-!
# The Chart Query

The statement that computes a chart: two bin widths, seven tables, and the grouping of the last
one by the fields of the chart.  Each clause of the filters restricts the selection of its stage.
-/

namespace StagedQuery.Pipeline

/-- The name of the column that holds an aggregated measure. -/
def measureName : String := "y_value"

/-- The remark beside a median, which is computed as an average. -/
def medianRemark : String := "/* MEDIAN approximated by AVG */"

def fitnessWidth (chart : Chart) : Declaration :=
  ⟨"fitness_bin_size", chart.fitnessWidth.toDouble⟩

def citationCountWidth (chart : Chart) : Declaration :=
  ⟨"citation_count_bin_sz", chart.citationCountWidth.toDouble⟩

def measureColumn : Measure → OutputColumn
  | .rowCount => ⟨"COUNT(*)", rowCountColumn⟩
  | .aggregate .median field => ⟨"AVG(" ++ field.name ++ ") " ++ medianRemark, measureName⟩
  | .aggregate aggregation field =>
    ⟨aggregation.keyword ++ "(" ++ field.name ++ ")", measureName⟩

/-- The grouping of the articles by the fields of a chart. -/
def chartSelect (chart : Chart) (filters : Filters) : Select where
  columns := chart.groupNames.map (⟨·, none⟩) ++ [measureColumn chart.measure]
  source := ⟨"aggregation", none⟩
  filters := filters.postAggregate.toList
  groupBy := chart.groupNames
  orderBy := [⟨chart.x.name, chart.direction⟩]

/-- The statement for a chart and the clauses of its filters, given the two metrics that are put
into bins. -/
def statementOver (fitnessMetric citationCountMetric : Field) (chart : Chart) (filters : Filters) :
    Statement where
  declarations := [fitnessWidth chart, citationCountWidth chart]
  tables :=
    [base, category, fitness, perPair, condition filters, percentiles,
      aggregation
        [(fitnessMetric, fitnessWidth chart), (citationCountMetric, citationCountWidth chart)]]
  body := chartSelect chart filters

def statement (chart : Chart) (filters : Filters) : Statement :=
  statementOver .fitness .citationCount chart filters

/-- Looks up the two metrics in the catalog, and builds the statement over them. -/
def plan (chart : Chart) (filters : Filters) : Except UnknownField Statement := do
  let fitnessMetric ← Catalog.lookup "fitness"
  let citationCountMetric ← Catalog.lookup "citation_count"
  return statementOver fitnessMetric citationCountMetric chart filters

/-- The catalog knows both metrics. -/
theorem plan_eq (chart : Chart) (filters : Filters) :
    plan chart filters = .ok (statement chart filters) := by
  have hfitness : Catalog.lookup "fitness" = .ok .fitness := by rfl
  have hcitationCount : Catalog.lookup "citation_count" = .ok .citationCount := by rfl
  simp only [plan, hfitness, hcitationCount]
  rfl

end StagedQuery.Pipeline
