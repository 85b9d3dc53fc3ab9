import StagedQuery.Catalog.Basic
import StagedQuery.Filters
import StagedQuery.Statement.Basic

/-!
# Tables of Articles

The last three tables of the query, with one row for each cited article: its metrics over the
pairs that the filters leave, the percentile rank of each metric, and the rounded, binned and
ranked columns that charts are drawn from.
-/

namespace StagedQuery.Pipeline

/-- The column that holds the percentile rank of a metric. -/
def rankName (metric : Field) : String :=
  metric.name ++ "_pr"

/-- The keys and metrics of each cited article.  The raw clause selects pairs, and the clause of
the group condition selects articles. -/
def condition (filters : Filters) : NamedTable where
  name := "condition"
  select :=
    let keys := Catalog.keyColumns.map ("pp." ++ ·)
    { columns :=
        keys.map (⟨·, none⟩) ++
          Catalog.articleFields.map fun metric ↦ ⟨metric.reference, metric.name⟩
      source := ⟨"per_pair", "pp"⟩
      filters := filters.raw.toList
      groupBy := keys
      having? := filters.groupCondition }

/-- The columns within which percentile ranks are taken. -/
def rankPartition : List String := ["cited_pub_year", "cited_journal"]

/-- The percentile rank of a metric. -/
def rankColumn (metric : Field) : OutputColumn :=
  ⟨"PERCENT_RANK() OVER (PARTITION BY " ++ ", ".intercalate (rankPartition.map ("c." ++ ·)) ++
    " ORDER BY c." ++ metric.name ++ ")", rankName metric⟩

/-- The articles with the percentile rank of each metric. -/
def percentiles : NamedTable where
  name := "with_percentiles"
  select :=
    { columns := ⟨"c.*", none⟩ :: Catalog.articleFields.map rankColumn
      source := ⟨"condition", "c"⟩ }

/-- The name of the column that counts rows. -/
def rowCountColumn : String := "n_articles"

def averageColumn (metric : Field) : OutputColumn :=
  ⟨"ROUND(AVG(" ++ metric.name ++ "), 2)", metric.name⟩

def percentileColumn (metric : Field) : OutputColumn :=
  ⟨"CAST(ROUND(100.0 * AVG(" ++ rankName metric ++ "), 2) AS decimal(5,2))",
    metric.name ++ "_percentile"⟩

/-- The index of the bin of a metric, given the variable that holds the width of its bins. -/
def binColumn (metric : Field) (width : Declaration) : OutputColumn :=
  ⟨"CAST(FLOOR(AVG(" ++ metric.name ++ ") / " ++ width.reference ++ ") AS int)",
    metric.name ++ "_bin_raw"⟩

def decileColumn (metric : Field) : OutputColumn :=
  ⟨"CAST(FLOOR((100.0 * AVG(" ++ rankName metric ++ ")) / 10.0) AS int)",
    metric.name ++ "_percentile_decile"⟩

/-- The columns that charts are drawn from, given each metric that is binned with its width. -/
def aggregation (bins : List (Field × Declaration)) : NamedTable where
  name := "aggregation"
  select :=
    { columns :=
        Catalog.keyColumns.map (⟨·, none⟩) ++ [⟨"COUNT(*)", rowCountColumn⟩] ++
          Catalog.articleFields.map averageColumn ++ Catalog.articleFields.map percentileColumn ++
          bins.map (fun (metric, width) ↦ binColumn metric width) ++
          Catalog.articleFields.map decileColumn
      source := ⟨"with_percentiles", none⟩
      groupBy := Catalog.keyColumns }

end StagedQuery.Pipeline
