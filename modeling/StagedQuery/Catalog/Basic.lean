import StagedQuery.Catalog.Field

/-!
# The Catalog

The fields of the citation data set, and the selections from them that the query is built on.
-/

namespace StagedQuery

namespace Field

/-- A field of single pairs. -/
def ofPair (name label : String) (type : FieldType) (isChartable : Bool) : Field :=
  ⟨name, label, type, .raw, isChartable, none⟩

/-- A number computed over the pairs of one cited article. -/
def ofArticle (name label aggregate : String) : Field :=
  ⟨name, label, .number, .groupCondition, true, some aggregate⟩

/-- A number that exists only after the aggregation. -/
def ofAggregation (name label : String) : Field :=
  ⟨name, label, .number, .postAggregate, true, none⟩

def fitness : Field :=
  ofArticle "fitness" "Fitness (per cited_eid)" "CAST(MAX(pp.cited_fitness) AS float)"

def citationCount : Field :=
  ofArticle "citation_count" "Citation Count (per cited_eid)" "CAST(COUNT(pp.cited_eid) AS float)"

end Field

namespace Catalog

def pairFields : List Field :=
  [.ofPair "cited_id" "Cited Paper ID" .number false,
    .ofPair "cited_eid" "Cited EID" .text true,
    .ofPair "cited_doi" "Cited DOI" .text false,
    .ofPair "cited_title" "Cited Title" .text false,
    .ofPair "cited_journal" "Cited Journal" .text true,
    .ofPair "cited_pub_date" "Cited Pub Date" .date true,
    .ofPair "cited_pub_year" "Cited Pub Year" .number true,
    .ofPair "cited_pub_month" "Cited Pub Month" .number true,
    .ofPair "cited_pub_day" "Cited Pub Day" .number true,
    .ofPair "citing_id" "Citing Paper ID" .number false,
    .ofPair "citing_eid" "Citing EID" .text false,
    .ofPair "citing_doi" "Citing DOI" .text false,
    .ofPair "citing_title" "Citing Title" .text false,
    .ofPair "citing_journal" "Citing Journal" .text false,
    .ofPair "citing_pub_date" "Citing Pub Date" .date false,
    .ofPair "citing_pub_year" "Citing Pub Year" .number false,
    .ofPair "citing_pub_month" "Citing Pub Month" .number false,
    .ofPair "citing_pub_day" "Citing Pub Day" .number false,
    .ofPair "citation_time_days" "Citation Lag (days)" .number false,
    .ofPair "cited_category" "Cited Category" .text true]

def articleFields : List Field := [.fitness, .citationCount]

def aggregationFields : List Field :=
  [.ofAggregation "citation_count_bin_raw" "Citation Count Bin (raw)",
    .ofAggregation "fitness_bin_raw" "Fitness Bin (raw)",
    .ofAggregation "citation_count_percentile_decile" "Citation Count Percentile (decile)",
    .ofAggregation "fitness_percentile_decile" "Fitness Percentile (decile)"]

/-- All fields, in the order in which they are offered. -/
def fields : List Field := pairFields ++ articleFields ++ aggregationFields

/-- The field with the given name. -/
def find? (name : String) : Option Field :=
  fields.find? fun field ↦ field.name = name

/-- The fields whose filters belong to a stage. -/
def atStage (stage : Stage) : List Field :=
  fields.filter fun field ↦ field.stage = stage

/-- The fields that a chart may group by. -/
def chartable : List Field :=
  fields.filter Field.isChartable

/-- The fields that a chart may measure. -/
def measurable : List Field :=
  fields.filter fun field ↦ field.isChartable && field.isNumeric

/-- The columns of single pairs that stand for one cited article. -/
def keyColumns : List String :=
  (fields.filter fun field ↦ field.isChartable && field.stage = .raw).map Field.name

end Catalog

end StagedQuery
