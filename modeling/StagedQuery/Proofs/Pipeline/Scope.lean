import StagedQuery.Proofs.Filters.Columns
import StagedQuery.Proofs.Pipeline.Alike
import StagedQuery.Proofs.Statement.Scope

/-!
# Scopes of the Chart Query

Every table of the chart query reads tables before it, and gives the columns that later ones name.
The names of these columns are written down here once more, so that each selection can be checked
apart from the others.  The clauses of a condition read the columns of one relation each: those of
the pairs, for raw tests and for aggregates over them, and those of the aggregated articles.
-/

namespace StagedQuery

open Sql (ColumnUse)

namespace Pipeline

/-! ## Columns of the tables -/

/-- The columns of an article that are read. -/
def articleColumns : List String :=
  ["paper_id", "eid", "prism:doi", "dc:title", "prism:publicationName", "prism:coverDate"]

/-- The tables that the query reads, with the columns that it reads. -/
def externalTables : Scope :=
  [⟨"scopus.dbo.[relationship]", ["paper_id_1", "paper_id_2", "relationship"]⟩,
    ⟨"scopus.dbo.[paper]", articleColumns⟩,
    ⟨"scopus.dbo.[citation]", articleColumns⟩,
    ⟨"category.dbo.[article]", ["target_eid", "category", "category_raw"]⟩,
    ⟨"fitness.dbo.[article]", ["target_eid", "fitness"]⟩]

/-- The columns of one side of a pair. -/
def sideNames (side : String) : List String :=
  ["id", "eid", "doi", "title", "journal", "pub_date", "pub_year", "pub_month", "pub_day"].map
    (side ++ "_" ++ ·)

def baseNames : List String := sideNames "cited" ++ sideNames "citing" ++ ["citation_time_days"]

def categoryNames : List String := ["target_eid", "category", "category_raw"]

def fitnessNames : List String := ["target_eid", "fitness"]

def perPairNames : List String :=
  baseNames ++ ["cited_category", "cited_category_raw", "cited_fitness"]

def conditionNames : List String := Catalog.keyColumns ++ ["fitness", "citation_count"]

def percentileNames : List String := conditionNames ++ ["fitness_pr", "citation_count_pr"]

def aggregationNames : List String :=
  Catalog.keyColumns ++
    ["n_articles", "fitness", "citation_count", "fitness_percentile", "citation_count_percentile",
      "fitness_bin_raw", "citation_count_bin_raw", "fitness_percentile_decile",
      "citation_count_percentile_decile"]

/-- The tables of the query, the last one first. -/
def definedTables : Scope :=
  [⟨"aggregation", aggregationNames⟩, ⟨"with_percentiles", percentileNames⟩,
    ⟨"condition", conditionNames⟩, ⟨"per_pair", perPairNames⟩, ⟨"fit", fitnessNames⟩,
    ⟨"cat", categoryNames⟩, ⟨"base", baseNames⟩]

/-! ## The selections without clauses -/

/-- Every selection without clauses is well scoped.  All of them are evaluated in one go. -/
theorem selections_wellScoped :
    base.select.WellScoped
      [⟨"r", ["paper_id_1", "paper_id_2", "relationship"]⟩, ⟨"p", articleColumns⟩,
        ⟨"c", articleColumns⟩] baseNames ∧
    category.select.WellScoped
      [⟨"category.dbo.[article]", ["target_eid", "category", "category_raw"]⟩] categoryNames ∧
    fitness.select.WellScoped
      [⟨"fitness.dbo.[article]", ["target_eid", "fitness"]⟩] fitnessNames ∧
    perPair.select.WellScoped
      [⟨"b", baseNames⟩, ⟨"ca", categoryNames⟩, ⟨"f", fitnessNames⟩] perPairNames ∧
    (condition noFilters).select.WellScoped [⟨"pp", perPairNames⟩] conditionNames ∧
    percentiles.select.WellScoped [⟨"c", conditionNames⟩] percentileNames ∧
    (aggregation binnedMetrics).select.WellScoped
      [⟨"with_percentiles", percentileNames⟩] aggregationNames := by
  decide +kernel

/-! ## Clauses of conditions -/

end Pipeline

/-- The relation that the tests of a stage are about, under the name that it has there. -/
def Stage.relation : Stage → Relation
  | .raw | .groupCondition => ⟨"pp", Pipeline.perPairNames⟩
  | .postAggregate => ⟨"aggregation", Pipeline.aggregationNames⟩

/-- The columns of a test belong to the relation of its stage.  They are named behind `pp.`, except
after the aggregation, and stand inside an aggregate exactly in a condition on groups. -/
structure Stage.Fits (stage : Stage) (use : ColumnUse) : Prop where
  column : use.name ∈ stage.relation.columns
  relation : use.relation? = if stage = .postAggregate then none else some stage.relation.name
  aggregated : use.aggregated = decide (stage = .groupCondition)

instance (stage : Stage) (use : ColumnUse) : Decidable (stage.Fits use) :=
  decidable_of_iff (use.name ∈ stage.relation.columns ∧
      use.relation? = (if stage = .postAggregate then none else some stage.relation.name) ∧
      use.aggregated = decide (stage = .groupCondition))
    ⟨fun ⟨column, relation, aggregated⟩ ↦ ⟨column, relation, aggregated⟩,
      fun h ↦ ⟨h.column, h.relation, h.aggregated⟩⟩

theorem Stage.Fits.has {stage : Stage} {use : ColumnUse} (h : stage.Fits use) :
    Scope.Has [stage.relation] use := by
  refine ⟨stage.relation, List.mem_singleton_self _, ?_, h.column⟩
  intro name hname
  rw [h.relation] at hname
  split at hname
  · cases hname
  · exact Option.some.inj hname

theorem Field.columnUses_fit : ∀ field ∈ Catalog.fields,
    field.columnUses ≠ [] ∧ ∀ use ∈ field.columnUses, field.stage.Fits use := by
  decide +kernel

theorem Filters.clause_fits {tree : Group Rule} {stage : Stage} {clause : String}
    (h : (ofTree tree).clause? stage = some clause) :
    ∃ uses ∈ Sql.columns? clause, ∀ use ∈ uses, stage.Fits use := by
  refine ⟨_, columns?_clause h, ?_⟩
  intro use huse
  obtain ⟨test, htest, hnamed⟩ := List.mem_flatMap.1 huse
  obtain rfl : test.field.stage = stage := by simpa using (List.mem_filter.1 htest).2
  exact (Field.columnUses_fit _ test.known).2 use hnamed

theorem Filters.clause_readsRows {tree : Group Rule} {stage : Stage} {clause : String}
    (hstage : stage ≠ .groupCondition) (h : (ofTree tree).clause? stage = some clause) :
    Scope.ReadsRows [stage.relation] clause := by
  obtain ⟨uses, huses, hfits⟩ := clause_fits h
  exact ⟨uses, huses, fun use huse ↦
    ⟨(hfits use huse).has, (hfits use huse).aggregated.trans (decide_eq_false hstage)⟩⟩

namespace Pipeline

theorem condition_ofTree_wellScoped (tree : Group Rule) :
    (condition (Filters.ofTree tree)).select.WellScoped [⟨"pp", perPairNames⟩] conditionNames := by
  obtain ⟨-, -, -, -, hcondition, -, -⟩ := selections_wellScoped
  refine { hcondition with filters := ?_, having := ?_ }
  · intro clause hclause
    exact Filters.clause_readsRows (by decide : Stage.raw ≠ .groupCondition)
      (Option.mem_toList.1 hclause)
  · intro clause hclause
    have hstage : (Filters.ofTree tree).clause? .groupCondition = some clause := hclause
    obtain ⟨uses, huses, hfits⟩ := Filters.clause_fits hstage
    refine ⟨uses, huses, fun use huse ↦ ⟨(hfits use huse).has, fun _ hrows ↦ ?_⟩⟩
    exact absurd ((hfits use huse).aggregated.symm.trans hrows) (by decide)

/-! ## The tables in sequence -/

theorem exists_columns_of_widens {outside : Scope} (h : externalTables.Widens outside) :
    ∃ relationship paper citation categories fitnesses,
      ["paper_id_1", "paper_id_2", "relationship"] ⊆ relationship ∧ articleColumns ⊆ paper ∧
      articleColumns ⊆ citation ∧ categoryNames ⊆ categories ∧ fitnessNames ⊆ fitnesses ∧
      outside = [⟨"scopus.dbo.[relationship]", relationship⟩, ⟨"scopus.dbo.[paper]", paper⟩,
        ⟨"scopus.dbo.[citation]", citation⟩, ⟨"category.dbo.[article]", categories⟩,
        ⟨"fitness.dbo.[article]", fitnesses⟩] := by
  simp only [Scope.Widens, externalTables, List.forall₂_cons_left_iff,
    List.forall₂_nil_left_iff] at h
  obtain ⟨⟨_, relationship⟩, _, ⟨rfl, hrelationship⟩, ⟨⟨_, paper⟩, _, ⟨rfl, hpaper⟩,
    ⟨⟨_, citation⟩, _, ⟨rfl, hcitation⟩, ⟨⟨_, categories⟩, _, ⟨rfl, hcategories⟩,
      ⟨⟨_, fitnesses⟩, _, ⟨rfl, hfitnesses⟩, rfl, rfl⟩, rfl⟩, rfl⟩, rfl⟩, rfl⟩ := h
  exact ⟨relationship, paper, citation, categories, fitnesses, hrelationship, hpaper, hcitation,
    hcategories, hfitnesses, rfl⟩

/-- The tables can be defined in their order, over external tables that have the columns that are
read. -/
theorem defines_tables {outside : Scope} (houtside : externalTables.Widens outside) (chart : Chart)
    (tree : Group Rule) :
    Defines outside (statement chart (Filters.ofTree tree)).tables (definedTables ++ outside) := by
  obtain ⟨relationship, paper, citation, categories, fitnesses, hrelationship, hpaper, hcitation,
    hcategories, hfitnesses, rfl⟩ := exists_columns_of_widens houtside
  obtain ⟨hbase, hcategory, hfitness, hperPair, -, hpercentiles, haggregation⟩ :=
    selections_wellScoped
  have hbase : base.select.WellScoped
      [⟨"r", relationship⟩, ⟨"p", paper⟩, ⟨"c", citation⟩] baseNames := by
    refine Scope.Widens.wellScoped ?_ (by decide +kernel) hbase
    exact .cons ⟨rfl, hrelationship⟩ (.cons ⟨rfl, hpaper⟩ (.cons ⟨rfl, hcitation⟩ .nil))
  have hcategory : category.select.WellScoped [⟨"category.dbo.[article]", categories⟩]
      categoryNames := by
    refine Scope.Widens.wellScoped ?_ (by decide +kernel) hcategory
    exact .cons ⟨rfl, hcategories⟩ .nil
  have hfitness : fitness.select.WellScoped [⟨"fitness.dbo.[article]", fitnesses⟩]
      fitnessNames := by
    refine Scope.Widens.wellScoped ?_ (by decide +kernel) hfitness
    exact .cons ⟨rfl, hfitnesses⟩ .nil
  exact .cons rfl rfl hbase (.cons rfl rfl hcategory (.cons rfl rfl hfitness
    (.cons rfl rfl hperPair (.cons rfl rfl (condition_ofTree_wellScoped tree)
      (.cons rfl rfl hpercentiles (.cons rfl rfl haggregation (.nil _)))))))

/-! ## The final selection -/

/-- The relation of the final selection. -/
def chartScope : Scope := [⟨"aggregation", aggregationNames⟩]

/-- What a field is in the final selection: a column of the aggregated articles under its own name,
which is one word and differs from the names of the measures. -/
structure IsAggregated (field : Field) : Prop where
  lexes : Sql.Lexes field.name [.word field.name.toList]
  word : Sql.ColumnReader.modeOfWord field.name = .name field.name
  column : field.name ∈ aggregationNames
  new : field.name ∉ [rowCountColumn, measureName]

instance (field : Field) : Decidable (IsAggregated field) :=
  decidable_of_iff (Sql.Lexes field.name [.word field.name.toList] ∧
      Sql.ColumnReader.modeOfWord field.name = .name field.name ∧
      field.name ∈ aggregationNames ∧ field.name ∉ [rowCountColumn, measureName])
    ⟨fun ⟨lexes, word, column, new⟩ ↦ ⟨lexes, word, column, new⟩,
      fun h ↦ ⟨h.lexes, h.word, h.column, h.new⟩⟩

theorem isAggregated_of_drawable {field : Field} (h : field.Drawable) : IsAggregated field := by
  have hall : ∀ field ∈ Catalog.fields, field.isChartable → IsAggregated field := by
    decide +kernel
  exact hall field h.known h.chartable

namespace IsAggregated

variable {field : Field}

theorem has (h : IsAggregated field) (aggregated : Bool) :
    chartScope.Has ⟨none, field.name, aggregated⟩ :=
  ⟨_, List.mem_singleton_self _, by simp, h.column⟩

theorem columns? (h : IsAggregated field) :
    Sql.columns? field.name = some [⟨none, field.name, false⟩] := by
  have hnames : Sql.Names [.word field.name.toList] [⟨none, field.name, false⟩] := by
    simp [Sql.Names, Sql.tokenColumns?, Sql.ColumnReader.run, Sql.ColumnReader.step,
      Sql.ColumnReader.start, Sql.ColumnReader.settled, Sql.ColumnReader.use, h.word]
  exact hnames.columns? h.lexes

/-- The field inside of an aggregate. -/
theorem passes_aggregate (h : IsAggregated field) {keyword : String}
    (hkeyword : keyword ∈ Sql.aggregates) :
    Sql.Passes [.word keyword.toList, .symbol '(', .word field.name.toList, .symbol ')']
      [⟨none, field.name, true⟩] := by
  have hword : ∀ keyword ∈ Sql.aggregates,
      Sql.ColumnReader.modeOfWord keyword = .name keyword ∧ keyword ≠ "DATEDIFF" := by
    decide
  obtain ⟨hmode, hdate⟩ := hword keyword hkeyword
  simp [Sql.Passes, Sql.ColumnReader.run, Sql.ColumnReader.step, Sql.ColumnReader.start,
    Sql.ColumnReader.settled, Sql.ColumnReader.use, h.word, hmode, hdate, hkeyword]

theorem settles_aggregate (h : IsAggregated field) {keyword : String}
    (hkeyword : keyword ∈ Sql.aggregates) :
    Sql.Settles (keyword ++ "(" ++ field.name ++ ")")
      [.word keyword.toList, .symbol '(', .word field.name.toList, .symbol ')'] := by
  have hopening : ∀ keyword ∈ Sql.aggregates,
      Sql.Settles (keyword ++ "(") [.word keyword.toList, .symbol '('] := by
    decide
  have hclosing : Sql.Separates ")" [.symbol ')'] := by decide
  exact ((hopening keyword hkeyword).append_lexes h.lexes).append_separates hclosing

end IsAggregated

/-- The text of an aggregated measure: an aggregate of the field, and perhaps a remark. -/
theorem aggregate_text (aggregation : Aggregation) (field : Field) :
    ∃ keyword ∈ Sql.aggregates, ∃ remark ∈ ["", " " ++ medianRemark],
      (measureColumn (.aggregate aggregation field)).expression =
        keyword ++ "(" ++ field.name ++ ")" ++ remark := by
  cases aggregation with
  | median =>
    refine ⟨"AVG", by decide, " " ++ medianRemark, by simp, ?_⟩
    have hopening : "AVG" ++ "(" = "AVG(" := by decide
    have hclosing : ")" ++ (" " ++ medianRemark) = ") " ++ medianRemark := by decide +kernel
    calc
      _ = "AVG(" ++ field.name ++ (") " ++ medianRemark) := String.append_assoc
      _ = "AVG" ++ "(" ++ field.name ++ (")" ++ (" " ++ medianRemark)) := by
        rw [hopening, hclosing]
      _ = _ := String.append_assoc.symm
  | count => exact ⟨"COUNT", by decide, "", by simp, String.append_empty.symm⟩
  | average => exact ⟨"AVG", by decide, "", by simp, String.append_empty.symm⟩
  | minimum => exact ⟨"MIN", by decide, "", by simp, String.append_empty.symm⟩
  | maximum => exact ⟨"MAX", by decide, "", by simp, String.append_empty.symm⟩

/-- A measure names its field inside of an aggregate, and no other column. -/
theorem columns?_measureColumn {measure : Measure} (h : ∀ field ∈ measure.field?, field.Drawable) :
    (measureColumn measure).star? = none ∧ Sql.columns? (measureColumn measure).expression =
      some (measure.field?.toList.map fun field ↦ ⟨none, field.name, true⟩) := by
  cases measure with
  | rowCount => decide +kernel
  | aggregate aggregation field =>
    have hfield := isAggregated_of_drawable (h field rfl)
    obtain ⟨keyword, hkeyword, remark, hremark, htext⟩ := aggregate_text aggregation field
    obtain ⟨later, hlexes, hnames⟩ : ∃ later, Sql.Lexes remark later ∧ Sql.Names later [] := by
      have hall : ∀ remark ∈ ["", " " ++ medianRemark],
          Sql.Lexes remark ((Sql.closedTokens? remark).getD []) ∧
            Sql.Names ((Sql.closedTokens? remark).getD []) [] := by
        decide +kernel
      exact ⟨_, hall remark hremark⟩
    have htokens := (hfield.settles_aggregate hkeyword).append_lexes hlexes
    have huses := ((hfield.passes_aggregate hkeyword).append_names hnames).columns? htokens
    rw [← htext] at htokens huses
    refine ⟨?_, huses⟩
    rw [OutputColumn.star?, htokens.tokens?]
    rfl

theorem alias?_measureColumn (measure : Measure) :
    ∃ name ∈ [rowCountColumn, measureName], (measureColumn measure).alias? = some name := by
  cases measure with
  | rowCount => exact ⟨rowCountColumn, by decide, rfl⟩
  | aggregate aggregation field =>
    exact ⟨measureName, by decide, by cases aggregation <;> rfl⟩

variable {chart : Chart}

theorem isAggregated_group (h : chart.Drawable) {name : String} (hname : name ∈ chart.groupNames) :
    ∃ field, IsAggregated field ∧ field.name = name := by
  obtain ⟨field, hfield, rfl⟩ := List.mem_map.1 hname
  exact ⟨field, isAggregated_of_drawable (h.groups.fields field hfield), rfl⟩

theorem columns?_group (h : chart.Drawable) {name : String} (hname : name ∈ chart.groupNames) :
    Sql.columns? name = some [⟨none, name, false⟩] := by
  obtain ⟨field, hfield, rfl⟩ := isAggregated_group h hname
  exact hfield.columns?

theorem groupUses_chartSelect (h : chart.Drawable) (filters : Filters) :
    (chartSelect chart filters).groupUses = chart.groupNames.map (⟨none, ·, false⟩) := by
  rw [List.map_eq_flatMap]
  apply List.flatMap_congr
  intro name hname
  rw [columns?_group h hname, Option.getD_some]

/-- A grouping field may be used wherever groups are seen. -/
theorem allows_group (h : chart.Drawable) (filters : Filters) {name : String}
    (hname : name ∈ chart.groupNames) :
    ∃ uses ∈ Sql.columns? name, (chartSelect chart filters).Allows chartScope uses := by
  refine ⟨_, columns?_group h hname, ?_⟩
  intro use huse
  rw [List.mem_singleton.1 huse, groupUses_chartSelect h]
  obtain ⟨field, hfield, rfl⟩ := isAggregated_group h hname
  exact ⟨hfield.has false, fun _ _ ↦ List.mem_map.2 ⟨field.name, hname, rfl⟩⟩

/-- A grouping field is an output column of its own name. -/
theorem name_group (h : chart.Drawable) {name : String} (hname : name ∈ chart.groupNames) :
    OutputColumn.star? ⟨name, none⟩ = none ∧ OutputColumn.ownName? ⟨name, none⟩ = some name := by
  obtain ⟨field, hfield, rfl⟩ := isAggregated_group h hname
  rw [OutputColumn.star?, OutputColumn.ownName?, hfield.lexes.tokens?]
  exact ⟨rfl, congrArg some String.ofList_toList⟩

/-- The output columns of the final selection are its grouping fields and its measure. -/
theorem forall_columns_chartSelect {filters : Filters} {property : OutputColumn → Prop} :
    (∀ column ∈ (chartSelect chart filters).columns, property column) ↔
      (∀ name ∈ chart.groupNames, property ⟨name, none⟩) ∧
        property (measureColumn chart.measure) := by
  simp only [chartSelect, List.forall_mem_append, List.forall_mem_map, List.forall_mem_singleton]

theorem columns_chartSelect (h : chart.Drawable) (filters : Filters) :
    ∀ column ∈ (chartSelect chart filters).columns,
      ∃ uses ∈ column.uses? chartScope, (chartSelect chart filters).Allows chartScope uses := by
  refine forall_columns_chartSelect.2 ⟨fun name hname ↦ ?_, ?_⟩
  · rw [OutputColumn.uses?, (name_group h hname).1]
    exact allows_group h filters hname
  · obtain ⟨hstar, huses⟩ := columns?_measureColumn h.measure
    rw [OutputColumn.uses?, hstar]
    refine ⟨_, huses, fun use huse ↦ ?_⟩
    obtain ⟨field, hfield, rfl⟩ := List.mem_map.1 huse
    have hdrawable := h.measure field (Option.mem_toList.1 hfield)
    exact ⟨(isAggregated_of_drawable hdrawable).has true, fun _ hrows ↦ by cases hrows⟩

/-- The names of the output columns are those of the grouping fields and of the measure. -/
theorem names_chartSelect (h : chart.Drawable) (filters : Filters) {measure : String}
    (halias : (measureColumn chart.measure).alias? = some measure) :
    (∀ column ∈ (chartSelect chart filters).columns, (column.names? chartScope).isSome) ∧
      (chartSelect chart filters).outputNames chartScope = chart.groupNames ++ [measure] := by
  have hgroups : ∀ name ∈ chart.groupNames,
      OutputColumn.names? ⟨name, none⟩ chartScope = some [name] := by
    intro name hname
    obtain ⟨hplain, hown⟩ := name_group h hname
    simp only [OutputColumn.names?, hplain, hown, Option.map_some]
  have hmeasure : (measureColumn chart.measure).names? chartScope = some [measure] := by
    simp only [OutputColumn.names?, (columns?_measureColumn h.measure).1, halias]
  refine ⟨forall_columns_chartSelect.2 ⟨fun name hname ↦ ?_, ?_⟩, ?_⟩
  · rw [hgroups name hname, Option.isSome_some]
  · rw [hmeasure, Option.isSome_some]
  · rw [Select.outputNames, chartSelect, List.flatMap_append, List.flatMap_map,
      List.flatMap_singleton, hmeasure, Option.getD_some]
    congr 1
    calc
      _ = chart.groupNames.flatMap fun name ↦ [name] := by
        apply List.flatMap_congr
        intro name hname
        rw [hgroups name hname, Option.getD_some]
      _ = _ := List.flatMap_singleton' _

/-- The measure is named otherwise than the grouping fields. -/
theorem nodup_names_chartSelect (h : chart.Drawable) {measure : String}
    (hmeasure : measure ∈ [rowCountColumn, measureName]) :
    (chart.groupNames ++ [measure]).Nodup := by
  refine List.nodup_append.2 ⟨h.groups.names, List.nodup_singleton _, ?_⟩
  intro name hname second hsecond hsame
  obtain ⟨field, hfield, rfl⟩ := isAggregated_group h hname
  rw [List.mem_singleton.1 hsecond] at hsame
  exact hfield.new (hsame ▸ hmeasure)

/-- The final selection groups the aggregated articles, and measures each group. -/
theorem chartSelect_wellScoped (h : chart.Drawable) (tree : Group Rule) :
    ∃ measure ∈ [rowCountColumn, measureName],
      (chartSelect chart (Filters.ofTree tree)).WellScoped chartScope
        (chart.groupNames ++ [measure]) := by
  obtain ⟨measure, hmeasure, halias⟩ := alias?_measureColumn chart.measure
  obtain ⟨hnamed, hnames⟩ := names_chartSelect h (Filters.ofTree tree) halias
  refine ⟨measure, hmeasure, {
    distinct := List.nodup_singleton _
    columns := columns_chartSelect h _
    joins := List.forall_mem_nil _
    filters := ?_
    groupBy := ?_
    having := by simp [chartSelect]
    orderBy := ?_
    named := hnamed
    names_eq := hnames
    nodup := nodup_names_chartSelect h hmeasure }⟩
  · intro clause hclause
    exact Filters.clause_readsRows (by decide : Stage.postAggregate ≠ .groupCondition)
      (Option.mem_toList.1 hclause)
  · intro name hname
    obtain ⟨field, hfield, rfl⟩ := isAggregated_group h hname
    refine ⟨_, hfield.columns?, fun use huse ↦ ?_⟩
    rw [List.mem_singleton.1 huse]
    exact ⟨hfield.has false, rfl⟩
  · intro key hkey
    rw [List.mem_singleton.1 hkey]
    exact allows_group h _ List.mem_cons_self

/-- Every selection of the chart query is well scoped. -/
theorem statement_wellScoped (h : chart.Drawable) (tree : Group Rule) {outside : Scope}
    (houtside : externalTables.Widens outside) :
    (statement chart (Filters.ofTree tree)).WellScoped outside (definedTables ++ outside) := by
  obtain ⟨measure, -, hchart⟩ := chartSelect_wellScoped h tree
  exact ⟨defines_tables houtside chart tree, chartScope, _, rfl, hchart⟩

end Pipeline

end StagedQuery
