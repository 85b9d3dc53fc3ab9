import StagedQuery.Proofs.Chart.Known
import StagedQuery.Proofs.Pipeline.Fixed
import StagedQuery.Proofs.Statement.Alike

/-!
# Alike Chart Queries

Everything in the chart query but the clauses of the filters is fixed by the chart, and every fixed
piece is read as quiet tokens.  So the tables and the final selection stay alike when the clauses
are replaced by alike ones.
-/

namespace StagedQuery

open Sql (Alike Stands Leads Joins Token)

namespace Pipeline

/-! ## Tables -/

/-- A table whose selection and conditions can be read on their own. -/
structure FixedTable (table : NamedTable) : Prop where
  name : Stands table.name
  select : table.select.Fixed
  filters : ∀ filter ∈ table.select.filters, Stands filter
  having : table.select.having? = none

theorem FixedTable.alike {table : NamedTable} (h : FixedTable table) :
    Alike table.text table.text := by
  have hfilters : List.Forall₂ Alike table.select.filters table.select.filters :=
    List.forall₂_same.2 fun filter hfilter ↦ (h.filters filter hfilter).alike
  have hhaving : Option.Rel Alike table.select.having? table.select.having? := by
    rw [h.having]
    exact .none
  exact NamedTable.text_alike h.name (Select.text_alike h.select 1 hfilters hhaving)

theorem fixedTables_fixed : ∀ table ∈ fixedTables, FixedTable table := by
  intro table htable
  have hpieces : ∀ piece ∈ table.name :: table.select.pieces ++ table.select.filters,
      Stands piece :=
    fun piece hpiece ↦ (fixedTables_standUnder table htable piece hpiece).stands
  have hhaving : ∀ table ∈ fixedTables, table.select.having? = none := by decide
  simp only [List.forall_mem_append, List.forall_mem_cons] at hpieces
  obtain ⟨⟨hname, hselect⟩, hfilters⟩ := hpieces
  exact ⟨hname, Select.fixed_of_pieces hselect, hfilters, hhaving table htable⟩

theorem condition_alike {first second : Filters}
    (h : ∀ stage, Option.Rel Alike (first.clause? stage) (second.clause? stage)) :
    Alike (condition first).text (condition second).text := by
  have hfixed := fixedTables_fixed (condition noFilters) (by simp [fixedTables])
  exact NamedTable.text_alike hfixed.name (Select.text_alike hfixed.select 1
    (Sql.forall₂_toList (h .raw)) (h .groupCondition))

theorem tables_alike (chart : Chart) {first second : Filters}
    (h : ∀ stage, Option.Rel Alike (first.clause? stage) (second.clause? stage)) :
    List.Forall₂ Alike ((statement chart first).tables.map NamedTable.text)
      ((statement chart second).tables.map NamedTable.text) := by
  have hfixed : ∀ table ∈ fixedTables, Alike table.text table.text :=
    fun table htable ↦ (fixedTables_fixed table htable).alike
  simp only [fixedTables, List.forall_mem_cons] at hfixed
  obtain ⟨hbase, hcategory, hfitness, hperPair, -, hpercentiles, haggregation, -⟩ := hfixed
  exact .cons hbase (.cons hcategory (.cons hfitness (.cons hperPair
    (.cons (condition_alike h) (.cons hpercentiles (.cons haggregation .nil))))))

/-! ## The final selection -/

theorem stands_name : ∀ field ∈ Catalog.fields, Stands field.name := by decide +kernel

theorem stands_measureName : Stands measureName := by decide

/-- An aggregated measure, whose keyword and name stand on both sides of a parenthesis. -/
theorem stands_measureColumn {measure : Measure}
    (h : ∀ field ∈ measure.field?, field ∈ Catalog.fields) :
    Stands (measureColumn measure).text := by
  cases measure with
  | rowCount => exact (by decide : Stands "COUNT(*)").withAlias (by decide) (by decide)
  | aggregate aggregation field =>
    have hname := (stands_name field (h field rfl)).alike
    have hopening (aggregation : Aggregation) : Sql.Settles (aggregation.keyword ++ "(")
        ([.word aggregation.keyword.toList] ++ .symbol '(' :: []) := by
      cases aggregation <;> decide
    have hquiet (aggregation : Aggregation) : Sql.Quiet [.word aggregation.keyword.toList] := by
      cases aggregation <;> decide
    have hclosing : Sql.Separates ")" ([] ++ .symbol ')' :: []) := by decide
    have hplain := ((hname.enclose (hopening aggregation) hclosing
      ⟨hquiet aggregation, Sql.quiet_nil, Sql.quiet_nil, Sql.quiet_nil⟩).glue
      (by decide : Joins " AS ") stands_measureName.alike).stands
    cases aggregation with
    | median =>
      have hremark : Sql.Separates (") " ++ medianRemark) ([] ++ .symbol ')' ::
          [Token.space, .blockComment " MEDIAN approximated by AVG ".toList]) := by decide +kernel
      have hmedian := ((hname.enclose (hopening .average) hremark
        ⟨hquiet .average, Sql.quiet_nil, Sql.quiet_nil, by decide⟩).glue
        (by decide : Joins " AS ") stands_measureName.alike).stands
      rw [← String.append_assoc] at hmedian
      exact hmedian
    | count => exact hplain
    | average => exact hplain
    | minimum => exact hplain
    | maximum => exact hplain

theorem stands_sortKey {field : Field} (hfield : field ∈ Catalog.fields)
    (direction : SortDirection) : Stands (SortKey.text ⟨field.name, direction⟩) := by
  have hdirection : Stands direction.keyword := by cases direction <;> decide
  exact ((stands_name field hfield).alike.glue (by decide) hdirection.alike).stands

theorem chartSelect_fixed {chart : Chart} (h : chart.Known) :
    (chartSelect chart noFilters).Fixed where
  columns := by
    intro column hcolumn
    rcases List.mem_append.1 hcolumn with hgroup | hmeasure
    · obtain ⟨name, hname, rfl⟩ := List.mem_map.1 hgroup
      obtain ⟨field, hfield, rfl⟩ := List.mem_map.1 hname
      exact stands_name field (h.groups field hfield)
    · rw [List.mem_singleton.1 hmeasure]
      exact stands_measureColumn h.measure
  source := (by decide : Stands "aggregation")
  joins := by simp [chartSelect]
  groupBy := by
    intro name hname
    obtain ⟨field, hfield, rfl⟩ := List.mem_map.1 hname
    exact stands_name field (h.groups field hfield)
  orderBy := by
    intro key hkey
    rw [List.mem_singleton.1 hkey]
    exact stands_sortKey (h.groups chart.x List.mem_cons_self) chart.direction

theorem chartSelect_alike {chart : Chart} (hknown : chart.Known) {first second : Filters}
    (h : ∀ stage, Option.Rel Alike (first.clause? stage) (second.clause? stage)) :
    Alike ((chartSelect chart first).text 0) ((chartSelect chart second).text 0) :=
  Select.text_alike (chartSelect_fixed hknown) 0 (Sql.forall₂_toList (h .postAggregate)) .none

end Pipeline

end StagedQuery
