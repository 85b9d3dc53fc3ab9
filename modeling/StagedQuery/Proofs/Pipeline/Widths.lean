import StagedQuery.Proofs.Pipeline.Scope
import StagedQuery.Proofs.Predicate.Masks
import StagedQuery.Proofs.Request.Masking
import StagedQuery.Proofs.Statement.Variables

/-!
# Uses of Bin Widths

The widths of bins are the only variables of the chart query.  Apart from its declaration, each of
them stands where it divides the average of its own metric.  No clause of a condition has a
variable, whatever its values are.
-/

namespace StagedQuery

open Sql (Follows Lexes Respects Token Use)
open Sql.Token (declare)

/-! ## Clauses -/

theorem Field.follows_referenceTokens {field : Field} (h : field ∈ Catalog.fields)
    (allowed : List Use) : Follows allowed field.referenceTokens := by
  have hat : ∀ field ∈ Catalog.fields, '@' ∉ field.reference.toList := by decide +kernel
  exact Sql.follows_of_constant
    (Sql.isVariable_eq_false (reference_facts field h).1.tokens? (hat field h))

/-- Clauses are read without variables; at signs are inside of literals. -/
theorem Filters.respects_clause {tree : Group Rule} (stage : Stage) {clause : String}
    (h : (ofTree tree).clause? stage = some clause) (allowed : List Use) :
    Respects allowed clause := by
  rw [clause?_ofTree, Option.map_eq_some_iff] at h
  obtain ⟨pruned, -, rfl⟩ := h
  have hcomposes := Sql.composes_follows allowed
  refine ⟨pruned.tokens FieldPredicate.tokens, pruned.lexes_text FieldPredicate.lexes_text,
    pruned.composed_tokens hcomposes fun test ↦ ?_⟩
  exact test.predicate.composed_tokens hcomposes
    (test.field.follows_referenceTokens test.known allowed) test.field.type

namespace Pipeline

/-! ## Tables -/

theorem tables_consist (chart : Chart) (tree : Group Rule) :
    ∀ table ∈ (statement chart (Filters.ofTree tree)).tables,
      Respects widthUses table.name ∧ table.select.Consists (Respects widthUses) := by
  have hfixed : ∀ table ∈ fixedTables, Respects widthUses table.name ∧
      (∀ piece ∈ table.select.pieces, Respects widthUses piece) ∧
      ∀ filter ∈ table.select.filters, Respects widthUses filter := by
    intro table htable
    have hpieces : ∀ piece ∈ table.name :: table.select.pieces ++ table.select.filters,
        Respects widthUses piece :=
      fun piece hpiece ↦ (fixedTables_standUnder table htable piece hpiece).respects
    simp only [List.forall_mem_append, List.forall_mem_cons] at hpieces
    exact ⟨hpieces.1.1, hpieces.1.2, hpieces.2⟩
  have hplain (table : NamedTable) (h : table ∈ fixedTables)
      (hhaving : table.select.having? = none) :
      Respects widthUses table.name ∧ table.select.Consists (Respects widthUses) := by
    obtain ⟨hname, hpieces, hfilters⟩ := hfixed table h
    exact ⟨hname, hpieces, hfilters, by simp [hhaving]⟩
  have hclause (stage : Stage) : ∀ clause ∈ (Filters.ofTree tree).clause? stage,
      Respects widthUses clause :=
    fun clause hclause ↦ Filters.respects_clause stage hclause widthUses
  obtain ⟨hname, hpieces, -⟩ := hfixed (condition noFilters) (by simp [fixedTables])
  have hcondition : (condition (Filters.ofTree tree)).select.Consists (Respects widthUses) :=
    ⟨hpieces, fun clause hmem ↦ hclause .raw clause (Option.mem_toList.1 hmem),
      hclause .groupCondition⟩
  simp only [statement, statementOver, List.forall_mem_cons]
  refine ⟨hplain base ?_ rfl, hplain category ?_ rfl, hplain fitness ?_ rfl, hplain perPair ?_ rfl,
    ⟨hname, hcondition⟩, hplain percentiles ?_ rfl, hplain (aggregation binnedMetrics) ?_ rfl,
    List.forall_mem_nil _⟩ <;> simp [fixedTables]

/-! ## The final selection -/

theorem at_notMem_name : ∀ field ∈ Catalog.fields, '@' ∉ field.name.toList := by decide +kernel

theorem respects_name {field : Field} (h : field ∈ Catalog.fields) :
    Respects widthUses field.name :=
  Sql.respects_of_stands (stands_name field h) (at_notMem_name field h)

/-- The expression of a measure has no variables. -/
theorem respects_measure {measure : Measure} (h : ∀ field ∈ measure.field?, field.Drawable) :
    Respects widthUses (measureColumn measure).expression := by
  cases measure with
  | rowCount => exact Sql.respects_of_stands (by decide) (by decide)
  | aggregate aggregation field =>
    obtain ⟨keyword, hkeyword, remark, hremark, htext⟩ := aggregate_text aggregation field
    have hkeywords : ∀ keyword ∈ Sql.aggregates, '@' ∉ keyword.toList := by decide
    have hremarks : ∀ remark ∈ ["", " " ++ medianRemark],
        Lexes remark ((Sql.closedTokens? remark).getD []) ∧ '@' ∉ remark.toList := by
      decide +kernel
    have hfield := h field rfl
    obtain ⟨hlast, hatRemark⟩ := hremarks remark hremark
    have hopening := (isAggregated_of_drawable hfield).settles_aggregate hkeyword
    rw [htext]
    refine Sql.respects_of_lexes (hopening.append_lexes hlast) ?_
    simp [hkeywords keyword hkeyword, hatRemark, at_notMem_name field hfield.known]

theorem chartSelect_consists {chart : Chart} (h : chart.Drawable) (tree : Group Rule) :
    (chartSelect chart (Filters.ofTree tree)).Consists (Respects widthUses) where
  pieces := by
    have hgroups : ∀ name ∈ chart.groupNames, Respects widthUses name := by
      intro name hname
      obtain ⟨field, hfield, rfl⟩ := List.mem_map.1 hname
      exact respects_name (h.groups.fields field hfield).known
    have hnames : ∀ name ∈ [rowCountColumn, measureName], Respects widthUses name := by decide
    obtain ⟨name, hname, halias⟩ := alias?_measureColumn chart.measure
    have hsource : Respects widthUses "aggregation" := by decide
    have hmeasure := respects_measure h.measure
    simp only [Select.pieces, chartSelect, List.forall_mem_append, List.forall_mem_flatMap,
      List.forall_mem_map, List.forall_mem_cons, List.map_nil, List.map_cons, halias,
      Option.toList_some, Option.toList_none, List.not_mem_nil, false_implies, implies_true,
      and_true]
    exact ⟨⟨⟨⟨hgroups, hmeasure, hnames name hname⟩, hsource⟩, hgroups⟩,
      hgroups chart.x.name List.mem_cons_self⟩
  filters := fun clause hclause ↦
    Filters.respects_clause .postAggregate (Option.mem_toList.1 hclause) widthUses
  having := by simp [chartSelect]

theorem respects_declaration {name : String} (h : name ∈ widthNames) (width : BinWidth) :
    Respects widthUses (Declaration.text ⟨name, width.toDouble⟩) := by
  have hlead : ∀ name ∈ widthNames, Follows widthUses (declare :: declarationLead name) := by
    decide
  refine ⟨_, lexes_declaration h width, ?_⟩
  have hvalue : Follows widthUses [.number
      (Binary64.Finite.plain ⟨false, width.magnitude⟩).toList, Token.semicolon] :=
    Sql.follows_of_constant (List.forall_mem_cons.2 ⟨rfl, by decide⟩)
  have htokens := (hlead name h).append hvalue
  simpa [declarationTokens] using htokens

/-- A width stands where it is declared, and where it divides the average of its own metric; there
are no other variables. -/
theorem respects_statement {chart : Chart} (h : chart.Drawable) (tree : Group Rule) :
    Respects widthUses (statement chart (Filters.ofTree tree)).text := by
  refine Statement.respects_text ⟨?_, tables_consist chart tree, chartSelect_consists h tree⟩
  have hfitness := respects_declaration (by decide : "fitness_bin_size" ∈ widthNames)
    chart.fitnessWidth
  have hcitationCount := respects_declaration (by decide : "citation_count_bin_sz" ∈ widthNames)
    chart.citationCountWidth
  exact List.forall_mem_cons.2 ⟨hfitness, List.forall_mem_singleton.2 hcitationCount⟩

end Pipeline

end StagedQuery
