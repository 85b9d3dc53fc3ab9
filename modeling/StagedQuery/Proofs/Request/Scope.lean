import StagedQuery.Proofs.Pipeline.Scope
import StagedQuery.Proofs.Request.Insertion

/-!
# Scopes of Requests

The statement of every request that is compiled can be run over tables that have the columns it
reads: no condition and no chart makes it name a column out of scope, use an ungrouped one, or give
one name to two columns.
-/

namespace StagedQuery

open Pipeline in
/-- The statement of a request is well scoped, whatever further columns the external tables have.
The clauses of the condition stand in two selections, those over the pairs and over the aggregated
articles, and every test is about columns of the relation that the selection of its stage reads. -/
theorem compile_wellScoped {tree : Group Rule} {settings : ChartSettings} {text : String}
    (h : compile tree settings = .ok text) {outside : Scope}
    (houtside : externalTables.Widens outside) :
    ∃ filters chart statement known, Filters.ofRules tree = .ok filters ∧
      Chart.ofSettings settings = .ok chart ∧ plan chart filters = .ok statement ∧
      text = statement.text ∧ statement.WellScoped outside known ∧
      (∃ table ∈ statement.tables, table.name = "condition" ∧
        table.select.source = ⟨"per_pair", Stage.raw.relation.name⟩ ∧
        Stage.groupCondition.relation = Stage.raw.relation ∧
        known.find? "per_pair" = some ⟨"per_pair", Stage.raw.relation.columns⟩ ∧
        table.select.filters = filters.raw.toList ∧
        table.select.having? = filters.groupCondition) ∧
      statement.body.source = ⟨"aggregation", none⟩ ∧
      known.find? "aggregation" = some Stage.postAggregate.relation ∧
      statement.body.filters = filters.postAggregate.toList ∧
      (∀ stage, filters.atoms stage =
        (tree.effectiveLeaves.filter fun test ↦ test.field.stage = stage).map
          FieldPredicate.text) ∧
      ∀ test ∈ tree.effectiveLeaves, ∃ uses, Sql.columns? test.text = some uses ∧ uses ≠ [] ∧
        ∀ use ∈ uses, test.field.stage.Fits use := by
  have hknown := unknownField?_of_compile h
  obtain ⟨chart, hchart, rfl⟩ := compile_eq_ok h
  have hscoped := statement_wellScoped (Chart.drawable_of_ofSettings hchart) tree houtside
  refine ⟨Filters.ofTree tree, chart, statement chart (Filters.ofTree tree),
    definedTables ++ outside, ?_, hchart, plan_eq chart _, rfl, hscoped, ?_, rfl, rfl, rfl,
    Filters.atoms_ofTree tree, ?_⟩
  · rw [Filters.ofRules_eq, hknown, okUnless_none]
  · exact ⟨condition (Filters.ofTree tree), by simp [statement, statementOver], rfl, rfl, rfl, rfl,
      rfl, rfl⟩
  · intro test _
    obtain ⟨hnonempty, hfits⟩ := Field.columnUses_fit _ test.known
    exact ⟨test.field.columnUses, test.columns?_text, hnonempty, hfits⟩

open Pipeline in
theorem compile_wellScoped_negated :
    let tree : Group Rule :=
      ⟨.or, true, [.leaf ⟨"cited_title", "contains", .string "pp.x"⟩,
        .leaf ⟨"citation_count", ">", .string "3"⟩,
        .leaf ⟨"fitness_percentile_decile", "isNotNull", .null⟩]⟩
    ∃ text, compile tree .initial = .ok text ∧ externalTables.Widens externalTables ∧
      ∃ (statement : Statement) (known : Scope), text = statement.text ∧
        statement.WellScoped externalTables known := by
  intro tree
  have hwidens : externalTables.Widens externalTables :=
    List.forall₂_same.2 fun relation _ ↦ ⟨rfl, List.Subset.refl _⟩
  have hfields : tree.unknownFields = [] := by rfl
  have houtcome := compile_reportsFirst tree .initial
  rw [requestFaults, hfields, ChartSettings.faults_initial] at houtcome
  obtain ⟨text, htext⟩ := houtcome
  obtain ⟨filters, chart, statement, known, -, -, -, hstatement, hscoped, -⟩ :=
    compile_wellScoped htext hwidens
  exact ⟨text, htext, hwidens, statement, known, hstatement, hscoped⟩

end StagedQuery
