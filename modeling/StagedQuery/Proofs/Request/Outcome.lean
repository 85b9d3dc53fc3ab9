import StagedQuery.Proofs.Chart.Faults
import StagedQuery.Proofs.Filters.Rendering
import StagedQuery.Request

/-!
# Outcomes of Requests

Compiling a request reports the first rule on an unknown field, wherever it stands in the condition
and whatever the chart, and otherwise the first fault of the chart.  Nothing else can fail: neither
a rule that states nothing nor the lookups while the statement is built.
-/

namespace StagedQuery

/-- The unknown fields that the rules of a condition name, in order. -/
def Group.unknownFields (tree : Group Rule) : List UnknownField :=
  (tree.leaves.filter fun rule ↦ (Catalog.find? rule.field).isNone).map fun rule ↦ ⟨rule.field⟩

theorem Group.unknownField?_eq_head? (tree : Group Rule) :
    tree.unknownField? = tree.unknownFields.head? := by
  unfold unknownField? unknownFields
  induction tree.leaves with
  | nil => rfl
  | cons rule rest ih =>
    rw [List.findSome?_cons, Rule.unknownField?, List.filter_cons]
    cases hfind : Catalog.find? rule.field with
    | none => rfl
    | some field => exact ih

theorem Group.render_reportsFirst (tree : Group Rule) (stage : Stage) :
    ReportsFirst (tree.render stage) tree.unknownFields := by
  rw [render_eq, unknownField?_eq_head?]
  exact reportsFirst_okUnless _ _

theorem Filters.ofRules_reportsFirst (tree : Group Rule) :
    ReportsFirst (ofRules tree) tree.unknownFields := by
  rw [ofRules_eq, Group.unknownField?_eq_head?]
  exact reportsFirst_okUnless _ _

/-- All faults of a condition and a chart in the order in which they count. -/
def requestFaults (tree : Group Rule) (settings : ChartSettings) : List RequestError :=
  tree.unknownFields.map .unknownField ++ settings.faults

theorem compile_reportsFirst (tree : Group Rule) (settings : ChartSettings) :
    ReportsFirst (compile tree settings) (requestFaults tree settings) := by
  unfold compile requestFaults
  apply ((Filters.ofRules_reportsFirst tree).mapError RequestError.unknownField).bind
  intro filters _
  rw [← List.append_nil settings.faults]
  apply (Chart.ofSettings_reportsFirst settings).bind
  intro chart _
  rw [Pipeline.plan_eq]
  exact reportsFirst_ok (Pipeline.statement chart filters).text

/-- The text of a request comes from its chart and from the clauses of its condition. -/
theorem compile_eq_ok {tree : Group Rule} {settings : ChartSettings} {text : String}
    (h : compile tree settings = .ok text) : ∃ chart, Chart.ofSettings settings = .ok chart ∧
      (Pipeline.statement chart (Filters.ofTree tree)).text = text := by
  unfold compile at h
  rw [Filters.ofRules_eq, mapError_okUnless] at h
  obtain ⟨filters, hfilters, h⟩ := bind_eq_ok h
  obtain ⟨-, rfl⟩ := okUnless_eq_ok_iff.1 hfilters
  obtain ⟨chart, hchart, h⟩ := bind_eq_ok h
  rw [Pipeline.plan_eq] at h
  exact ⟨chart, hchart, Except.ok.inj h⟩

theorem compile_of_chart {tree : Group Rule} {settings : ChartSettings} {chart : Chart}
    (hknown : tree.unknownField? = none) (hchart : Chart.ofSettings settings = .ok chart) :
    compile tree settings = .ok (Pipeline.statement chart (Filters.ofTree tree)).text := by
  rw [compile, Filters.ofRules_eq, hknown, hchart]
  simp only [Pipeline.plan_eq]
  rfl

theorem Group.unknownFields_congr {first second : Group Rule}
    (h : first.leaves.map Rule.field = second.leaves.map Rule.field) :
    first.unknownFields = second.unknownFields := by
  have hfields (tree : Group Rule) : tree.unknownFields =
      ((tree.leaves.map Rule.field).filter fun name ↦ (Catalog.find? name).isNone).map
        UnknownField.mk := by
    rw [List.filter_map, List.map_map]
    rfl
  rw [hfields, hfields, h]

/-- Compiling fails with the first rule on an unknown field, and so does rendering at every stage;
without such a rule it fails with the first fault of the chart, and otherwise gives a statement.
Operators and values of rules never make a difference. -/
theorem compile_outcome (tree : Group Rule) (settings : ChartSettings) :
    ReportsFirst (compile tree settings)
        (tree.unknownFields.map .unknownField ++ settings.faults) ∧
      (∀ stage, ReportsFirst (tree.render stage) tree.unknownFields) ∧
      ∀ other : Group Rule, other.leaves.map Rule.field = tree.leaves.map Rule.field →
        ∀ fault, compile other settings = .error fault ↔ compile tree settings = .error fault := by
  refine ⟨compile_reportsFirst tree settings, tree.render_reportsFirst, ?_⟩
  intro other hfields fault
  have hfaults : requestFaults other settings = requestFaults tree settings := by
    rw [requestFaults, requestFaults, Group.unknownFields_congr hfields]
  rw [(compile_reportsFirst other settings).eq_error_iff,
    (compile_reportsFirst tree settings).eq_error_iff, hfaults]

end StagedQuery
