import StagedQuery.Chart.Basic
import StagedQuery.Proofs.Binary64.Value
import StagedQuery.Proofs.FirstFault

/-!
# Faults of Chart Settings

The faults of chart settings are listed in the order in which they count: those of the axis and of
every grouping field, repetitions included, then that of the measure, then those of the widths.
Resolving the settings reports the first of them.
-/

namespace StagedQuery

/-! ## Lists of faults -/

/-- The faults of a name as the axis or a grouping field. -/
def Catalog.chartFaults (name : String) : List RequestError :=
  match find? name with
  | none => [.unknownField ⟨name⟩]
  | some field => if field.isChartable then [] else [.notChartable name]

namespace ChartSettings

/-- The faults of the measure.  A plain count of rows only needs a known name. -/
def measureFaults (settings : ChartSettings) : List RequestError :=
  if settings.yField = rowCountName then []
  else
    match Catalog.find? settings.yField with
    | none => [.unknownField ⟨settings.yField⟩]
    | some field =>
      if settings.yAggregation = .count then []
      else if !field.isNumeric then [.notNumeric settings.yAggregation settings.yField]
      else if !field.isChartable then [.notChartable settings.yField]
      else []

def widthFaults (setting : String) (value : Binary64) : List RequestError :=
  if value.isPositive then [] else [.invalidWidth setting value]

/-- All faults of settings in order. -/
def faults (settings : ChartSettings) : List RequestError :=
  (settings.x :: settings.groupBy).flatMap Catalog.chartFaults ++ settings.measureFaults ++
    widthFaults "fitnessBinSize" settings.fitnessBinSize ++
    widthFaults "citationCountBinSize" settings.citationCountBinSize

end ChartSettings

/-- The settings from which a chart starts have no fault. -/
theorem ChartSettings.faults_initial : initial.faults = [] := by
  have hchart : (initial.x :: initial.groupBy).flatMap Catalog.chartFaults = [] := by decide
  have hmeasure : initial.measureFaults = [] := by decide
  have hfitness : initial.fitnessBinSize.isPositive = true := by
    rw [initial, Binary64.isPositive_finite]
    decide
  have hcitationCount : initial.citationCountBinSize.isPositive = true := by
    rw [initial, Binary64.isPositive_finite]
    decide
  rw [faults, hchart, hmeasure, widthFaults, widthFaults, if_pos hfitness, if_pos hcitationCount]
  rfl

/-! ## Checks report the first fault -/

theorem Catalog.name_of_find? {name : String} {field : Field} (h : find? name = some field) :
    field.name = name := by
  simpa using List.find?_some h

theorem Catalog.require_of_find? {name : String} {field : Field} (h : find? name = some field) :
    require name = pure field := by
  rw [require, lookup, h]
  rfl

theorem Catalog.require_of_find?_eq_none {name : String} (h : find? name = none) :
    require name = .error (.unknownField ⟨name⟩) := by
  rw [require, lookup, h]
  rfl

theorem Catalog.requireChartable_reportsFirst (name : String) :
    ReportsFirst (requireChartable name) (chartFaults name) := by
  unfold requireChartable chartFaults
  cases hfind : find? name with
  | none =>
    rw [require_of_find?_eq_none hfind]
    rfl
  | some field =>
    rw [require_of_find? hfind]
    change ReportsFirst (if _ then _ else _) (if _ then _ else _)
    split
    · exact reportsFirst_ok field
    · rfl

theorem Chart.addSeries_reportsFirst (x : Field) (series : List Field) (name : String) :
    ReportsFirst (addSeries x series name) (Catalog.chartFaults name) := by
  rw [← List.append_nil (Catalog.chartFaults name)]
  apply (Catalog.requireChartable_reportsFirst name).bind
  intro field _
  split
  · exact reportsFirst_ok series
  · exact reportsFirst_ok (series ++ [field])

theorem Measure.ofSettings_reportsFirst (settings : ChartSettings) :
    ReportsFirst (ofSettings settings) settings.measureFaults := by
  unfold ofSettings ChartSettings.measureFaults
  by_cases hrows : settings.yField = ChartSettings.rowCountName
  · rw [if_pos hrows, if_pos hrows]
    exact reportsFirst_ok Measure.rowCount
  · have hcounts : settings.countsRows = decide (settings.yAggregation = .count) := by
      simp [ChartSettings.countsRows, hrows]
    rw [if_neg hrows, if_neg hrows, hcounts]
    cases hfind : Catalog.find? settings.yField with
    | none =>
      rw [Catalog.require_of_find?_eq_none hfind]
      rfl
    | some field =>
      rw [Catalog.require_of_find? hfind, pure_bind, ← Catalog.name_of_find? hfind]
      by_cases hcount : settings.yAggregation = .count
      · simp only [hcount]
        exact reportsFirst_ok Measure.rowCount
      · simp only [hcount, decide_false, if_false]
        cases hnumeric : field.isNumeric with
        | false => rfl
        | true =>
          cases hchartable : field.isChartable with
          | false => rfl
          | true => exact reportsFirst_ok _

/-- A width is accepted exactly if it is positive. -/
theorem BinWidth.ofDouble_reportsFirst (setting : String) (value : Binary64) :
    ReportsFirst (ofDouble setting value) (ChartSettings.widthFaults setting value) := by
  unfold ofDouble ChartSettings.widthFaults
  cases value with
  | finite value =>
    obtain ⟨negative, magnitude⟩ := value
    rw [Binary64.isPositive_finite]
    cases negative with
    | true => rfl
    | false =>
      by_cases hpositive : 0 < magnitude.rank
      · simpa [hpositive] using reportsFirst_ok _
      · simp only [hpositive]
        rfl
  | infinite negative => rfl
  | nan => rfl

/-- Resolving settings reports their first fault. -/
theorem Chart.ofSettings_reportsFirst (settings : ChartSettings) :
    ReportsFirst (ofSettings settings) settings.faults := by
  have hgroupBy (x : Field) := ReportsFirst.foldlM (Chart.addSeries_reportsFirst x)
    settings.groupBy []
  rw [ChartSettings.faults, List.flatMap_cons, List.append_assoc, List.append_assoc,
    List.append_assoc]
  apply (Catalog.requireChartable_reportsFirst settings.x).bind
  intro x _
  apply (hgroupBy x).bind
  intro series _
  apply (Measure.ofSettings_reportsFirst settings).bind
  intro measure _
  apply (BinWidth.ofDouble_reportsFirst _ _).bind
  intro fitnessWidth _
  rw [← List.append_nil (ChartSettings.widthFaults _ _)]
  apply (BinWidth.ofDouble_reportsFirst _ _).bind
  intro citationCountWidth _
  exact reportsFirst_ok _

end StagedQuery
