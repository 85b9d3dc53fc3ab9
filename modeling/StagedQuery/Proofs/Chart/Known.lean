import StagedQuery.Chart.Basic
import StagedQuery.Proofs.Chart.Faults

/-!
# Fields of Charts

A chart only arises from settings whose names have been looked up: its fields come from the catalog
and can be charted, and no two of its grouping fields have the same name.
-/

namespace StagedQuery

/-! ## Results of the checks -/

theorem Catalog.require_eq_ok {name : String} {field : Field} (h : require name = .ok field) :
    find? name = some field := by
  cases hfind : find? name with
  | none => simp [require_of_find?_eq_none hfind] at h
  | some found =>
    rw [require_of_find? hfind] at h
    cases h
    rfl

theorem Catalog.requireChartable_eq_ok {name : String} {field : Field}
    (h : requireChartable name = .ok field) : find? name = some field ∧ field.isChartable := by
  obtain ⟨found, hfound, hresult⟩ := bind_eq_ok h
  split at hresult
  · next hchartable =>
    cases hresult
    exact ⟨require_eq_ok hfound, hchartable⟩
  · cases hresult

/-- Rows are counted exactly if the settings ask for it; any other measure is of a numeric field
that can be charted. -/
theorem Measure.ofSettings_eq_ok {settings : ChartSettings} {measure : Measure}
    (h : ofSettings settings = .ok measure) :
    settings.countsRows = true ∧ measure = .rowCount ∨ settings.countsRows = false ∧
      ∃ field, Catalog.find? settings.yField = some field ∧ field.isNumeric ∧ field.isChartable ∧
        measure = .aggregate settings.yAggregation field := by
  unfold ofSettings at h
  split at h
  · next hrows =>
    cases h
    exact .inl ⟨by simp [ChartSettings.countsRows, hrows], rfl⟩
  · obtain ⟨found, hfound, h⟩ := bind_eq_ok h
    cases hcounts : settings.countsRows with
    | true =>
      rw [hcounts] at h
      cases h
      exact .inl ⟨rfl, rfl⟩
    | false =>
      cases hnumeric : found.isNumeric with
      | false =>
        rw [hcounts, hnumeric] at h
        cases h
      | true =>
        cases hchartable : found.isChartable with
        | false =>
          rw [hcounts, hnumeric, hchartable] at h
          cases h
        | true =>
          rw [hcounts, hnumeric, hchartable] at h
          cases h
          exact .inr ⟨rfl, found, Catalog.require_eq_ok hfound, hnumeric, hchartable, rfl⟩

/-! ## The fields of a chart -/

/-- The field of a measure, if it has one. -/
def Measure.field? : Measure → Option Field
  | .rowCount => none
  | .aggregate _ field => some field

/-- The field is one that a chart may show. -/
structure Field.Drawable (field : Field) : Prop where
  known : field ∈ Catalog.fields
  chartable : field.isChartable

theorem Catalog.drawable_of_requireChartable {name : String} {field : Field}
    (h : requireChartable name = .ok field) : field.Drawable :=
  ⟨List.mem_of_find?_eq_some (requireChartable_eq_ok h).1, (requireChartable_eq_ok h).2⟩

namespace Chart

/-- The grouping fields of a chart, the first one apart. -/
structure GroupsDrawable (x : Field) (series : List Field) : Prop where
  fields : ∀ field ∈ x :: series, field.Drawable
  names : ((x :: series).map Field.name).Nodup

theorem GroupsDrawable.addSeries {x : Field} {series result : List Field} {name : String}
    (hseries : GroupsDrawable x series) (h : Chart.addSeries x series name = .ok result) :
    GroupsDrawable x result := by
  obtain ⟨found, hfound, hresult⟩ := bind_eq_ok h
  split at hresult
  · cases hresult
    exact hseries
  · next hnew =>
    cases hresult
    have hnames : ∀ field ∈ x :: series, field.name ≠ found.name := by
      simpa only [List.any_eq_true, decide_eq_true_eq, not_exists, not_and] using hnew
    constructor
    · intro field hfield
      rw [← List.cons_append] at hfield
      rcases List.mem_append.1 hfield with hold | hlast
      · exact hseries.fields field hold
      · rw [List.mem_singleton.1 hlast]
        exact Catalog.drawable_of_requireChartable hfound
    · rw [← List.cons_append, List.map_append, List.nodup_append]
      refine ⟨hseries.names, List.nodup_singleton _, ?_⟩
      intro first hfirst second hsecond
      obtain ⟨field, hfield, rfl⟩ := List.mem_map.1 hfirst
      rw [List.mem_singleton.1 hsecond]
      exact hnames field hfield

theorem GroupsDrawable.foldlM {x : Field} {names : List String} {series result : List Field}
    (hseries : GroupsDrawable x series)
    (h : names.foldlM (Chart.addSeries x) series = .ok result) : GroupsDrawable x result := by
  induction names generalizing series with
  | nil =>
    cases h
    exact hseries
  | cons name rest ih =>
    rw [List.foldlM_cons] at h
    obtain ⟨next, hnext, hrest⟩ := bind_eq_ok h
    exact ih (hseries.addSeries hnext) hrest

/-- What settings give a chart. -/
theorem ofSettings_eq_ok_iff {settings : ChartSettings} {chart : Chart} :
    ofSettings settings = .ok chart ↔ Catalog.requireChartable settings.x = .ok chart.x ∧
      settings.groupBy.foldlM (addSeries chart.x) [] = .ok chart.series ∧
      settings.direction = chart.direction ∧ Measure.ofSettings settings = .ok chart.measure ∧
      BinWidth.ofDouble "fitnessBinSize" settings.fitnessBinSize = .ok chart.fitnessWidth ∧
      BinWidth.ofDouble "citationCountBinSize" settings.citationCountBinSize =
        .ok chart.citationCountWidth := by
  constructor
  · intro h
    obtain ⟨x, hx, h⟩ := bind_eq_ok h
    obtain ⟨series, hseries, h⟩ := bind_eq_ok h
    obtain ⟨measure, hmeasure, h⟩ := bind_eq_ok h
    obtain ⟨fitnessWidth, hfitness, h⟩ := bind_eq_ok h
    obtain ⟨citationCountWidth, hcitationCount, h⟩ := bind_eq_ok h
    cases h
    exact ⟨hx, hseries, rfl, hmeasure, hfitness, hcitationCount⟩
  · rintro ⟨hx, hseries, hdirection, hmeasure, hfitness, hcitationCount⟩
    simp only [ofSettings, hx, bind_eq_ok_iff]
    exact ⟨_, rfl, _, hseries, _, hmeasure, _, hfitness, _, hcitationCount, by rw [hdirection]; rfl⟩

/-- The fields of a chart are fields of the catalog. -/
structure Known (chart : Chart) : Prop where
  groups : ∀ field ∈ chart.x :: chart.series, field ∈ Catalog.fields
  measure : ∀ field ∈ chart.measure.field?, field ∈ Catalog.fields

/-- The fields of a chart can be shown, and are grouped by under different names. -/
structure Drawable (chart : Chart) : Prop where
  groups : GroupsDrawable chart.x chart.series
  measure : ∀ field ∈ chart.measure.field?, field.Drawable

theorem drawable_of_ofSettings {settings : ChartSettings} {chart : Chart}
    (h : ofSettings settings = .ok chart) : chart.Drawable := by
  obtain ⟨hx, hseries, -, hmeasure, -⟩ := ofSettings_eq_ok_iff.1 h
  have hfirst : GroupsDrawable chart.x [] :=
    ⟨by simpa using Catalog.drawable_of_requireChartable hx, List.nodup_singleton _⟩
  refine ⟨hfirst.foldlM hseries, ?_⟩
  rcases Measure.ofSettings_eq_ok hmeasure with
    ⟨-, hrows⟩ | ⟨-, field, hfind, -, hchartable, hfield⟩
  · simp [hrows, Measure.field?]
  · simpa [hfield, Measure.field?] using
      (⟨List.mem_of_find?_eq_some hfind, hchartable⟩ : field.Drawable)

theorem Drawable.known {chart : Chart} (h : chart.Drawable) : chart.Known :=
  ⟨fun field hfield ↦ (h.groups.fields field hfield).known,
    fun field hfield ↦ (h.measure field hfield).known⟩

theorem known_of_ofSettings {settings : ChartSettings} {chart : Chart}
    (h : ofSettings settings = .ok chart) : chart.Known :=
  (drawable_of_ofSettings h).known

end Chart

end StagedQuery
