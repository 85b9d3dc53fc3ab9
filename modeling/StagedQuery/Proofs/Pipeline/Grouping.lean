import StagedQuery.Proofs.Chart.Known
import StagedQuery.Proofs.Pipeline.Scope

/-!
# Groupings of Charts

A chart groups by its axis and then by the requested names, each of them once and where it is named
first.  The loop that collects the grouping fields keeps one invariant: the names collected so far,
followed by the names still to come, have the same first occurrences as at the start.  Requesting
the grouping of a chart again gives the same chart, and the final selection shows exactly the
grouping and one measure.
-/

namespace StagedQuery

/-! ## First occurrences -/

theorem eraseDups_of_nodup {names : List String} (h : names.Nodup) : names.eraseDups = names := by
  induction names with
  | nil => rfl
  | cons name rest ih =>
    obtain ⟨hname, hrest⟩ := List.nodup_cons.1 h
    have hfilter : rest.filter (fun other ↦ !other == name) = rest := by
      rw [List.filter_eq_self]
      intro other hother
      simpa using fun heq : other = name ↦ hname (heq ▸ hother)
    rw [List.eraseDups_cons, hfilter, ih hrest]

/-- A name that has occurred makes no difference when it occurs again. -/
theorem eraseDups_append_cons_of_mem {seen rest : List String} {name : String} (h : name ∈ seen) :
    (seen ++ name :: rest).eraseDups = (seen ++ rest).eraseDups := by
  have hremoved : (name :: rest).removeAll seen = rest.removeAll seen := by
    simp [List.removeAll, h]
  rw [List.eraseDups_append, List.eraseDups_append, hremoved]

/-! ## Fields by their names -/

namespace Catalog

theorem find?_name {field : Field} (h : field ∈ fields) : find? field.name = some field := by
  have hall : ∀ field ∈ fields, find? field.name = some field := by decide +kernel
  exact hall field h

/-- Fields of the catalog are known by their names. -/
theorem filterMap_find?_names {selected : List Field} (h : ∀ field ∈ selected, field ∈ fields) :
    (selected.map Field.name).filterMap find? = selected := by
  rw [List.filterMap_map]
  calc
    _ = selected.filterMap some :=
      List.filterMap_congr fun field hfield ↦ find?_name (h field hfield)
    _ = _ := List.filterMap_some

theorem chartFaults_of_drawable {field : Field} (h : field.Drawable) :
    chartFaults field.name = [] := by
  simp [chartFaults, find?_name h.known, h.chartable]

end Catalog

/-! ## The loop over the grouping fields -/

namespace Chart

variable {x : Field} {series result : List Field} {name : String} {names : List String}

/-- The grouping names after a step are the first occurrences among those before it and the new
name. -/
theorem names_addSeries (h : addSeries x series name = .ok result) (rest : List String) :
    ((x :: result).map Field.name ++ rest).eraseDups =
      ((x :: series).map Field.name ++ name :: rest).eraseDups := by
  obtain ⟨found, hfound, hresult⟩ := bind_eq_ok h
  obtain rfl := Catalog.name_of_find? (Catalog.requireChartable_eq_ok hfound).1
  split at hresult
  · next hold =>
    cases hresult
    have hmem : found.name ∈ (x :: series).map Field.name := by
      simpa only [List.any_eq_true, decide_eq_true_eq, List.mem_map] using hold
    exact (eraseDups_append_cons_of_mem hmem).symm
  · cases hresult
    rw [← List.cons_append, List.map_append, List.append_assoc]
    rfl

/-- The loop collects the first occurrences of the names. -/
theorem names_foldlM (hseries : GroupsDrawable x series)
    (h : names.foldlM (addSeries x) series = .ok result) :
    (x :: result).map Field.name = ((x :: series).map Field.name ++ names).eraseDups := by
  induction names generalizing series with
  | nil =>
    cases h
    rw [List.append_nil, eraseDups_of_nodup hseries.names]
  | cons name rest ih =>
    rw [List.foldlM_cons] at h
    obtain ⟨next, hnext, hrest⟩ := bind_eq_ok h
    rw [ih (hseries.addSeries hnext) hrest, names_addSeries hnext]

theorem foldlM_of_drawable (x : Field) (series : List Field)
    (h : ∀ name ∈ names, ∃ field : Field, field.Drawable ∧ field.name = name) :
    ∃ result, names.foldlM (addSeries x) series = .ok result := by
  have hfaults : names.flatMap Catalog.chartFaults = [] := by
    rw [List.flatMap_eq_nil_iff]
    intro name hname
    obtain ⟨field, hfield, rfl⟩ := h name hname
    exact Catalog.chartFaults_of_drawable hfield
  have houtcome := ReportsFirst.foldlM (addSeries_reportsFirst x) names series
  rwa [hfaults] at houtcome

/-- Names that are grouped by already are collected again in the same order. -/
theorem foldlM_names (h : GroupsDrawable x series) :
    ((x :: series).map Field.name).foldlM (addSeries x) [] = .ok series := by
  have hfirst : GroupsDrawable x [] :=
    ⟨by simpa using h.fields x List.mem_cons_self, List.nodup_singleton _⟩
  have hdrawable : ∀ name ∈ (x :: series).map Field.name,
      ∃ field : Field, field.Drawable ∧ field.name = name := by
    intro name hname
    obtain ⟨field, hfield, rfl⟩ := List.mem_map.1 hname
    exact ⟨field, h.fields field hfield, rfl⟩
  obtain ⟨result, hresult⟩ := foldlM_of_drawable x [] hdrawable
  have hknown {fields : List Field} (h : GroupsDrawable x fields) :
      ∀ field ∈ x :: fields, field ∈ Catalog.fields :=
    fun field hfield ↦ (h.fields field hfield).known
  have hnames : (x :: result).map Field.name = (x :: series).map Field.name := by
    have hseen : x.name ∈ [x.name] := List.mem_singleton_self _
    calc
      _ = ([x.name] ++ x.name :: series.map Field.name).eraseDups := names_foldlM hfirst hresult
      _ = ((x :: series).map Field.name).eraseDups := eraseDups_append_cons_of_mem hseen
      _ = (x :: series).map Field.name := eraseDups_of_nodup h.names
  have hsame : x :: result = x :: series := by
    rw [← Catalog.filterMap_find?_names (hknown (hfirst.foldlM hresult)), hnames,
      Catalog.filterMap_find?_names (hknown h)]
  rw [hresult, (List.cons.inj hsame).2]

/-! ## Charts -/

variable {settings : ChartSettings} {chart : Chart}

theorem groupNames_of_ofSettings (h : ofSettings settings = .ok chart) :
    chart.groupNames = (settings.x :: settings.groupBy).eraseDups := by
  obtain ⟨hx, hseries, -⟩ := ofSettings_eq_ok_iff.1 h
  have hfirst : GroupsDrawable chart.x [] :=
    ⟨by simpa using Catalog.drawable_of_requireChartable hx, List.nodup_singleton _⟩
  rw [groupNames, names_foldlM hfirst hseries,
    ← Catalog.name_of_find? (Catalog.requireChartable_eq_ok hx).1]
  rfl

/-- A chart is given again by settings that name its grouping. -/
theorem ofSettings_groupNames (h : ofSettings settings = .ok chart) :
    ofSettings { settings with groupBy := chart.groupNames } = .ok chart := by
  obtain ⟨hx, -, hrest⟩ := ofSettings_eq_ok_iff.1 h
  exact ofSettings_eq_ok_iff.2 ⟨hx, foldlM_names (drawable_of_ofSettings h).groups, hrest⟩

theorem measure_of_ofSettings (h : ofSettings settings = .ok chart) :
    settings.countsRows = true ∧ chart.measure = .rowCount ∨ settings.countsRows = false ∧
      ∃ field, Catalog.find? settings.yField = some field ∧ field.isNumeric ∧ field.isChartable ∧
        chart.measure = .aggregate settings.yAggregation field := by
  obtain ⟨-, -, -, hmeasure, -⟩ := ofSettings_eq_ok_iff.1 h
  exact Measure.ofSettings_eq_ok hmeasure

open Pipeline in
/-- A chart groups by the first occurrences of the requested names, its axis first.  Its measure is
the count of rows exactly if the settings ask for it, and otherwise an aggregation of a numeric
field.  The final selection consists of the grouping fields and the measure, which has a name of its
own and reads the measured field alone. -/
theorem grouping_of_ofSettings (h : ofSettings settings = .ok chart) (filters : Filters) :
    chart.groupNames = (settings.x :: settings.groupBy).eraseDups ∧ chart.groupNames.Nodup ∧
      chart.groupNames.head? = some settings.x ∧
      ofSettings { settings with groupBy := chart.groupNames } = .ok chart ∧
      (chart.measure = .rowCount ↔ settings.countsRows) ∧
      (chart.measure ≠ .rowCount → settings.yAggregation ≠ .count ∧
        ∃ field, Catalog.find? settings.yField = some field ∧ field.isNumeric ∧
          field.isChartable ∧ chart.measure = .aggregate settings.yAggregation field) ∧
      ∃ statement measure name, plan chart filters = .ok statement ∧
        statement.body.columns = chart.groupNames.map (⟨·, none⟩) ++ [measure] ∧
        measure.alias? = some name ∧ name ∉ chart.groupNames ∧
        Sql.columns? measure.expression =
          some (if settings.countsRows then [] else [⟨none, settings.yField, true⟩]) ∧
        statement.body.groupBy = chart.groupNames ∧
        statement.body.orderBy = [⟨settings.x, settings.direction⟩] := by
  have hdrawable := drawable_of_ofSettings h
  have hnames := groupNames_of_ofSettings h
  obtain ⟨hx, -, hdirection, -⟩ := ofSettings_eq_ok_iff.1 h
  have hfirst := Catalog.name_of_find? (Catalog.requireChartable_eq_ok hx).1
  have hmeasure := measure_of_ofSettings h
  obtain ⟨name, hname, halias⟩ := alias?_measureColumn chart.measure
  refine ⟨hnames, hdrawable.groups.names, ?_, ofSettings_groupNames h, ?_, ?_,
    statement chart filters, measureColumn chart.measure, name, plan_eq chart filters, rfl, halias,
    ?_, ?_, rfl, ?_⟩
  · rw [groupNames, List.map_cons, List.head?_cons, hfirst]
  · rcases hmeasure with ⟨hcounts, hrows⟩ | ⟨hcounts, field, -, -, -, hfield⟩
    · simp [hcounts, hrows]
    · simp [hcounts, hfield]
  · intro hother
    rcases hmeasure with ⟨-, hrows⟩ | ⟨hcounts, field, hfind, hnumeric, hchartable, hfield⟩
    · exact absurd hrows hother
    · have hcount : settings.yAggregation ≠ .count := by
        intro hcount
        simp [ChartSettings.countsRows, hcount] at hcounts
      exact ⟨hcount, field, hfind, hnumeric, hchartable, hfield⟩
  · intro hmem
    obtain ⟨field, hfield, rfl⟩ := isAggregated_group hdrawable hmem
    exact hfield.new hname
  · rw [(columns?_measureColumn hdrawable.measure).2]
    rcases hmeasure with ⟨hcounts, hrows⟩ | ⟨hcounts, field, hfind, -, -, hfield⟩
    · simp [hcounts, hrows, Measure.field?]
    · simp [hcounts, hfield, Measure.field?, Catalog.name_of_find? hfind]
  · change [(⟨chart.x.name, chart.direction⟩ : SortKey)] = _
    rw [hfirst, hdirection]

open Pipeline in
theorem grouping_of_ofSettings_repeated :
    let settings : ChartSettings :=
      { ChartSettings.initial with
        x := "cited_journal"
        groupBy := ["cited_category", "cited_journal", "cited_category"]
        yField := "fitness"
        yAggregation := .median }
    ∃ chart, ofSettings settings = .ok chart ∧
      chart.groupNames = ["cited_journal", "cited_category"] ∧ chart.measure ≠ .rowCount ∧
      ∃ statement measure, plan chart ⟨none, none, none⟩ = .ok statement ∧
        statement.body.columns =
          [⟨"cited_journal", none⟩, ⟨"cited_category", none⟩, measure] ∧
        Sql.columns? measure.expression = some [⟨none, "fitness", true⟩] := by
  intro settings
  have hfaults : settings.faults = [] := by
    have hgroups : (settings.x :: settings.groupBy).flatMap Catalog.chartFaults = [] := by decide
    have hmeasure : settings.measureFaults = [] := by decide
    have hinitial := ChartSettings.faults_initial
    simp only [ChartSettings.faults, List.append_eq_nil_iff] at hinitial ⊢
    exact ⟨⟨⟨hgroups, hmeasure⟩, hinitial.1.2⟩, hinitial.2⟩
  have houtcome := ofSettings_reportsFirst settings
  rw [hfaults] at houtcome
  obtain ⟨chart, hchart⟩ := houtcome
  obtain ⟨hnames, -, -, -, hrows, -, statement, measure, name, hplan, hcolumns, -, -, huses, -⟩ :=
    grouping_of_ofSettings hchart ⟨none, none, none⟩
  have hgroups : chart.groupNames = ["cited_journal", "cited_category"] := by
    rw [hnames]
    decide
  have hcounts : settings.countsRows = false := by decide
  rw [hgroups] at hcolumns
  rw [hcounts] at hrows huses
  exact ⟨chart, hchart, hgroups, by simpa using hrows, statement, measure, hplan, hcolumns, huses⟩

end Chart

end StagedQuery
