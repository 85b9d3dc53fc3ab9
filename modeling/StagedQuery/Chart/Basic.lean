import StagedQuery.Chart.Settings
import StagedQuery.RequestError

/-!
# Charts

A chart has known fields that can be charted, a measure that makes sense for its field, and
positive bin widths.  Settings are checked in a fixed order, the axis and the grouping fields
first, then the measure, then the widths, and the first fault counts.
-/

namespace StagedQuery

/-- A positive finite width. -/
structure BinWidth where
  magnitude : Binary64.Magnitude
  positive : 0 < magnitude.rank

inductive Measure where
  | rowCount
  | aggregate (aggregation : Aggregation) (field : Field)
deriving DecidableEq

structure Chart where
  x : Field
  /-- The grouping fields after `x`, each one once. -/
  series : List Field
  direction : SortDirection
  measure : Measure
  fitnessWidth : BinWidth
  citationCountWidth : BinWidth

/-! ## Widths -/

namespace BinWidth

def toDouble (width : BinWidth) : Binary64 :=
  .finite ⟨false, width.magnitude⟩

/-- The width that a double is, or an error that names the setting. -/
def ofDouble (setting : String) (value : Binary64) : Except RequestError BinWidth :=
  match value with
  | .finite ⟨false, magnitude⟩ =>
    if positive : 0 < magnitude.rank then .ok ⟨magnitude, positive⟩
    else .error (.invalidWidth setting value)
  | _ => .error (.invalidWidth setting value)

end BinWidth

/-! ## Fields -/

namespace Catalog

/-- The field with the given name, known or an error of a request. -/
def require (name : String) : Except RequestError Field :=
  (lookup name).mapError .unknownField

/-- The field with the given name, if it can be charted. -/
def requireChartable (name : String) : Except RequestError Field := do
  let field ← require name
  if field.isChartable then return field else throw (.notChartable name)

end Catalog

/-- The measure that settings ask for.  A field that is named must be known even where rows are
counted. -/
def Measure.ofSettings (settings : ChartSettings) : Except RequestError Measure := do
  if settings.yField = ChartSettings.rowCountName then return .rowCount
  let field ← Catalog.require settings.yField
  if settings.countsRows then return .rowCount
  if !field.isNumeric then throw (.notNumeric settings.yAggregation field.name)
  if !field.isChartable then throw (.notChartable field.name)
  return .aggregate settings.yAggregation field

namespace Chart

/-- The names of the grouping fields, of which `x` is the first. -/
def groupNames (chart : Chart) : List String :=
  (chart.x :: chart.series).map Field.name

/-- Adds a grouping field at the end, unless it is there already. -/
def addSeries (x : Field) (series : List Field) (name : String) :
    Except RequestError (List Field) := do
  let field ← Catalog.requireChartable name
  if (x :: series).any (·.name = field.name) then return series else return series ++ [field]

/-- The chart that settings ask for. -/
def ofSettings (settings : ChartSettings) : Except RequestError Chart := do
  let x ← Catalog.requireChartable settings.x
  let series ← settings.groupBy.foldlM (addSeries x) []
  let measure ← Measure.ofSettings settings
  let fitnessWidth ← BinWidth.ofDouble "fitnessBinSize" settings.fitnessBinSize
  let citationCountWidth ←
    BinWidth.ofDouble "citationCountBinSize" settings.citationCountBinSize
  return { x, series, direction := settings.direction, measure, fitnessWidth, citationCountWidth }

end Chart

end StagedQuery
