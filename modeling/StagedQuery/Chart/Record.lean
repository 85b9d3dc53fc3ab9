import StagedQuery.Chart.Settings
import StagedQuery.Json.Text

/-!
# Charts as JSON

Chart settings are a record of seven fields, none of which has a default.
-/

namespace StagedQuery

open Json (Document DoubleReader Head Layout Mismatch ReadError Reader)

namespace SortDirection

/-- The direction with the given spelling. -/
def ofSpelling (spelling : String) : Except Mismatch SortDirection :=
  match spellings.lookup spelling with
  | some direction => .ok direction
  | none => .error (.unknownVariant spelling (spellings.map Prod.fst))

/-- Reads a direction, which is written as a text, or as the only key of an object that maps it to
null. The key is judged as soon as it is read. -/
def reader : Reader SortDirection
  | .string (some spelling) => (ofSpelling spelling).mapError .mismatch
  | .object ((some spelling, value) :: members) closed => do
    let direction ← (ofSpelling spelling).mapError .mismatch
    Reader.plain (fun head ↦
      if head = .null then .ok () else .error (.wrongType head .unit)) value
    if members.isEmpty && closed then return direction else throw .malformed
  | _ => .error .malformed

end SortDirection

/-- The aggregation that a value names. -/
def Aggregation.ofHead (head : Head) : Except Mismatch Aggregation := do
  let name ← head.asText
  (ofName name).mapError .unknownAggregation

namespace ChartSettings

def layout : Layout := ⟨"ChartConfig", 7⟩

/-- What is known of a configuration while the members are read. -/
structure Draft where
  x : Option String := none
  groupBy : Option (List String) := none
  direction : Option SortDirection := none
  yField : Option String := none
  yAggregation : Option Aggregation := none
  fitnessBinSize : Option Binary64 := none
  citationCountBinSize : Option Binary64 := none

/-! ## Fields -/

def readText : Reader String := .plain Head.asText

def readNames : Reader (List String) := .list readText

def readAggregation : Reader Aggregation := .plain Aggregation.ofHead

def readDouble : Reader Binary64 := .plain Head.asDouble

def Draft.member (draft : Draft) (key : String) : Reader Draft := fun document ↦ do
  match key with
  | "x" => return { draft with x := ← Reader.once "x" draft.x readText document }
  | "groupBy" =>
    return { draft with groupBy := ← Reader.once "groupBy" draft.groupBy readNames document }
  | "orderDir" =>
    let direction ← Reader.once "orderDir" draft.direction SortDirection.reader document
    return { draft with direction }
  | "yField" =>
    return { draft with yField := ← Reader.once "yField" draft.yField readText document }
  | "yAgg" =>
    let yAggregation ← Reader.once "yAgg" draft.yAggregation readAggregation document
    return { draft with yAggregation }
  | "fitnessBinSize" =>
    let fitnessBinSize ← Reader.once "fitnessBinSize" draft.fitnessBinSize readDouble document
    return { draft with fitnessBinSize }
  | "citationCountBinSize" =>
    let citationCountBinSize ←
      Reader.once "citationCountBinSize" draft.citationCountBinSize readDouble document
    return { draft with citationCountBinSize }
  | _ =>
    Reader.skip document
    return draft

/-! ## Records -/

def reader : Reader ChartSettings
  | .object members closed => do
    let draft ← Reader.members Draft.member {} members closed
    return {
      x := ← Reader.require "x" draft.x
      groupBy := ← Reader.require "groupBy" draft.groupBy
      direction := ← Reader.require "orderDir" draft.direction
      yField := ← Reader.require "yField" draft.yField
      yAggregation := ← Reader.require "yAgg" draft.yAggregation
      fitnessBinSize := ← Reader.require "fitnessBinSize" draft.fitnessBinSize
      citationCountBinSize :=
        ← Reader.require "citationCountBinSize" draft.citationCountBinSize }
  | .array items closed => do
    let x ← Reader.element layout items closed 0 none readText
    let groupBy ← Reader.element layout items closed 1 none readNames
    let direction ← Reader.element layout items closed 2 none SortDirection.reader
    let yField ← Reader.element layout items closed 3 none readText
    let yAggregation ← Reader.element layout items closed 4 none readAggregation
    let fitnessBinSize ← Reader.element layout items closed 5 none readDouble
    let citationCountBinSize ← Reader.element layout items closed 6 none readDouble
    Reader.endElements layout items closed
    return { x, groupBy, direction, yField, yAggregation, fitnessBinSize, citationCountBinSize }
  | document => Reader.plain (fun head ↦ .error (.wrongType head (.record layout))) document

/-- Reads settings from a text. -/
def ofText [DoubleReader] (text : String) : Except ReadError ChartSettings :=
  reader.run text

/-! ## Writing -/

/-- The JSON number for a width; what is not finite is written as null. -/
def widthJson : Binary64 → Json
  | .finite value => .number (.double value)
  | .infinite _ | .nan => .null

def toJson (settings : ChartSettings) : Json :=
  .object
    [("x", .string settings.x), ("groupBy", .array (settings.groupBy.map .string)),
      ("orderDir", .string settings.direction.keyword), ("yField", .string settings.yField),
      ("yAgg", .string settings.yAggregation.keyword),
      ("fitnessBinSize", widthJson settings.fitnessBinSize),
      ("citationCountBinSize", widthJson settings.citationCountBinSize)]

end ChartSettings

end StagedQuery
