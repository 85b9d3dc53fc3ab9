import StagedQuery.Chart.Record
import StagedQuery.Condition.Record
import StagedQuery.Pipeline.Basic
import StagedQuery.Statement.Text

/-!
# Requests

A request pairs a condition with a chart.  Compiling it filters the data by the condition at every
stage, resolves the chart, and writes the statement that computes it.
-/

namespace StagedQuery

open Json (DoubleReader Layout ReadError Reader)

/-- The statement for a condition and a chart.  A fault of the condition counts before one of the
chart. -/
def compile (tree : Group Rule) (settings : ChartSettings) : Except RequestError String := do
  let filters ← (Filters.ofRules tree).mapError .unknownField
  let chart ← Chart.ofSettings settings
  let statement ← (Pipeline.plan chart filters).mapError .unknownField
  return statement.text

structure Request where
  conditions : Group Rule
  chart : ChartSettings

namespace Request

def compile (request : Request) : Except RequestError String :=
  StagedQuery.compile request.conditions request.chart

/-! ## Reading -/

def layout : Layout := ⟨"CompileRequest", 2⟩

/-- What is known of a request while its members are read. -/
structure Draft where
  conditions : Option (Group Rule) := none
  chart : Option ChartSettings := none

/-- A condition inside a request has one level less to nest in. -/
def readConditions : Reader (Group Rule) := Group.reader (Json.nestingLimit - 3)

def Draft.member (draft : Draft) (key : String) : Reader Draft := fun document ↦ do
  match key with
  | "conditions" | "query" =>
    let conditions ← Reader.once "conditions" draft.conditions readConditions document
    return { draft with conditions }
  | "chart" =>
    return { draft with chart := ← Reader.once "chart" draft.chart ChartSettings.reader document }
  | _ =>
    Reader.skip document
    return draft

def reader : Reader Request
  | .object members closed => do
    let draft ← Reader.members Draft.member {} members closed
    return {
      conditions := draft.conditions.getD {}
      chart := ← Reader.require "chart" draft.chart }
  | .array items closed => do
    let conditions ← Reader.element layout items closed 0 (some {}) readConditions
    let chart ← Reader.element layout items closed 1 none ChartSettings.reader
    Reader.endElements layout items closed
    return { conditions, chart }
  | document => Reader.plain (fun head ↦ .error (.wrongType head (.record layout))) document

/-- Reads a request from a text. -/
def ofText [DoubleReader] (text : String) : Except ReadError Request :=
  reader.run text

/-! ## Writing -/

def toJson (request : Request) : Json :=
  .object [("conditions", request.conditions.toJson), ("chart", request.chart.toJson)]

end Request

/-- Reads a request from a text and compiles it. -/
def compileText [DoubleReader] (text : String) : Except RequestError String := do
  let request ← (Request.ofText text).mapError .unreadable
  request.compile

/-- Where no other reader is named, doubles are read as the nearest ones. -/
instance (priority := low) : DoubleReader := .nearest

end StagedQuery
