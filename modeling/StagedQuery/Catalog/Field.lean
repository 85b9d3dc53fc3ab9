/-!
# Fields

A field of the citation data set belongs to the stage of the query at which its value comes into
being. The stage decides where a filter on the field has to stand and how the field is named
there.
-/

namespace StagedQuery

inductive FieldType where
  | text
  | number
  | date
deriving DecidableEq

/-- The stages in the order in which the query runs through them: single pairs of a citing and a
cited article, aggregates over one cited article, and columns computed from those aggregates. -/
inductive Stage where
  | raw
  | groupCondition
  | postAggregate
deriving DecidableEq

namespace FieldType

def name : FieldType → String
  | .text => "text"
  | .number => "number"
  | .date => "date"

end FieldType

namespace Stage

def all : List Stage := [.raw, .groupCondition, .postAggregate]

def name : Stage → String
  | .raw => "raw"
  | .groupCondition => "group-condition"
  | .postAggregate => "post-aggregate"

end Stage

structure Field where
  name : String
  label : String
  type : FieldType
  stage : Stage
  /-- Whether a chart may group by the field or measure it. -/
  isChartable : Bool
  /-- The aggregate over the pairs of one cited article that computes the field. -/
  aggregate : Option String
deriving DecidableEq

namespace Field

def isNumeric (field : Field) : Bool := field.type = .number

def isDate (field : Field) : Bool := field.type = .date

/-- The expression that denotes the field where filters of its stage stand. -/
def reference (field : Field) : String :=
  match field.stage with
  | .raw => "pp." ++ field.name
  | .groupCondition => field.aggregate.getD ("pp." ++ field.name)
  | .postAggregate => "[" ++ field.name ++ "]"

end Field

end StagedQuery
