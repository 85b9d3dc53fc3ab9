/-!
# Aggregations

The aggregations that a chart can apply to its measure, and the names under which they are asked
for. Names are read without regard to case.
-/

namespace StagedQuery

inductive Aggregation where
  | count
  | average
  | minimum
  | maximum
  | median
deriving DecidableEq

/-- A name that stands for no aggregation. -/
structure UnknownAggregation where
  name : String
deriving DecidableEq

def UnknownAggregation.message (fault : UnknownAggregation) : String :=
  "Unknown aggregation '" ++ fault.name ++ "'. Valid options: COUNT, AVG, MIN, MAX, MEDIAN"

namespace Aggregation

def keyword : Aggregation → String
  | .count => "COUNT"
  | .average => "AVG"
  | .minimum => "MIN"
  | .maximum => "MAX"
  | .median => "MEDIAN"

/-- The capital of a character, where it is an ASCII letter.  Two letters outside ASCII have one:
the dotless i and the long s. -/
def capital (c : Char) : Char :=
  if c = 'ı' then 'I' else if c = 'ſ' then 'S' else c.toUpper

def ofName (name : String) : Except UnknownAggregation Aggregation :=
  match String.ofList (name.toList.map capital) with
  | "COUNT" => .ok .count
  | "AVG" | "AVERAGE" => .ok .average
  | "MIN" | "MINIMUM" => .ok .minimum
  | "MAX" | "MAXIMUM" => .ok .maximum
  | "MEDIAN" => .ok .median
  | _ => .error ⟨name⟩

end Aggregation

end StagedQuery
