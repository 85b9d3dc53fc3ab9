import StagedQuery.Aggregation
import StagedQuery.Condition.Rule
import StagedQuery.Json.Mismatch

/-!
# Request Errors

The reasons why a request cannot be turned into a statement.
-/

namespace StagedQuery

inductive RequestError where
  | unknownField (fault : UnknownField)
  | notChartable (field : String)
  | notNumeric (aggregation : Aggregation) (field : String)
  | invalidWidth (setting : String) (value : Binary64)
  | unreadable (fault : Json.ReadError)
deriving DecidableEq

/-- The text of an error.  A malformed text has no shape to describe. -/
def RequestError.message : RequestError → String
  | .unknownField fault => "Unknown field: " ++ fault.name
  | .notChartable field =>
    "Field '" ++ field ++ "' is not produced by the aggregation stage and cannot be charted"
  | .notNumeric aggregation field =>
    aggregation.keyword ++ " requires a numeric field, '" ++ field ++ "' is not numeric"
  | .invalidWidth setting value =>
    "Bin width " ++ setting ++ " must be a positive number, got " ++ value.plain
  | .unreadable .malformed => "Invalid request JSON"
  | .unreadable (.mismatch cause) => "Invalid request JSON: " ++ cause.message

end StagedQuery
