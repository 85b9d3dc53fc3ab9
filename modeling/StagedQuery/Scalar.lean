import StagedQuery.Binary64.Text
import StagedQuery.Catalog.Field
import StagedQuery.Json.Basic
import StagedQuery.Text.Blank
import StagedQuery.Text.Quoted

/-!
# Scalars

The single values that a rule compares with, and the literals that denote them in a query.
-/

namespace StagedQuery

inductive Scalar where
  | number (value : Binary64.Finite)
  | text (value : String)
  | bool (value : Bool)
deriving DecidableEq

namespace Scalar

/-- The scalar that a JSON value is; null, arrays and objects are none. -/
def ofJson? : Json → Option Scalar
  | .number value => some (.number value.toDouble)
  | .string value => some (.text value)
  | .bool value => some (.bool value)
  | .null | .array _ | .object _ => none

/-- The number that a scalar can be read as.  A text may have blank margins. -/
def asNumber? : Scalar → Option Binary64.Finite
  | .number value => some value
  | .text value => Binary64.Finite.ofText? (Text.trim value.toList)
  | .bool _ => none

def display : Scalar → String
  | .number value => value.plain
  | .text value => value
  | .bool value => if value then "true" else "false"

/-- The literal that stands for a scalar in a condition on a field of the given type.  Only
numeric fields get bare numbers, and only from what can be read as one. -/
def literal (scalar : Scalar) (type : FieldType) : String :=
  match type, scalar.asNumber? with
  | .number, some value => value.plain
  | _, _ => Text.quoted scalar.display

end Scalar

end StagedQuery
