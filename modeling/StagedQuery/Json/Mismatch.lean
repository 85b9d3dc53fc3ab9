import StagedQuery.Aggregation
import StagedQuery.Binary64.Text
import StagedQuery.Json.Document
import StagedQuery.Text.Escaped

/-!
# Mismatches

What can be wrong with a JSON text that should hold a certain record: it may be malformed, or a
value in it may not have the shape that is expected at its place.  A head is as much of a value as
can be seen without looking inside a container; it is all that a reader of plain values needs, and
all that a message shows of a value that it refuses.
-/

namespace StagedQuery.Json

inductive Head where
  | null
  | bool (value : Bool)
  | number (value : Number)
  | string (value : String)
  | array
  | object
deriving DecidableEq

/-- A record that is written as an object, or as an array of its fields. -/
structure Layout where
  name : String
  size : Nat
deriving DecidableEq

inductive Expectation where
  | text
  | boolean
  | sequence
  | double
  | unit
  | record (layout : Layout)
deriving DecidableEq

inductive Mismatch where
  | wrongType (found : Head) (expected : Expectation)
  | missingField (name : String)
  | duplicateField (name : String)
  | tooFewElements (count : Nat) (layout : Layout)
  | tooManyElements (count : Nat)
  | unknownVariant (found : String) (variants : List String)
  | unknownAggregation (fault : UnknownAggregation)
deriving DecidableEq

inductive ReadError where
  | malformed
  | mismatch (cause : Mismatch)
deriving DecidableEq

/-! ## Messages -/

def Number.describe : Number → String
  | .integer value _ => "integer `" ++ toString value ++ "`"
  | .double value => "floating point `" ++ value.marked ++ "`"

def Head.describe : Head → String
  | .null => "null"
  | .bool value => "boolean `" ++ toString value ++ "`"
  | .number value => value.describe
  | .string value => "string " ++ Text.escape value
  | .array => "sequence"
  | .object => "map"

def Layout.describe (layout : Layout) : String :=
  "struct " ++ layout.name

def Expectation.describe : Expectation → String
  | .text => "a string"
  | .boolean => "a boolean"
  | .sequence => "a sequence"
  | .double => "f64"
  | .unit => "unit"
  | .record layout => layout.describe

def Mismatch.message : Mismatch → String
  | .wrongType found expected =>
    "invalid type: " ++ found.describe ++ ", expected " ++ expected.describe
  | .missingField name => "missing field `" ++ name ++ "`"
  | .duplicateField name => "duplicate field `" ++ name ++ "`"
  | .tooFewElements count layout =>
    "invalid length " ++ toString count ++ ", expected " ++ layout.describe ++ " with " ++
      toString layout.size ++ " elements"
  | .tooManyElements count =>
    "invalid length " ++ toString count ++ ", expected fewer elements in array"
  | .unknownVariant found variants =>
    "unknown variant `" ++ found ++ "`, expected one of " ++
      ", ".intercalate (variants.map fun variant ↦ "`" ++ variant ++ "`")
  | .unknownAggregation fault => fault.message

/-! ## Plain values -/

namespace Head

def asText : Head → Except Mismatch String
  | .string value => .ok value
  | head => .error (.wrongType head .text)

/-- A text, or nothing where null is written. -/
def asOptionalText : Head → Except Mismatch (Option String)
  | .null => .ok none
  | head => head.asText.map some

def asBool : Head → Except Mismatch Bool
  | .bool value => .ok value
  | head => .error (.wrongType head .boolean)

def asDouble : Head → Except Mismatch Binary64
  | .number value => .ok (.finite value.toDouble)
  | head => .error (.wrongType head .double)

end Head

/-- The head of a value. -/
def head : Json → Head
  | .null => .null
  | .bool value => .bool value
  | .number value => .number value
  | .string value => .string value
  | .array _ => .array
  | .object _ => .object

/-- The head of a document, unless its value cannot be read. -/
def Document.head? : Document → Option Head
  | .null => some .null
  | .bool value => some (.bool value)
  | .number value => value.map .number
  | .string value => value.map .string
  | .array _ _ => some .array
  | .object _ _ => some .object
  | .missing => none

end StagedQuery.Json
