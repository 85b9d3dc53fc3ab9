import StagedQuery.Operator
import StagedQuery.Scalar

/-!
# Predicates

A predicate is an operator together with operands of the shape that it takes.  Any JSON value can
be sent as the operand of any operator; reading it gives the predicate or the reason why there is
none.
-/

namespace StagedQuery

inductive Predicate where
  | compare (comparison : Comparison) (operand : Scalar)
  | like (textMatch : TextMatch) (operand : Scalar)
  | between (negated : Bool) (low high : Scalar)
  | member (negated : Bool) (items : List Scalar)
  | null (negated : Bool)
deriving DecidableEq

/-- The reasons why a rule says nothing. -/
inductive RuleFault where
  | unknownOperator (name : String)
  | missingValue (operator : Operator)
  | expectedRange (operator : Operator)
  | expectedScalar (operator : Operator)
  | emptyList (operator : Operator)
deriving DecidableEq

def RuleFault.message : RuleFault → String
  | .unknownOperator name => "Unknown operator '" ++ name ++ "'"
  | .missingValue operator => "Operator '" ++ operator.name ++ "' requires a value"
  | .expectedRange operator => "Operator '" ++ operator.name ++ "' requires exactly two values"
  | .expectedScalar operator => "Operator '" ++ operator.name ++ "' requires a single value"
  | .emptyList operator => "Operator '" ++ operator.name ++ "' requires a non-empty list"

namespace Predicate

def operator : Predicate → Operator
  | .compare comparison _ => .compare comparison
  | .like textMatch _ => .like textMatch
  | .between negated _ _ => .between negated
  | .member negated _ => .member negated
  | .null negated => .null negated

/-- The operands in the order in which they are written. -/
def operands : Predicate → List Scalar
  | .compare _ operand | .like _ operand => [operand]
  | .between _ low high => [low, high]
  | .member _ items => items
  | .null _ => []

/-! ## From JSON -/

/-- The single operand of an operator. -/
def scalarOperand (operator : Operator) : Json → Except RuleFault Scalar
  | .null => .error (.missingValue operator)
  | value =>
    match Scalar.ofJson? value with
    | some scalar => .ok scalar
    | none => .error (.expectedScalar operator)

/-- The two operands of an operator, sent as an array. -/
def rangeOperands (operator : Operator) : Json → Except RuleFault (Scalar × Scalar)
  | .array [low, high] =>
    match Scalar.ofJson? low, Scalar.ofJson? high with
    | some low, some high => .ok (low, high)
    | _, _ => .error (.expectedRange operator)
  | _ => .error (.expectedRange operator)

/-- The pieces of a text between commas, without blank margins and without blank pieces. -/
def splitList (text : String) : List Scalar :=
  ((text.toList.splitOn ',').map Text.trim).filter (· ≠ []) |>.map (.text <| String.ofList ·)

/-- The operands of an operator on lists, before the check that there are any.  A list is sent as
an array, as a text with commas, or as its only item. -/
def listItems (operator : Operator) : Json → Except RuleFault (List Scalar)
  | .null => .error (.missingValue operator)
  | .array items => items.mapM fun item ↦
    match Scalar.ofJson? item with
    | some scalar => .ok scalar
    | none => .error (.expectedScalar operator)
  | .string text => .ok (splitList text)
  | value => .ok (Scalar.ofJson? value).toList

/-- The operands of an operator on lists. -/
def listOperands (operator : Operator) (value : Json) : Except RuleFault (List Scalar) := do
  let items ← listItems operator value
  if items = [] then .error (.emptyList operator) else .ok items

/-- The predicate that an operator and a JSON value make.  Operators without operands ignore the
value. -/
def ofJson (operator : Operator) (value : Json) : Except RuleFault Predicate :=
  match operator with
  | .compare comparison => return .compare comparison (← scalarOperand operator value)
  | .like textMatch => return .like textMatch (← scalarOperand operator value)
  | .between negated => do
    let (low, high) ← rangeOperands operator value
    return .between negated low high
  | .member negated => return .member negated (← listOperands operator value)
  | .null negated => return .null negated

/-! ## Fragments -/

/-- The pattern that a text is matched against.  No wildcard precedes the text of an `endsWith`,
which asks for the whole text. -/
def pattern : TextMatch → String → String
  | .contains, text | .doesNotContain, text => "%" ++ text ++ "%"
  | .beginsWith, text => text ++ "%"
  | .endsWith, text => text

/-- The keyword of an operator that has a negated twin. -/
def negatable (negated : Bool) (keyword : String) : String :=
  if negated then "NOT " ++ keyword else keyword

/-- The condition that a predicate states about the field with the given reference and type. -/
def fragment (predicate : Predicate) (reference : String) (type : FieldType) : String :=
  match predicate with
  | .compare comparison operand =>
    reference ++ " " ++ comparison.sign ++ " " ++ operand.literal type
  | .like textMatch operand =>
    reference ++ " " ++ negatable (textMatch = .doesNotContain) "LIKE" ++ " " ++
      Text.quoted (pattern textMatch operand.display)
  | .between negated low high =>
    reference ++ " " ++ negatable negated "BETWEEN" ++ " " ++ low.literal type ++ " AND " ++
      high.literal type
  | .member negated items =>
    reference ++ " " ++ negatable negated "IN" ++ " (" ++
      ", ".intercalate (items.map fun item ↦ item.literal type) ++ ")"
  | .null negated => reference ++ " IS " ++ negatable negated "NULL"

end Predicate

end StagedQuery
