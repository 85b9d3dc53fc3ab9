import StagedQuery.Catalog.Basic
import StagedQuery.Condition.Basic
import StagedQuery.Predicate

/-!
# Rules

A rule is the leaf of a condition as it is sent: the names of a field and an operator, and any
value. A rule whose operator or value makes no predicate says nothing, and is left out of the
query; a rule on an unknown field is an error of the whole condition.
-/

namespace StagedQuery

structure Rule where
  field : String
  operator : String
  value : Json

/-- The predicate that a rule states, or the reason why it states none. -/
def Rule.predicate (rule : Rule) : Except RuleFault Predicate :=
  match Operator.ofName? rule.operator with
  | none => .error (.unknownOperator rule.operator)
  | some operator => Predicate.ofJson operator rule.value

/-- The condition that a rule states about the field with the given reference and type. -/
def Rule.fragment (rule : Rule) (reference : String) (type : FieldType) :
    Except RuleFault String :=
  rule.predicate.map fun predicate ↦ predicate.fragment reference type

/-- A name that the catalog does not know. -/
structure UnknownField where
  name : String
deriving DecidableEq

/-- Looks up a field by its name. -/
def Catalog.lookup (name : String) : Except UnknownField Field :=
  match Catalog.find? name with
  | some field => .ok field
  | none => .error ⟨name⟩

end StagedQuery
