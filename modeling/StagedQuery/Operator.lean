import StagedQuery.Catalog.Field

/-!
# Operators

The operators that a rule can apply, in five families.  All operators of a family take operands of
the same shape.
-/

namespace StagedQuery

inductive Comparison where
  | equal
  | notEqual
  | less
  | lessOrEqual
  | greater
  | greaterOrEqual
deriving DecidableEq

/-- The ways in which a text is matched against another one. -/
inductive TextMatch where
  | contains
  | doesNotContain
  | beginsWith
  | endsWith
deriving DecidableEq

inductive Operator where
  | compare (comparison : Comparison)
  | like (textMatch : TextMatch)
  | between (negated : Bool)
  | member (negated : Bool)
  | null (negated : Bool)
deriving DecidableEq

/-- The shape of the operands of an operator. -/
inductive Arity where
  | none
  | scalar
  | range
  | list
deriving DecidableEq

def Comparison.sign : Comparison → String
  | .equal => "="
  | .notEqual => "!="
  | .less => "<"
  | .lessOrEqual => "<="
  | .greater => ">"
  | .greaterOrEqual => ">="

def TextMatch.name : TextMatch → String
  | .contains => "contains"
  | .doesNotContain => "doesNotContain"
  | .beginsWith => "beginsWith"
  | .endsWith => "endsWith"

def Arity.name : Arity → String
  | .none => "none"
  | .scalar => "scalar"
  | .range => "range"
  | .list => "list"

namespace Operator

def all : List Operator :=
  [.compare .equal, .compare .notEqual, .compare .less, .compare .lessOrEqual, .compare .greater,
    .compare .greaterOrEqual, .like .contains, .like .doesNotContain, .like .beginsWith,
    .like .endsWith, .between false, .between true, .member false, .member true, .null false,
    .null true]

theorem mem_all (operator : Operator) : operator ∈ all := by
  rcases operator with comparison | textMatch | negated | negated | negated
  · cases comparison <;> decide
  · cases textMatch <;> decide
  all_goals cases negated <;> decide

/-- The name under which a rule asks for an operator. -/
def name : Operator → String
  | .compare comparison => comparison.sign
  | .like textMatch => textMatch.name
  | .between false => "between"
  | .between true => "notBetween"
  | .member false => "in"
  | .member true => "notIn"
  | .null false => "isNull"
  | .null true => "isNotNull"

/-- The operator with the given name, which is matched exactly. -/
def ofName? (name : String) : Option Operator :=
  all.find? fun operator ↦ operator.name = name

theorem ofName?_name (operator : Operator) : ofName? operator.name = some operator := by
  have hall : ∀ operator ∈ all, ofName? operator.name = some operator := by decide
  exact hall operator operator.mem_all

def arity : Operator → Arity
  | .compare _ | .like _ => .scalar
  | .between _ => .range
  | .member _ => .list
  | .null _ => .none

end Operator

/-- The operators offered for fields of a type, in the order of the offer. -/
def FieldType.operators : FieldType → List Operator
  | .text =>
    [.like .contains, .like .doesNotContain, .like .beginsWith, .like .endsWith, .compare .equal,
      .compare .notEqual, .member false, .member true, .null false, .null true]
  | .number =>
    [.compare .equal, .compare .notEqual, .compare .greater, .compare .greaterOrEqual,
      .compare .less, .compare .lessOrEqual, .between false, .between true, .member false,
      .member true, .null false, .null true]
  | .date =>
    [.compare .equal, .compare .notEqual, .compare .greater, .compare .less, .between false,
      .null false, .null true]

end StagedQuery
