/-!
# Conditions

A condition is a tree whose leaves are tests of any kind and whose groups join their children by
AND or OR and may be negated as a whole.  The root of a tree is always a group.
-/

namespace StagedQuery

inductive Combinator where
  | and
  | or
deriving DecidableEq

def Combinator.keyword : Combinator → String
  | .and => "AND"
  | .or => "OR"

inductive Condition (α : Type) where
  | leaf (test : α)
  | group (combinator : Combinator) (negated : Bool) (children : List (Condition α))

/-- The root of a condition.  A group without children restricts nothing. -/
structure Group (α : Type) where
  combinator : Combinator := .and
  negated : Bool := false
  children : List (Condition α) := []

variable {α : Type}

namespace Condition

/-! ## Leaves -/

mutual

/-- The leaves of a condition from left to right. -/
def leaves : Condition α → List α
  | .leaf test => [test]
  | .group _ _ children => leavesOfAll children

def leavesOfAll : List (Condition α) → List α
  | [] => []
  | child :: rest => child.leaves ++ leavesOfAll rest

end

/-! ## Texts -/

/-- The children of a group joined by its combinator, and negated as a whole if the group is. -/
def joinTexts (combinator : Combinator) (negated : Bool) (texts : List String) : String :=
  let joined := (" " ++ combinator.keyword ++ " ").intercalate texts
  if negated then "NOT (" ++ joined ++ ")" else joined

end Condition

namespace Group

def leaves (group : Group α) : List α :=
  Condition.leavesOfAll group.children

def isEmpty (group : Group α) : Bool :=
  group.children.isEmpty

def negate (group : Group α) : Group α :=
  { group with negated := !group.negated }

def push (group : Group α) (child : Condition α) : Group α :=
  { group with children := group.children ++ [child] }

def toCondition (group : Group α) : Condition α :=
  .group group.combinator group.negated group.children

end Group

end StagedQuery
