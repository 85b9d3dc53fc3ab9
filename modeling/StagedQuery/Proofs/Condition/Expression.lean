import StagedQuery.Proofs.Condition.Text

/-!
# Conditions as Expressions

A condition is a boolean expression over the texts of its leaves, in which a group of one child
stands for this child.  The text of a condition all of whose groups have children is read as that
expression.
-/

namespace StagedQuery

open Sql (Token Lexes Completes Fills Expression)

variable {α : Type}

namespace Condition

mutual

/-- A condition as an expression, given the texts of the leaves. -/
def expression (text : α → String) : Condition α → Expression
  | .leaf test => .atom (text test)
  | .group combinator negated children =>
    .ofGroup combinator negated (expressions text children)

def expressions (text : α → String) : List (Condition α) → List Expression
  | [] => []
  | child :: rest => child.expression text :: expressions text rest

end

@[simp]
theorem expressions_eq (text : α → String) (children : List (Condition α)) :
    expressions text children = children.map (expression text) := by
  induction children with
  | nil => rfl
  | cons child rest ih => rw [expressions, ih, List.map_cons]

@[simp]
theorem expression_group (text : α → String) (combinator : Combinator) (negated : Bool)
    (children : List (Condition α)) :
    (group combinator negated children).expression text =
      .ofGroup combinator negated (children.map (expression text)) := by
  rw [expression, expressions_eq]

/-- The atomic conditions are the texts of the leaves. -/
theorem atoms_expression (text : α → String) (condition : Condition α) :
    (condition.expression text).atoms = condition.leaves.map text := by
  induction condition with
  | leaf test => rfl
  | group combinator negated children ih =>
    calc
      _ = (children.map (expression text)).flatMap Expression.atoms := by
        rw [expression_group, Expression.atoms_ofGroup]
      _ = children.flatMap fun child ↦ (child.expression text).atoms :=
        List.flatMap_map _ _ _
      _ = children.flatMap fun child ↦ child.leaves.map text := List.flatMap_congr ih
      _ = (children.flatMap leaves).map text := List.map_flatMap.symm
      _ = _ := by rw [leaves_group]

/-- The expression and the condition have the same value. -/
theorem evaluate_expression (text : α → String) (assignment : String → Truth)
    (condition : Condition α) :
    (condition.expression text).evaluate assignment =
      condition.evaluate fun test ↦ assignment (text test) := by
  induction condition with
  | leaf test => rfl
  | group combinator negated children ih =>
    calc
      _ = Truth.ofGroup combinator negated
          ((children.map (expression text)).map (Expression.evaluate assignment)) := by
        rw [expression_group, Expression.evaluate_ofGroup]
      _ = Truth.ofGroup combinator negated
          (children.map (evaluate fun test ↦ assignment (text test))) := by
        rw [List.map_map]
        exact congrArg (Truth.ofGroup combinator negated) (List.map_congr_left ih)
      _ = _ := (evaluate_group _ _ _ _).symm

/-! ## Reading the text -/

theorem fills_joinTokens (combinator : Combinator) (negated : Bool)
    {tokenLists : List (List Token)} {operands : List Expression}
    (h : List.Forall₂ Completes tokenLists operands) (hnonempty : operands ≠ []) :
    Fills (joinTokens combinator negated tokenLists) (.ofGroup combinator negated operands) := by
  have hjoined := Completes.fills_intercalate combinator h hnonempty
  cases negated with
  | false => exact hjoined
  | true => exact hjoined.parenthesized.negated.fills

theorem Full.completes_childTokens {text : α → String} {tokens : α → List Token}
    (htext : ∀ test, Completes (tokens test) (.atom (text test))) {condition : Condition α}
    (h : condition.Full) :
    Completes (condition.childTokens tokens) (condition.expression text) := by
  induction h with
  | leaf test => exact htext test
  | @group combinator negated children nonempty full ih =>
    rw [childTokens_group, expression_group]
    apply Fills.parenthesized
    exact fills_joinTokens combinator negated (Sql.forall₂_map ih) (by simpa using nonempty)

end Condition

namespace Group

/-- A condition as an expression, given the texts of the leaves. -/
def expression (leafText : α → String) (group : Group α) : Expression :=
  group.toCondition.expression leafText

/-- The text of a condition is read as the condition. -/
theorem ofText?_text {leafText : α → String} {leafTokens : α → List Token}
    (hlexes : ∀ test, Lexes (leafText test) (leafTokens test))
    (hcompletes : ∀ test, Completes (leafTokens test) (.atom (leafText test))) {group : Group α}
    (h : group.toCondition.Full) :
    Expression.ofText? (group.text leafText) = some (group.expression leafText) := by
  apply Fills.ofText? _ (group.lexes_text hlexes)
  cases h with
  | group nonempty full =>
    rw [expression, toCondition, Condition.expression_group]
    exact Condition.fills_joinTokens group.combinator group.negated
      (Sql.forall₂_map fun child hchild ↦ (full child hchild).completes_childTokens hcompletes)
      (by simpa using nonempty)

end Group

end StagedQuery
