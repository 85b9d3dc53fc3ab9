import StagedQuery.Proofs.Condition.Expression
import StagedQuery.Proofs.Filters.Rendering

/-!
# Meaning of Rendered Conditions

The text of a condition at a stage is read back as what the condition says there: the same groups,
the same negations, and the same fragments in the same order.  So the text holds of exactly the
rows of which the condition holds.
-/

namespace StagedQuery

open Sql (Expression)

namespace Group

theorem unknownField?_eq_none {tree : Group Rule}
    (hknown : ∀ rule ∈ tree.leaves, (Catalog.find? rule.field).isSome) :
    tree.unknownField? = none := by
  apply List.findSome?_eq_none_iff.2
  intro rule hrule
  rw [Rule.unknownField?, if_pos (hknown rule hrule)]

theorem atStage?_eq_none_iff {tree : Group Rule} {stage : Stage} :
    tree.atStage? stage = none ↔ tree.leaves.filterMap (Rule.contribution? stage) = [] := by
  rw [leaves_eq, ← Condition.prune_eq_none_iff, ← map_toCondition_prune, Option.map_eq_none_iff]
  rfl

theorem leaves_of_atStage? {tree : Group Rule} {stage : Stage} {pruned : Group FieldPredicate}
    (h : tree.atStage? stage = some pruned) :
    pruned.leaves = tree.leaves.filterMap (Rule.contribution? stage) :=
  Condition.leaves_of_prune (toCondition_prune h)

theorem render_of_atStage? {tree : Group Rule} {stage : Stage} {pruned : Group FieldPredicate}
    (hknown : ∀ rule ∈ tree.leaves, (Catalog.find? rule.field).isSome)
    (h : tree.atStage? stage = some pruned) :
    tree.render stage = .ok (pruned.text FieldPredicate.text) := by
  rw [render_eq, unknownField?_eq_none hknown, h]
  rfl

/-- A clause is read as what the condition says at the stage. -/
theorem ofText?_of_atStage? {tree : Group Rule} {stage : Stage} {pruned : Group FieldPredicate}
    (h : tree.atStage? stage = some pruned) :
    Expression.ofText? (pruned.text FieldPredicate.text) =
      some (pruned.expression FieldPredicate.text) :=
  ofText?_text FieldPredicate.lexes_text FieldPredicate.completes_text (full_of_atStage? h)

/-- A condition on known fields is rendered at a stage as the text that restricts nothing if no
rule contributes there.  Otherwise the text is read as the expression of the condition pruned to
the rules that contribute; its atomic conditions are their fragments in order, and it has the value
of the pruned condition under every assignment. -/
theorem render_preserves_meaning (tree : Group Rule) (stage : Stage)
    (hknown : ∀ rule ∈ tree.leaves, (Catalog.find? rule.field).isSome) :
    (tree.leaves.filterMap (Rule.contribution? stage) = [] →
      tree.render stage = .ok unrestricted) ∧
    (tree.leaves.filterMap (Rule.contribution? stage) ≠ [] →
      ∃ pruned text, tree.atStage? stage = some pruned ∧ tree.render stage = .ok text ∧
        Expression.ofText? text = some (pruned.expression FieldPredicate.text) ∧
        (pruned.expression FieldPredicate.text).atoms =
          (tree.leaves.filterMap (Rule.contribution? stage)).map FieldPredicate.text ∧
        ∀ assignment : String → Truth,
          (pruned.expression FieldPredicate.text).evaluate assignment =
            pruned.evaluate fun test ↦ assignment test.text) := by
  constructor
  · intro hnothing
    rw [render_eq, unknownField?_eq_none hknown, atStage?_eq_none_iff.2 hnothing]
    rfl
  · intro hsomething
    obtain ⟨pruned, hpruned⟩ :=
      Option.ne_none_iff_exists'.1 (mt atStage?_eq_none_iff.1 hsomething)
    refine ⟨pruned, pruned.text FieldPredicate.text, hpruned,
      render_of_atStage? hknown hpruned, ofText?_of_atStage? hpruned, ?_, ?_⟩
    · rw [← leaves_of_atStage? hpruned]
      exact Condition.atoms_expression FieldPredicate.text pruned.toCondition
    · intro assignment
      exact Condition.evaluate_expression FieldPredicate.text assignment pruned.toCondition

theorem render_preserves_meaning_negated :
    let tree : Group Rule :=
      ⟨.or, true, [.leaf ⟨"cited_journal", "contains", .string "' OR 1=1 --"⟩,
        .group .and false [.leaf ⟨"cited_pub_date", "between",
          .array [.string "a) AND (b", .string ""]⟩, .leaf ⟨"fitness", "isNull", .null⟩]]⟩
    (∀ rule ∈ tree.leaves, (Catalog.find? rule.field).isSome) ∧
      tree.leaves.filterMap (Rule.contribution? .raw) ≠ [] ∧
      ∃ pruned text, tree.atStage? .raw = some pruned ∧ tree.render .raw = .ok text ∧
        Expression.ofText? text = some (pruned.expression FieldPredicate.text) := by
  intro tree
  have hknown : ∀ rule ∈ tree.leaves, (Catalog.find? rule.field).isSome := by decide
  have hsomething : tree.leaves.filterMap (Rule.contribution? .raw) ≠ [] :=
    List.ne_nil_of_length_pos (by decide)
  have hmeaning := (render_preserves_meaning tree .raw hknown).2 hsomething
  obtain ⟨pruned, text, hpruned, htext, hread, -⟩ := hmeaning
  exact ⟨hknown, hsomething, pruned, text, hpruned, htext, hread⟩

end Group

end StagedQuery
