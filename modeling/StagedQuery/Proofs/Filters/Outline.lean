import StagedQuery.Proofs.Condition.Masks
import StagedQuery.Proofs.Filters.Rendering
import StagedQuery.Proofs.Predicate.Masks

/-!
# Outlines of Rules

The outline of a rule is what remains of it without the scalars in its value: the field, the
operator, and how many operands the value gives the operator, if it fits.  Conditions with the same
outlines have alike clauses at every stage.
-/

namespace StagedQuery

open Sql (Token Alike)

/-! ## Operators of predicates -/

theorem Predicate.operator_of_ofJson {operator : Operator} {value : Json} {predicate : Predicate}
    (h : ofJson operator value = .ok predicate) : predicate.operator = operator := by
  cases operator with
  | compare comparison =>
    obtain ⟨operand, -, hresult⟩ := bind_eq_ok h
    cases hresult
    rfl
  | like textMatch =>
    obtain ⟨operand, -, hresult⟩ := bind_eq_ok h
    cases hresult
    rfl
  | between negated =>
    obtain ⟨operands, -, hresult⟩ := bind_eq_ok h
    cases hresult
    rfl
  | member negated =>
    obtain ⟨items, -, hresult⟩ := bind_eq_ok h
    cases hresult
    rfl
  | null negated =>
    cases h
    rfl

theorem Rule.operator_of_predicate {rule : Rule} {predicate : Predicate}
    (h : rule.predicate = .ok predicate) :
    Operator.ofName? rule.operator = some predicate.operator := by
  unfold Rule.predicate at h
  cases hoperator : Operator.ofName? rule.operator with
  | none => simp [hoperator] at h
  | some operator =>
    rw [hoperator] at h
    rw [Predicate.operator_of_ofJson h]

/-! ## Outlines -/

/-- A rule without the scalars in its value.  There is no count if the value does not fit the
operator, or if there is no such operator. -/
structure Outline where
  field : String
  operator : String
  operandCount? : Option Nat
deriving DecidableEq

namespace Rule

def outline (rule : Rule) : Outline where
  field := rule.field
  operator := rule.operator
  operandCount? := rule.predicate.toOption.map fun predicate ↦ predicate.operands.length

/-- The outline of a rule determines the masked tokens that it contributes to a stage. -/
theorem masked_contribution?_congr {first second : Rule} (h : first.outline = second.outline)
    (stage : Stage) : (first.contribution? stage).map FieldPredicate.masked =
      (second.contribution? stage).map FieldPredicate.masked := by
  obtain ⟨hfield, hoperator, hcount⟩ :
      first.field = second.field ∧ first.operator = second.operator ∧
        first.outline.operandCount? = second.outline.operandCount? := by
    simpa only [outline, Outline.mk.injEq] using h
  cases hfirst : Catalog.find? first.field with
  | none =>
    have hsecond : Catalog.find? second.field = none := by rw [← hfield, hfirst]
    rw [contribution?, contribution?, effective?_eq_none hfirst, effective?_eq_none hsecond]
  | some field =>
    have hsecond : Catalog.find? second.field = some field := by rw [← hfield, hfirst]
    rw [contribution?, contribution?, effective?_eq hfirst, effective?_eq hsecond]
    cases hpredicate : first.predicate with
    | error fault =>
      cases hother : second.predicate with
      | error fault => rfl
      | ok other => simp [outline, hpredicate, hother, Except.toOption] at hcount
    | ok predicate =>
      cases hother : second.predicate with
      | error fault => simp [outline, hpredicate, hother, Except.toOption] at hcount
      | ok other =>
        have hlength : predicate.operands.length = other.operands.length := by
          simpa [outline, hpredicate, hother, Except.toOption] using hcount
        have hsame : predicate.operator = other.operator := by
          have hnames := operator_of_predicate hpredicate
          rw [hoperator, operator_of_predicate hother] at hnames
          exact (Option.some.inj hnames).symm
        have hmasked := Predicate.map_mask_tokens hsame hlength field.referenceTokens field.type
        by_cases hstage : field.stage = stage <;>
          simp [Except.toOption, Option.filter, hstage, FieldPredicate.masked,
            FieldPredicate.tokens, hmasked]

end Rule

/-! ## Clauses -/

/-- Conditions with the same outlines have alike clauses. -/
theorem Filters.clause?_alike {first second : Group Rule}
    (h : first.map Rule.outline = second.map Rule.outline) (stage : Stage) :
    Option.Rel Alike ((ofTree first).clause? stage) ((ofTree second).clause? stage) := by
  have hmasked := Group.map_prune_congr
    (fun test other houtline ↦ Rule.masked_contribution?_congr houtline stage) h
  rw [clause?_ofTree, clause?_ofTree, Group.atStage?, Group.atStage?]
  cases hfirst : first.prune (Rule.contribution? stage) with
  | none =>
    cases hsecond : second.prune (Rule.contribution? stage) with
    | none => exact .none
    | some pruned => simp [hfirst, hsecond] at hmasked
  | some pruned =>
    cases hsecond : second.prune (Rule.contribution? stage) with
    | none => simp [hfirst, hsecond] at hmasked
    | some other =>
      have hgroups : pruned.map FieldPredicate.masked = other.map FieldPredicate.masked := by
        simpa [hfirst, hsecond] using hmasked
      apply Option.Rel.some
      refine ⟨pruned.tokens FieldPredicate.tokens, other.tokens FieldPredicate.tokens,
        pruned.lexes_text FieldPredicate.lexes_text, other.lexes_text FieldPredicate.lexes_text,
        ?_, pruned.composed_tokens Sql.composes_quiet FieldPredicate.quiet_tokens⟩
      rw [Group.map_mask_tokens, Group.map_mask_tokens]
      exact congrArg (Group.tokens id) hgroups

end StagedQuery
