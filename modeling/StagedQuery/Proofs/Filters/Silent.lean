import StagedQuery.Proofs.Filters.Meaning
import StagedQuery.Proofs.Predicate.Shapes

/-!
# Silent Rules

A rule is silent if its operator or its value makes no condition on its field.  Removing the silent
rules of a condition, and the groups in which no other rules stand, changes nothing of what the
condition says at any stage; removing the rules of the other stages as well changes nothing of what
it says at the one that is left.  A stage has no clause exactly if all of its rules are silent.
-/

namespace StagedQuery

namespace Rule

/-- The stage of the field that a rule is about. -/
def stage? (rule : Rule) : Option Stage :=
  (Catalog.find? rule.field).map Field.stage

/-- Whether a rule makes a condition on its field. -/
def speaks (rule : Rule) : Bool :=
  (Catalog.find? rule.field).any fun field ↦ (rule.fragment field.reference field.type).isOk

theorem isSome_effective? (rule : Rule) : rule.effective?.isSome = rule.speaks := by
  cases hfind : Catalog.find? rule.field with
  | none => simp [effective?_eq_none hfind, speaks, hfind]
  | some field =>
    rw [effective?_eq hfind, Option.isSome_map, speaks, hfind, Option.any_some, fragment]
    cases rule.predicate <;> rfl

/-- A rule contributes to a stage exactly if it makes a condition and its field belongs there. -/
theorem contribution?_eq_none_iff {rule : Rule} {stage : Stage} :
    rule.contribution? stage = none ↔ (rule.stage? = some stage → rule.speaks = false) := by
  cases hfind : Catalog.find? rule.field with
  | none => simp [contribution?, effective?_eq_none hfind, stage?, hfind]
  | some field =>
    have hstage : rule.stage? = some field.stage := by rw [stage?, hfind, Option.map_some]
    rw [← isSome_effective?, hstage, contribution?, effective?_eq hfind]
    cases rule.predicate.toOption <;> simp

end Rule

namespace Group

variable {tree first second : Group Rule} {stage : Stage}

/-- The condition without its silent rules and the groups that hold no others, unless nothing
remains. -/
def spoken? (tree : Group Rule) : Option (Group Rule) :=
  tree.prune (Option.guard Rule.speaks)

/-- The condition without the rules of the other stages and the groups that hold no others, unless
nothing remains. -/
def onlyStage? (stage : Stage) (tree : Group Rule) : Option (Group Rule) :=
  tree.prune (Option.guard fun rule ↦ rule.stage? = some stage)

theorem leaves_of_spoken? {spoken : Group Rule} (h : tree.spoken? = some spoken) :
    spoken.leaves = tree.leaves.filter Rule.speaks := by
  rw [leaves_eq, Condition.leaves_of_prune (toCondition_prune h), leaves_eq,
    List.filterMap_eq_filter]

/-- Rules that contribute nothing to a stage may as well be removed before. -/
theorem atStage?_eq_bind_prune {keep : Rule → Bool}
    (h : ∀ rule, keep rule = false → rule.contribution? stage = none) (tree : Group Rule) :
    tree.atStage? stage =
      (tree.prune (Option.guard keep)).bind fun remaining ↦ remaining.atStage? stage := by
  calc
    _ = tree.prune fun rule ↦
          (Option.guard keep rule).bind fun rule ↦ rule.contribution? stage := by
      rw [atStage?]
      congr 1
      funext rule
      cases hkeep : keep rule with
      | true => simp [Option.guard, hkeep]
      | false => simp [Option.guard, hkeep, h rule hkeep]
    _ = _ := (prune_prune _ _ tree).symm

/-- Silent rules say nothing at any stage. -/
theorem atStage?_eq_bind_spoken? (tree : Group Rule) (stage : Stage) :
    tree.atStage? stage = tree.spoken?.bind fun spoken ↦ spoken.atStage? stage :=
  atStage?_eq_bind_prune (fun _ hsilent ↦ Rule.contribution?_eq_none_iff.2 fun _ ↦ hsilent) tree

/-- Rules of the other stages say nothing at a stage. -/
theorem atStage?_eq_bind_onlyStage? (tree : Group Rule) (stage : Stage) :
    tree.atStage? stage =
      (tree.onlyStage? stage).bind fun remaining ↦ remaining.atStage? stage :=
  atStage?_eq_bind_prune (fun _ hother ↦ Rule.contribution?_eq_none_iff.2 fun hstage ↦
    absurd hstage (of_decide_eq_false hother)) tree

theorem atStage?_congr_spoken (h : first.spoken? = second.spoken?) (stage : Stage) :
    first.atStage? stage = second.atStage? stage := by
  rw [atStage?_eq_bind_spoken? first, atStage?_eq_bind_spoken? second, h]

theorem atStage?_congr_onlyStage
    (h : first.spoken?.bind (onlyStage? stage) = second.spoken?.bind (onlyStage? stage)) :
    first.atStage? stage = second.atStage? stage := by
  have hstage (tree : Group Rule) : tree.atStage? stage =
      (tree.spoken?.bind (onlyStage? stage)).bind fun remaining ↦ remaining.atStage? stage := by
    rw [atStage?_eq_bind_spoken?, Option.bind_assoc]
    congr 1
    funext spoken
    exact spoken.atStage?_eq_bind_onlyStage? stage
  rw [hstage first, hstage second, h]

/-- A condition says nothing at a stage exactly if all of its rules there are silent. -/
theorem atStage?_eq_none_iff_silent : tree.atStage? stage = none ↔
    ∀ rule ∈ tree.leaves, rule.stage? = some stage → rule.speaks = false := by
  simp only [atStage?_eq_none_iff, List.filterMap_eq_nil_iff, Rule.contribution?_eq_none_iff]

/-- Every condition on known fields has a text at a stage, which only depends on what the condition
says there. -/
theorem render_of_known (hknown : tree.unknownField? = none) (stage : Stage) :
    tree.render stage =
      .ok (((tree.atStage? stage).map (text FieldPredicate.text)).getD unrestricted) := by
  rw [render_eq, hknown, okUnless_none]

theorem render_eq_unrestricted_iff (hknown : tree.unknownField? = none) :
    tree.render stage = .ok unrestricted ↔ tree.atStage? stage = none := by
  rw [render_of_known hknown, Except.ok.injEq]
  cases hstage : tree.atStage? stage with
  | none => simp
  | some pruned => simpa using text_ne_unrestricted (full_of_atStage? hstage)

end Group

namespace Filters

theorem ofRules_of_known {tree : Group Rule} (hknown : tree.unknownField? = none) :
    ofRules tree = .ok (ofTree tree) := by
  rw [ofRules_eq, hknown, okUnless_none]

/-- Conditions that say the same at every stage have the same clauses. -/
theorem ofTree_congr {first second : Group Rule}
    (h : ∀ stage, first.atStage? stage = second.atStage? stage) : ofTree first = ofTree second := by
  rw [ofTree, ofTree, h .raw, h .groupCondition, h .postAggregate]

end Filters

/-! ## The text that restricts nothing -/

theorem Rule.exists_of_fragment {rule : Rule} {reference fragment : String} {type : FieldType}
    (h : rule.fragment reference type = .ok fragment) :
    (∃ rest, fragment = reference ++ " " ++ rest) ∧ fragment ≠ unrestricted := by
  obtain ⟨predicate, -, rfl⟩ := map_eq_ok_iff.1 h
  exact ⟨predicate.exists_fragment_eq reference type,
    ne_unrestricted (blank_mem_fragment predicate reference type)⟩

theorem Rule.translate_eq_unrestricted_iff {rule : Rule} {reference : String} {type : FieldType} :
    rule.translate reference type = unrestricted ↔
      ∃ fault, rule.fragment reference type = .error fault := by
  cases hfragment : rule.fragment reference type with
  | error fault => simp [translate, hfragment, Except.toOption]
  | ok fragment =>
    simpa [translate, hfragment, Except.toOption] using (exists_of_fragment hfragment).2

/-- The text that restricts nothing tells exactly that nothing is said.  A fragment begins with the
reference and is never that text; operands that are read have the shape of their operator, so none
of them falls through to it; and a rule is translated to it exactly if the rule is at fault.  So a
condition on known fields is rendered as that text at a stage, and has no clause there, exactly if
all of its rules at the stage are silent. -/
theorem unrestricted_iff_silent :
    (∀ (rule : Rule) (reference fragment : String) (type : FieldType),
      rule.fragment reference type = .ok fragment →
        (∃ rest, fragment = reference ++ " " ++ rest) ∧ fragment ≠ unrestricted) ∧
    (∀ (operator : Operator) (value : Json) (operands : Operands),
      Operands.ofJson operator value = .ok operands → operands.arity = operator.arity ∧
        ∀ reference type, operands.fragment operator reference type ≠ unrestricted) ∧
    (∀ (rule : Rule) (reference : String) (type : FieldType),
      (∀ operator, Operator.ofName? rule.operator = some operator →
        rule.fragment reference type = (Operands.ofJson operator rule.value).map fun operands ↦
          operands.fragment operator reference type) ∧
      (rule.translate reference type = unrestricted ↔
        ∃ fault, rule.fragment reference type = .error fault)) ∧
    ∀ tree : Group Rule, (∀ rule ∈ tree.leaves, (Catalog.find? rule.field).isSome) → ∀ stage,
      (tree.render stage = .ok unrestricted ↔
        ∀ rule ∈ tree.leaves, rule.stage? = some stage → rule.speaks = false) ∧
      ∃ filters, Filters.ofRules tree = .ok filters ∧ (filters.clause? stage = none ↔
        ∀ rule ∈ tree.leaves, rule.stage? = some stage → rule.speaks = false) := by
  refine ⟨fun _ _ _ _ ↦ Rule.exists_of_fragment, ?_, ?_, ?_⟩
  · intro operator value operands hoperands
    have harity := Operands.arity_of_ofJson hoperands
    obtain ⟨predicate, -, -, hpredicate⟩ := Operands.exists_predicate harity
    refine ⟨harity, fun reference type ↦ ?_⟩
    rw [hpredicate]
    exact ne_unrestricted (blank_mem_fragment predicate reference type)
  · intro rule reference type
    exact ⟨fun _ hoperator ↦ Rule.fragment_eq_map_ofJson hoperator reference type,
      Rule.translate_eq_unrestricted_iff⟩
  · intro tree hknown stage
    have hknown := Group.unknownField?_eq_none hknown
    constructor
    · rw [← Group.atStage?_eq_none_iff_silent]
      exact Group.render_eq_unrestricted_iff hknown
    · refine ⟨Filters.ofTree tree, Filters.ofRules_of_known hknown, ?_⟩
      rw [Filters.clause?_ofTree, Option.map_eq_none_iff, Group.atStage?_eq_none_iff_silent]

theorem unrestricted_iff_silent_negated :
    let tree : Group Rule :=
      ⟨.or, true, [.leaf ⟨"cited_title", "in", .string " , "⟩,
        .group .and true [.leaf ⟨"cited_journal", "=", .string "1=1"⟩]]⟩
    (∀ rule ∈ tree.leaves, (Catalog.find? rule.field).isSome) ∧
      tree.render .groupCondition = .ok unrestricted ∧ tree.render .raw ≠ .ok unrestricted := by
  intro tree
  have hknown : ∀ rule ∈ tree.leaves, (Catalog.find? rule.field).isSome := by decide
  have hstages := unrestricted_iff_silent.2.2.2 tree hknown
  have hsilent : ∀ rule ∈ tree.leaves, rule.stage? = some .groupCondition →
      rule.speaks = false := by
    decide
  have hspeaks : ¬∀ rule ∈ tree.leaves, rule.stage? = some .raw → rule.speaks = false := by
    decide
  exact ⟨hknown, (hstages .groupCondition).1.2 hsilent, mt (hstages .raw).1.1 hspeaks⟩

end StagedQuery
