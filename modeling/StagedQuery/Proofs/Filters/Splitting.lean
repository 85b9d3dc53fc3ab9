import StagedQuery.Proofs.Filters.Meaning

/-!
# Splitting over the Stages

The three clauses of a condition restrict three different selections, and a row has to pass all of
them.  This amounts to the condition itself if rules of different stages only meet in groups that
are joined by AND and not negated: such a group is the conjunction of its parts at the stages, and
any other group stays whole at the one stage of its rules.
-/

namespace StagedQuery

open Sql (Expression)

/-! ## Groups that mix stages -/

variable {α : Type}

namespace Condition

mutual

/-- The groups of a condition, each one before the groups inside it. -/
def groups : Condition α → List (Group α)
  | .leaf _ => []
  | .group combinator negated children =>
    ⟨combinator, negated, children⟩ :: groupsOfAll children

def groupsOfAll : List (Condition α) → List (Group α)
  | [] => []
  | child :: rest => child.groups ++ groupsOfAll rest

end

@[simp]
theorem groupsOfAll_eq (children : List (Condition α)) :
    groupsOfAll children = children.flatMap groups := by
  induction children with
  | nil => rfl
  | cons child rest ih => rw [groupsOfAll, ih, List.flatMap_cons]

@[simp]
theorem groups_group (combinator : Combinator) (negated : Bool) (children : List (Condition α)) :
    (group combinator negated children).groups =
      ⟨combinator, negated, children⟩ :: children.flatMap groups := by
  rw [groups, groupsOfAll_eq]

end Condition

namespace Group

/-- The predicates that the rules of a condition state. -/
def effectiveLeaves (tree : Group Rule) : List FieldPredicate :=
  tree.leaves.filterMap Rule.effective?

/-- The condition without the rules that state nothing. -/
def effective? (tree : Group Rule) : Option (Group FieldPredicate) :=
  tree.prune Rule.effective?

/-- Predicates of different stages occur in the group. -/
def MixesStages (group : Group Rule) : Prop :=
  ∃ first ∈ group.effectiveLeaves, ∃ second ∈ group.effectiveLeaves,
    first.field.stage ≠ second.field.stage

instance (group : Group Rule) : Decidable group.MixesStages :=
  inferInstanceAs (Decidable (∃ first ∈ group.effectiveLeaves, ∃ second ∈ group.effectiveLeaves, _))

end Group

/-- Every group that mixes stages is joined by AND and is not negated. -/
def Condition.SplitsByStage (condition : Condition Rule) : Prop :=
  ∀ group ∈ condition.groups, group.MixesStages → group.combinator = .and ∧ group.negated = false

instance (condition : Condition Rule) : Decidable condition.SplitsByStage :=
  inferInstanceAs (Decidable (∀ group ∈ condition.groups, group.MixesStages → _))

/-! ## Values of what remains -/

namespace Condition

/-- The value of what remains of a condition; nothing restricts nothing. -/
def valueOf (assignment : α → Truth) (remaining : Option (Condition α)) : Truth :=
  (remaining.map (evaluate assignment)).getD .yes

/-- What remains of a plain AND is the AND of what remains of the children. -/
theorem valueOf_prune_and {β : Type} (assignment : β → Truth) (replace? : α → Option β)
    (children : List (Condition α)) :
    valueOf assignment ((group .and false children).prune replace?) =
      Truth.join .and (children.map fun child ↦ valueOf assignment (child.prune replace?)) := by
  have hgroup (remaining : List (Condition β)) :
      valueOf assignment (groupOf? .and false remaining) =
        Truth.join .and (remaining.map (evaluate assignment)) := by
    cases remaining with
    | nil => rfl
    | cons child rest =>
      rw [groupOf?, if_neg (by simp), valueOf, Option.map_some, evaluate_group]
      rfl
  rw [prune_group, hgroup]
  induction children with
  | nil => rfl
  | cons child rest ih =>
    rw [List.map_cons, Truth.join_and_cons, ← ih, List.filterMap_cons]
    cases child.prune replace? with
    | none => exact (Truth.yes_and _).symm
    | some remaining => rfl

theorem exists_stage {tests : List FieldPredicate}
    (hsame : ∀ first ∈ tests, ∀ second ∈ tests, first.field.stage = second.field.stage) :
    ∃ stage, ∀ test ∈ tests, test.field.stage = stage := by
  cases tests with
  | nil => exact ⟨.raw, by simp⟩
  | cons first rest => exact ⟨first.field.stage, fun test htest ↦ hsame test htest first (by simp)⟩

/-- Predicates of one stage only remain together. -/
theorem join_stages_of_uniform (assignment : FieldPredicate → Truth) {condition : Condition Rule}
    {stage : Stage}
    (hstage : ∀ test ∈ condition.leaves.filterMap Rule.effective?, test.field.stage = stage) :
    Truth.join .and (Stage.all.map fun stage ↦
        valueOf assignment (condition.prune (Rule.contribution? stage))) =
      valueOf assignment (condition.prune Rule.effective?) := by
  have hrules (other : Stage) : ∀ rule ∈ condition.leaves, rule.contribution? other =
      if stage = other then rule.effective? else none := by
    intro rule hrule
    apply Rule.contribution?_of_stage
    intro test htest
    exact hstage test (List.mem_filterMap.2 ⟨rule, hrule, htest⟩)
  have hprune (other : Stage) : condition.prune (Rule.contribution? other) =
      if stage = other then condition.prune Rule.effective? else none := by
    split
    · next hother =>
      apply prune_congr
      intro rule hrule
      rw [hrules other rule hrule, if_pos hother]
    · next hother =>
      rw [prune_eq_none_iff, List.filterMap_eq_nil_iff]
      intro rule hrule
      rw [hrules other rule hrule, if_neg hother]
  have hvalue (other : Stage) : valueOf assignment (condition.prune (Rule.contribution? other)) =
      if stage = other then valueOf assignment (condition.prune Rule.effective?) else .yes := by
    rw [hprune, apply_ite (valueOf assignment)]
    rfl
  simp only [hvalue]
  cases stage <;> simp [Stage.all, Truth.join]

/-- A condition that splits is the conjunction of what it says at the stages. -/
theorem join_stages (assignment : FieldPredicate → Truth) {condition : Condition Rule}
    (h : condition.SplitsByStage) :
    Truth.join .and (Stage.all.map fun stage ↦
        valueOf assignment (condition.prune (Rule.contribution? stage))) =
      valueOf assignment (condition.prune Rule.effective?) := by
  induction condition with
  | leaf rule =>
    have hsame : ∀ first ∈ [rule].filterMap Rule.effective?,
        ∀ second ∈ [rule].filterMap Rule.effective?, first.field.stage = second.field.stage := by
      cases heffective : rule.effective? <;> simp [heffective]
    obtain ⟨stage, hstage⟩ := exists_stage hsame
    exact join_stages_of_uniform assignment hstage
  | group combinator negated children ih =>
    by_cases hmixes : Group.MixesStages ⟨combinator, negated, children⟩
    · obtain ⟨rfl, rfl⟩ : combinator = .and ∧ negated = false :=
        h ⟨combinator, negated, children⟩ (by simp) hmixes
      have hchildren : ∀ child ∈ children, child.SplitsByStage := by
        intro child hchild group hgroup
        apply h group
        rw [groups_group]
        exact List.mem_cons_of_mem _ (List.mem_flatMap_of_mem hchild hgroup)
      calc
        _ = Truth.join .and (Stage.all.map fun stage ↦ Truth.join .and (children.map fun child ↦
              valueOf assignment (child.prune (Rule.contribution? stage)))) := by
          simp only [valueOf_prune_and]
        _ = Truth.join .and (children.map fun child ↦ Truth.join .and (Stage.all.map fun stage ↦
              valueOf assignment (child.prune (Rule.contribution? stage)))) :=
          Truth.join_and_swap _ _ _
        _ = Truth.join .and (children.map fun child ↦
              valueOf assignment (child.prune Rule.effective?)) := by
          rw [List.map_congr_left fun child hchild ↦ ih child hchild (hchildren child hchild)]
        _ = _ := (valueOf_prune_and _ _ _).symm
    · have hsame : ∀ first ∈ (group combinator negated children).leaves.filterMap Rule.effective?,
          ∀ second ∈ (group combinator negated children).leaves.filterMap Rule.effective?,
            first.field.stage = second.field.stage := by
        intro first hfirst second hsecond
        by_contra hne
        exact hmixes ⟨first, hfirst, second, hsecond, hne⟩
      obtain ⟨stage, hstage⟩ := exists_stage hsame
      exact join_stages_of_uniform assignment hstage

end Condition

/-! ## The clauses -/

namespace Filters

/-- The value of the clause of a stage; a stage without a clause restricts nothing. -/
def clauseValue? (filters : Filters) (assignment : String → Truth) (stage : Stage) :
    Option Truth :=
  match filters.clause? stage with
  | none => some .yes
  | some clause => (Expression.ofText? clause).map (Expression.evaluate assignment)

/-- The conjunction of the clauses of all stages. -/
def evaluate? (filters : Filters) (assignment : String → Truth) : Option Truth :=
  (Stage.all.mapM (filters.clauseValue? assignment)).map (Truth.join .and)

/-- The atomic conditions in the clause of a stage. -/
def atoms (filters : Filters) (stage : Stage) : List String :=
  (((filters.clause? stage).bind Expression.ofText?).map Expression.atoms).getD []

theorem clauseValue?_ofTree (tree : Group Rule) (assignment : String → Truth) (stage : Stage) :
    (ofTree tree).clauseValue? assignment stage =
      some (Condition.valueOf (fun test ↦ assignment (FieldPredicate.text test))
        (tree.toCondition.prune (Rule.contribution? stage))) := by
  rw [← Group.map_toCondition_prune, clauseValue?, clause?_ofTree]
  cases hstage : tree.atStage? stage with
  | none =>
    rw [Group.atStage?] at hstage
    rw [hstage]
    rfl
  | some pruned =>
    have hread := Group.ofText?_of_atStage? hstage
    rw [Group.atStage?] at hstage
    rw [hstage]
    change (Expression.ofText? (pruned.text FieldPredicate.text)).map _ = _
    rw [hread, Option.map_some]
    congr 1
    exact Condition.evaluate_expression FieldPredicate.text assignment pruned.toCondition

theorem atoms_ofTree (tree : Group Rule) (stage : Stage) :
    (ofTree tree).atoms stage =
      (tree.effectiveLeaves.filter fun test ↦ test.field.stage = stage).map
        FieldPredicate.text := by
  have hleaves : tree.effectiveLeaves.filter (fun test ↦ test.field.stage = stage) =
      tree.leaves.filterMap (Rule.contribution? stage) := by
    rw [Group.effectiveLeaves, List.filter_filterMap]
    rfl
  rw [atoms, clause?_ofTree, hleaves]
  cases hstage : tree.atStage? stage with
  | none =>
    rw [Group.atStage?_eq_none_iff.1 hstage]
    rfl
  | some pruned =>
    rw [Option.map_some, Option.bind_some, Group.ofText?_of_atStage? hstage,
      ← Group.leaves_of_atStage? hstage]
    exact Condition.atoms_expression FieldPredicate.text pruned.toCondition

end Filters

/-- Every predicate belongs to exactly one stage. -/
theorem Stage.perm_flatMap_filter (tests : List FieldPredicate) :
    (Stage.all.flatMap fun stage ↦
      tests.filter fun test ↦ test.field.stage = stage).Perm tests := by
  induction tests with
  | nil => exact .nil
  | cons test rest ih =>
    refine List.Perm.trans ?_ (ih.cons test)
    cases hstage : test.field.stage with
    | raw => simp [Stage.all, hstage]
    | groupCondition => simp [Stage.all, hstage, List.perm_middle]
    | postAggregate => simp [Stage.all, hstage, ← List.append_assoc]

/-- A condition on known fields in which only plain ANDs mix stages is the conjunction of its three
clauses, and the predicates of its rules are divided among these. -/
theorem Filters.conjunction_eq_condition (tree : Group Rule)
    (hknown : ∀ rule ∈ tree.leaves, (Catalog.find? rule.field).isSome)
    (hsplits : tree.toCondition.SplitsByStage) :
    ∃ filters, Filters.ofRules tree = .ok filters ∧
      (∀ assignment : String → Truth, filters.evaluate? assignment =
        some (match tree.effective? with
          | none => .yes
          | some effective => effective.evaluate fun test ↦ assignment test.text)) ∧
      (∀ stage, filters.atoms stage =
        (tree.effectiveLeaves.filter fun test ↦ test.field.stage = stage).map
          FieldPredicate.text) ∧
      (Stage.all.flatMap filters.atoms).Perm (tree.effectiveLeaves.map FieldPredicate.text) := by
  refine ⟨ofTree tree, ?_, ?_, atoms_ofTree tree, ?_⟩
  · rw [ofRules_eq, Group.unknownField?_eq_none hknown, okUnless_none]
  · intro assignment
    have hclauses := funext (clauseValue?_ofTree tree assignment)
    have hjoin := Condition.join_stages (fun test ↦ assignment (FieldPredicate.text test)) hsplits
    have hall (value : Stage → Truth) :
        Stage.all.mapM (fun stage ↦ some (value stage)) = some (Stage.all.map value) :=
      List.mapM_pure
    rw [evaluate?, hclauses, hall, Option.map_some, hjoin, ← Group.map_toCondition_prune,
      Group.effective?]
    cases tree.prune Rule.effective? <;> rfl
  · have hatoms := funext (atoms_ofTree tree)
    rw [hatoms, ← List.map_flatMap]
    exact (Stage.perm_flatMap_filter tree.effectiveLeaves).map FieldPredicate.text

theorem Filters.conjunction_eq_condition_mixed :
    let tree : Group Rule :=
      ⟨.and, false, [.group .or true [.leaf ⟨"cited_journal", "contains", .string "a"⟩,
          .leaf ⟨"cited_title", "=", .string "b"⟩],
        .leaf ⟨"fitness", "isNull", .null⟩, .leaf ⟨"fitness_bin_raw", "isNotNull", .null⟩]⟩
    (∀ rule ∈ tree.leaves, (Catalog.find? rule.field).isSome) ∧ tree.toCondition.SplitsByStage ∧
      ∃ filters, Filters.ofRules tree = .ok filters ∧
        (Stage.all.flatMap filters.atoms).Perm (tree.effectiveLeaves.map FieldPredicate.text) := by
  intro tree
  have hknown : ∀ rule ∈ tree.leaves, (Catalog.find? rule.field).isSome := by decide
  have hsplits : tree.toCondition.SplitsByStage := by decide
  obtain ⟨filters, hfilters, -, -, hatoms⟩ := conjunction_eq_condition tree hknown hsplits
  exact ⟨hknown, hsplits, filters, hfilters, hatoms⟩

end StagedQuery
