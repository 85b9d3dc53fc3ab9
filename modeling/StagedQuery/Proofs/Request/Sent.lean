import StagedQuery.Proofs.Condition.Sent
import StagedQuery.Proofs.Request.Silent

/-!
# Conditions in Requests as They Are Sent

A rule may be sent with anything under its operator and its value.  If no operator is anything but a
text or null, the text of the condition is read, compiles with every chart that can be drawn, and
gives the statement of the rules that say something.  Otherwise the text is refused as a whole, with
the first operator of another kind.
-/

namespace StagedQuery

open Json (Document DoubleReader nestingLimit)

/-- A condition on known fields is read and compiled whatever stands under the values of its rules,
and whatever texts or nulls stand under their operators.  A rule that cannot be understood leaves no
trace in the statement.  An operator that is neither a text nor null fails the whole text. -/
theorem sent_isCompiled [DoubleReader] {text : String} {members : List (Option String × Document)}
    {value : Json} {tree : Group SentRule} (htext : IsRulesText nestingLimit text members value)
    (hsent : tree.toCondition.IsSentAs value)
    (hknown : ∀ sent ∈ tree.leaves, (Catalog.find? sent.field).isSome) :
    ((∀ sent ∈ tree.leaves, sent.fault? = none) →
      ∃ group, Group.ofText text = .ok group ∧ group = tree.map SentRule.rule ∧
        ∀ settings chart, Chart.ofSettings settings = .ok chart → ∃ statement,
          compile group settings = .ok statement ∧
          compile (group.spoken?.getD {}) settings = .ok statement) ∧
    ∀ fault, tree.leaves.findSome? SentRule.fault? = some fault →
      Group.ofText text = .error (.mismatch fault) := by
  have hread := Group.ofText_eq_of_isSentAs htext hsent
  constructor
  · intro hoperators
    rw [List.findSome?_eq_none_iff.2 hoperators] at hread
    refine ⟨tree.map SentRule.rule, hread, rfl, ?_⟩
    intro settings chart hchart
    have hrules : ∀ rule ∈ (tree.map SentRule.rule).leaves, (Catalog.find? rule.field).isSome := by
      intro rule hrule
      rw [Group.leaves_map] at hrule
      obtain ⟨sent, hsent, rfl⟩ := List.mem_map.1 hrule
      exact hknown sent hsent
    have hcompile := compile_of_chart (Group.unknownField?_eq_none hrules) hchart
    exact ⟨_, hcompile, (compile_spoken hrules settings).trans hcompile⟩
  · intro fault hfault
    rw [hread, hfault]
    rfl

/-- A null for an operator and an object for a value are read, and neither leaves a trace. -/
theorem sent_isCompiled_null :
    let text := "\x7b\"rules\":[\x7b\"field\":\"cited_doi\",\"operator\":null\x7d," ++
      "\x7b\"field\":\"fitness\",\"operator\":\"in\",\"value\":\x7b\x7d\x7d]\x7d"
    let tree : Group SentRule := ⟨.and, false,
      [.leaf ⟨"cited_doi", some .null, none⟩,
        .leaf ⟨"fitness", some (.string "in"), some (.object [])⟩]⟩
    (∃ members value, IsRulesText nestingLimit text members value ∧
      tree.toCondition.IsSentAs value) ∧
      (∀ sent ∈ tree.leaves, (Catalog.find? sent.field).isSome) ∧
      (∀ sent ∈ tree.leaves, sent.fault? = none) ∧
      ∃ group, Group.ofText text = .ok group ∧
        ∀ settings chart, Chart.ofSettings settings = .ok chart → ∃ statement,
          compile group settings = .ok statement ∧ compile {} settings = .ok statement := by
  intro text tree
  let members : List (String × Json) := [("rules", .array
    [.object [("field", .string "cited_doi"), ("operator", .null)],
      .object [("field", .string "fitness"), ("operator", .string "in"),
        ("value", .object [])]])]
  have hfits : (Json.object members).Fits nestingLimit := ⟨by decide, by decide⟩
  have hdoubles : ∀ double ∈ (Json.object members).doubles, DoubleReader.Recovers double :=
    List.forall_mem_nil _
  have hwritten : (Json.object members).text = text := by decide +kernel
  have htext : IsRulesText nestingLimit text _ (.object members) :=
    hwritten ▸ IsRulesText.of_fits hfits hdoubles (by decide)
  have hsent : tree.toCondition.IsSentAs (.object members) :=
    .group rfl rfl rfl (.cons (.leaf rfl rfl rfl rfl) (.cons (.leaf rfl rfl rfl rfl) .nil))
  have hknown : ∀ sent ∈ tree.leaves, (Catalog.find? sent.field).isSome := by decide
  have hoperators : ∀ sent ∈ tree.leaves, sent.fault? = none := by decide
  obtain ⟨group, hread, rfl, hcompile⟩ := (sent_isCompiled htext hsent hknown).1 hoperators
  exact ⟨⟨_, _, htext, hsent⟩, hknown, hoperators, _, hread, hcompile⟩

/-- An operator that is a number is not kept as it was sent: it fails the whole text. -/
theorem sent_isRefused_number :
    let text := "\x7b\"rules\":[\x7b\"field\":\"cited_doi\",\"operator\":5\x7d]\x7d"
    let five : Json.Number := .integer 5 (by decide)
    let tree : Group SentRule := ⟨.and, false, [.leaf ⟨"cited_doi", some (.number five), none⟩]⟩
    (∃ members value, IsRulesText nestingLimit text members value ∧
      tree.toCondition.IsSentAs value) ∧
      (∀ sent ∈ tree.leaves, (Catalog.find? sent.field).isSome) ∧
      Group.ofText text = .error (.mismatch (.wrongType (.number five) .text)) := by
  intro text five tree
  let members : List (String × Json) := [("rules", .array
    [.object [("field", .string "cited_doi"), ("operator", .number five)]])]
  have hfits : (Json.object members).Fits nestingLimit := ⟨by decide, by decide⟩
  have hdoubles : ∀ double ∈ (Json.object members).doubles, DoubleReader.Recovers double :=
    List.forall_mem_nil _
  have hwritten : (Json.object members).text = text := by decide +kernel
  have htext : IsRulesText nestingLimit text _ (.object members) :=
    hwritten ▸ IsRulesText.of_fits hfits hdoubles (by decide)
  have hsent : tree.toCondition.IsSentAs (.object members) :=
    .group rfl rfl rfl (.cons (.leaf rfl rfl rfl rfl) .nil)
  have hknown : ∀ sent ∈ tree.leaves, (Catalog.find? sent.field).isSome := by decide
  exact ⟨⟨_, _, htext, hsent⟩, hknown, Group.ofText_eq_of_isSentAs htext hsent⟩

end StagedQuery
