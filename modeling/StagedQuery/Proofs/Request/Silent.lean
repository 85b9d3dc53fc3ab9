import StagedQuery.Proofs.Filters.Silent
import StagedQuery.Proofs.Request.Outcome

/-!
# Silent Rules in Requests

Silent rules leave no trace in a statement: conditions that agree without them are compiled to the
same statement or fail in the same way, whatever the chart.  A fault of the chart is all that can
differ from success, since the conditions here are on known fields.
-/

namespace StagedQuery

/-- Conditions on known fields with the same clauses are compiled alike. -/
theorem compile_congr {first second : Group Rule} (hfirst : first.unknownField? = none)
    (hsecond : second.unknownField? = none)
    (h : ∀ stage, first.atStage? stage = second.atStage? stage) (settings : ChartSettings) :
    compile first settings = compile second settings := by
  have hfilters : Filters.ofRules first = Filters.ofRules second := by
    rw [Filters.ofRules_of_known hfirst, Filters.ofRules_of_known hsecond, Filters.ofTree_congr h]
  rw [compile, compile, hfilters]

/-- A condition on known fields is compiled as if its silent rules were not there. -/
theorem compile_spoken {tree : Group Rule}
    (hknown : ∀ rule ∈ tree.leaves, (Catalog.find? rule.field).isSome) (settings : ChartSettings) :
    compile (tree.spoken?.getD {}) settings = compile tree settings := by
  have hspokenKnown : ∀ rule ∈ (tree.spoken?.getD {}).leaves,
      (Catalog.find? rule.field).isSome := by
    intro rule hrule
    cases hspoken : tree.spoken? with
    | none =>
      rw [hspoken] at hrule
      cases hrule
    | some spoken =>
      rw [hspoken, Option.getD_some, Group.leaves_of_spoken? hspoken] at hrule
      exact hknown rule (List.mem_of_mem_filter hrule)
  have hstages (stage : Stage) :
      (tree.spoken?.getD {}).atStage? stage = tree.atStage? stage := by
    rw [tree.atStage?_eq_bind_spoken? stage]
    cases tree.spoken? <;> rfl
  exact compile_congr (Group.unknownField?_eq_none hspokenKnown)
    (Group.unknownField?_eq_none hknown) hstages settings

/-- Conditions on known fields that agree without their silent rules have the same clauses and the
same statement or fault for every chart.  If they agree without the rules of the other stages as
well, they have the same text and the same clause at the stage that is left. -/
theorem compile_eq_of_spoken_eq {first second : Group Rule}
    (hfirst : ∀ rule ∈ first.leaves, (Catalog.find? rule.field).isSome)
    (hsecond : ∀ rule ∈ second.leaves, (Catalog.find? rule.field).isSome) :
    (first.spoken? = second.spoken? →
      (∃ filters, Filters.ofRules first = .ok filters ∧ Filters.ofRules second = .ok filters) ∧
      ∀ settings, compile first settings = compile second settings) ∧
    ∀ stage, first.spoken?.bind (Group.onlyStage? stage) =
        second.spoken?.bind (Group.onlyStage? stage) →
      (∃ text, first.render stage = .ok text ∧ second.render stage = .ok text) ∧
      ∃ firstFilters secondFilters, Filters.ofRules first = .ok firstFilters ∧
        Filters.ofRules second = .ok secondFilters ∧
        firstFilters.clause? stage = secondFilters.clause? stage := by
  have hfirst := Group.unknownField?_eq_none hfirst
  have hsecond := Group.unknownField?_eq_none hsecond
  constructor
  · intro hspoken
    have hstages := Group.atStage?_congr_spoken hspoken
    refine ⟨⟨Filters.ofTree first, Filters.ofRules_of_known hfirst, ?_⟩,
      compile_congr hfirst hsecond hstages⟩
    rw [Filters.ofRules_of_known hsecond, Filters.ofTree_congr hstages]
  · intro stage honly
    have hstage := Group.atStage?_congr_onlyStage honly
    refine ⟨⟨_, Group.render_of_known hfirst stage, ?_⟩, Filters.ofTree first,
      Filters.ofTree second, Filters.ofRules_of_known hfirst, Filters.ofRules_of_known hsecond, ?_⟩
    · rw [Group.render_of_known hsecond stage, hstage]
    · rw [Filters.clause?_ofTree, Filters.clause?_ofTree, hstage]

theorem compile_eq_of_spoken_eq_emptied :
    let spoken : Condition Rule := .leaf ⟨"cited_title", "contains", .string "1=1"⟩
    let later : Condition Rule := .leaf ⟨"fitness", "isNull", .null⟩
    let bare : Group Rule := ⟨.or, true, [spoken, later]⟩
    let padded : Group Rule :=
      ⟨.or, true,
        [.group .and true [.leaf ⟨"cited_title", "fuzzy", .string "a"⟩, .group .or true []],
          spoken, .leaf ⟨"cited_journal", "between", .array [.string "b"]⟩, later]⟩
    (∀ rule ∈ bare.leaves, (Catalog.find? rule.field).isSome) ∧
      (∀ rule ∈ padded.leaves, (Catalog.find? rule.field).isSome) ∧
      bare.spoken? = padded.spoken? ∧
      (∀ settings, compile bare settings = compile padded settings) ∧
      bare.spoken?.bind (Group.onlyStage? .raw) =
        (Group.spoken? ⟨.or, true, [spoken]⟩).bind (Group.onlyStage? .raw) ∧
      ∃ text, bare.render .raw = .ok text ∧ Group.render ⟨.or, true, [spoken]⟩ .raw = .ok text := by
  intro spoken later bare padded
  have hbare : ∀ rule ∈ bare.leaves, (Catalog.find? rule.field).isSome := by decide
  have hpadded : ∀ rule ∈ padded.leaves, (Catalog.find? rule.field).isSome := by decide
  have hspoken : bare.spoken? = padded.spoken? := by rfl
  have honly : bare.spoken?.bind (Group.onlyStage? .raw) =
      (Group.spoken? ⟨.or, true, [spoken]⟩).bind (Group.onlyStage? .raw) := by rfl
  have halone : ∀ rule ∈ (⟨.or, true, [spoken]⟩ : Group Rule).leaves,
      (Catalog.find? rule.field).isSome := by decide
  exact ⟨hbare, hpadded, hspoken, ((compile_eq_of_spoken_eq hbare hpadded).1 hspoken).2, honly,
    ((compile_eq_of_spoken_eq hbare halone).2 .raw honly).1⟩

end StagedQuery
