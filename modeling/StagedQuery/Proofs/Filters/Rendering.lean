import StagedQuery.Filters
import StagedQuery.Proofs.Condition.Text
import StagedQuery.Proofs.FirstFault
import StagedQuery.Proofs.Predicate.Atoms

/-!
# Rendered Conditions

What a condition says at a stage is the condition pruned to the rules that contribute there.  The
rendered text is the text of the pruned condition: no fragment and no clause is ever the text that
restricts nothing, so the comparisons with that text find exactly the groups that are left without
a leaf.  Rendering fails exactly if a rule names an unknown field, whatever the stage, and then
with the first such name.
-/

namespace StagedQuery

/-! ## Contributions of rules -/

namespace Rule

/-- The fault of a rule whose field the catalog does not know. -/
def unknownField? (rule : Rule) : Option UnknownField :=
  if (Catalog.find? rule.field).isSome then none else some ⟨rule.field⟩

/-- The predicate about a known field that a rule states, if it states one. -/
def effective? (rule : Rule) : Option FieldPredicate :=
  match hfield : Catalog.find? rule.field with
  | none => none
  | some field => rule.predicate.toOption.map fun predicate ↦
    ⟨field, List.mem_of_find?_eq_some hfield, predicate⟩

theorem effective?_eq {rule : Rule} {field : Field} (h : Catalog.find? rule.field = some field) :
    rule.effective? = rule.predicate.toOption.map fun predicate ↦
      ⟨field, List.mem_of_find?_eq_some h, predicate⟩ := by
  unfold effective?
  split
  · next hnone => simp [hnone] at h
  · next found hfound =>
    obtain rfl : found = field := by simpa [hfound] using h
    rfl

theorem effective?_eq_none {rule : Rule} (h : Catalog.find? rule.field = none) :
    rule.effective? = none := by
  unfold effective?
  split
  · rfl
  · next found hfound => simp [hfound] at h

/-- What a rule contributes to a stage: its predicate, if the field belongs to the stage. -/
def contribution? (stage : Stage) (rule : Rule) : Option FieldPredicate :=
  rule.effective?.filter fun test ↦ test.field.stage = stage

/-- A rule contributes to one stage at most. -/
theorem contribution?_of_stage {rule : Rule} {stage : Stage}
    (h : ∀ test ∈ rule.effective?, test.field.stage = stage) (other : Stage) :
    rule.contribution? other = if stage = other then rule.effective? else none := by
  unfold contribution?
  cases heffective : rule.effective? with
  | none => simp
  | some test =>
    have htest : test.field.stage = stage := h test heffective
    simp [Option.filter, htest]

end Rule

namespace Group

/-- The fault of the first rule on an unknown field. -/
def unknownField? (tree : Group Rule) : Option UnknownField :=
  tree.leaves.findSome? Rule.unknownField?

/-- What a condition says at a stage. -/
def atStage? (tree : Group Rule) (stage : Stage) : Option (Group FieldPredicate) :=
  tree.prune (Rule.contribution? stage)

end Group

variable {α : Type}

/-! ## The text that restricts nothing

It is the only text here without a blank. -/

theorem ne_unrestricted {text : String} (h : ' ' ∈ text.toList) : text ≠ unrestricted := by
  rintro rfl
  exact absurd h (by decide)

theorem blank_mem_fragment (predicate : Predicate) (reference : String) (type : FieldType) :
    ' ' ∈ (predicate.fragment reference type).toList := by
  cases predicate <;> simp [Predicate.fragment]

namespace Condition

theorem blank_mem_joinTexts {combinator : Combinator} {negated : Bool} {texts : List String}
    (hnonempty : texts ≠ []) (hblank : ∀ text ∈ texts, ' ' ∈ text.toList) :
    ' ' ∈ (joinTexts combinator negated texts).toList := by
  obtain ⟨text, rest, rfl⟩ := List.exists_cons_of_ne_nil hnonempty
  have hfirst : ' ' ∈ text.toList := hblank text List.mem_cons_self
  have hjoined : ' ' ∈ (joinTexts combinator false (text :: rest)).toList := by
    rw [joinTexts_plain]
    cases rest with
    | nil => simpa using hfirst
    | cons second rest => simp [hfirst]
  cases negated with
  | false => exact hjoined
  | true =>
    rw [joinTexts_negated, String.toList_append, String.toList_append]
    exact List.mem_append_left _ (List.mem_append_right _ hjoined)

theorem Full.blank_mem_childText {text : α → String} (htext : ∀ test, ' ' ∈ (text test).toList)
    {condition : Condition α} (h : condition.Full) : ' ' ∈ (condition.childText text).toList := by
  induction h with
  | leaf test => exact htext test
  | @group combinator negated children nonempty full ih =>
    have hjoined : ' ' ∈ (joinTexts combinator negated (children.map (childText text))).toList := by
      apply blank_mem_joinTexts (by simpa using nonempty)
      intro part hpart
      obtain ⟨child, hchild, rfl⟩ := List.mem_map.1 hpart
      exact ih child hchild
    rw [childText_group, String.toList_append, String.toList_append]
    exact List.mem_append_left _ (List.mem_append_right _ hjoined)

/-! ## Rendering -/

theorem part?_leaf (stage : Stage) (rule : Rule) :
    (leaf rule).part? stage =
      okUnless rule.unknownField? ((rule.contribution? stage).map FieldPredicate.text) := by
  cases hfind : Catalog.find? rule.field with
  | none =>
    simp only [part?, Catalog.lookup, Rule.unknownField?, hfind]
    rfl
  | some field =>
    have hlookup : Catalog.lookup rule.field = .ok field := by rw [Catalog.lookup, hfind]
    have hpart : (leaf rule).part? stage =
        .ok (if field.stage = stage then
          Filters.clauseOfText? (rule.translate field.reference field.type) else none) := by
      rw [part?, hlookup]
      change (if _ then _ else _ : Except UnknownField (Option String)) = _
      split <;> rfl
    have hfault : rule.unknownField? = none := by simp [Rule.unknownField?, hfind]
    rw [hpart, hfault, okUnless_none]
    congr 1
    rw [Rule.contribution?, Rule.effective?_eq hfind]
    cases hpredicate : rule.predicate with
    | error fault =>
      simp [Rule.translate, Rule.fragment, hpredicate, Filters.clauseOfText?, Except.map,
        Except.toOption]
    | ok predicate =>
      have hne := ne_unrestricted (blank_mem_fragment predicate field.reference field.type)
      by_cases hstage : field.stage = stage <;>
        simp [Rule.translate, Rule.fragment, hpredicate, Filters.clauseOfText?, Except.map,
          Except.toOption, FieldPredicate.text, hstage, hne, Option.filter]

/-- A group of children that each add a text has a clause of its own, in parentheses. -/
theorem clauseOfText?_clauseOfParts {combinator : Combinator} {negated : Bool}
    {remaining : List (Condition FieldPredicate)} (hfull : ∀ child ∈ remaining, child.Full) :
    (Filters.clauseOfText? (clauseOfParts combinator negated
        (remaining.map (childText FieldPredicate.text)))).map (fun clause ↦ "(" ++ clause ++ ")") =
      (groupOf? combinator negated remaining).map (childText FieldPredicate.text) := by
  cases remaining with
  | nil => rfl
  | cons child rest =>
    have hne : joinTexts combinator negated ((child :: rest).map (childText FieldPredicate.text)) ≠
        unrestricted := by
      apply ne_unrestricted
      apply blank_mem_joinTexts (by simp)
      intro part hpart
      obtain ⟨test, htest, rfl⟩ := List.mem_map.1 hpart
      exact (hfull test htest).blank_mem_childText fun _ ↦ blank_mem_fragment _ _ _
    have hparts : clauseOfParts combinator negated
          ((child :: rest).map (childText FieldPredicate.text)) =
        joinTexts combinator negated ((child :: rest).map (childText FieldPredicate.text)) := rfl
    rw [hparts, Filters.clauseOfText?, if_neg hne, groupOf?, if_neg (by simp), Option.map_some,
      Option.map_some, childText_group]

/-- The parts of children in terms of what is known of each child. -/
theorem parts_eq_of_part? {stage : Stage} {children : List (Condition Rule)}
    (hchildren : ∀ child ∈ children, child.part? stage =
      okUnless (child.leaves.findSome? Rule.unknownField?)
        ((child.prune (Rule.contribution? stage)).map (childText FieldPredicate.text))) :
    parts stage children = okUnless ((children.flatMap leaves).findSome? Rule.unknownField?)
      ((children.filterMap (prune (Rule.contribution? stage))).map
        (childText FieldPredicate.text)) := by
  induction children with
  | nil => rfl
  | cons child rest ih =>
    have hrest := ih fun child hchild ↦ hchildren child (List.mem_cons_of_mem _ hchild)
    rw [parts, hchildren child List.mem_cons_self, hrest, List.flatMap_cons,
      List.findSome?_append, List.filterMap_cons]
    simp only [okUnless_bind_pure, okUnless_bind]
    congr 1
    cases child.prune (Rule.contribution? stage) <;> rfl

/-- Rendering a child gives the text of the pruned child, unless a rule names an unknown field. -/
theorem part?_eq (stage : Stage) (condition : Condition Rule) :
    condition.part? stage = okUnless (condition.leaves.findSome? Rule.unknownField?)
      ((condition.prune (Rule.contribution? stage)).map (childText FieldPredicate.text)) := by
  induction condition with
  | leaf rule =>
    have hfault : [rule].findSome? Rule.unknownField? = rule.unknownField? := by
      rw [List.findSome?_cons]
      cases rule.unknownField? <;> rfl
    rw [part?_leaf, leaves_leaf, hfault, prune_leaf, Option.map_map]
    rfl
  | group combinator negated children ih =>
    have hfull : ∀ child ∈ children.filterMap (prune (Rule.contribution? stage)), child.Full := by
      intro child hchild
      obtain ⟨origin, -, hprune⟩ := List.mem_filterMap.1 hchild
      exact full_of_prune hprune
    rw [part?, parts_eq_of_part? ih, leaves_group, prune_group]
    simp only [okUnless_bind_pure]
    rw [clauseOfText?_clauseOfParts hfull]

end Condition

namespace Group

theorem full_of_atStage? {tree : Group Rule} {stage : Stage} {pruned : Group FieldPredicate}
    (h : tree.atStage? stage = some pruned) : pruned.toCondition.Full :=
  Condition.full_of_prune (toCondition_prune h)

theorem text_ne_unrestricted {group : Group FieldPredicate} (h : group.toCondition.Full) :
    group.text FieldPredicate.text ≠ unrestricted := by
  cases h with
  | group nonempty full =>
    apply ne_unrestricted
    apply Condition.blank_mem_joinTexts (by simpa using nonempty)
    intro part hpart
    obtain ⟨child, hchild, rfl⟩ := List.mem_map.1 hpart
    exact (full child hchild).blank_mem_childText fun _ ↦ blank_mem_fragment _ _ _

/-- Rendering gives the text of what the condition says at the stage, and the text that restricts
nothing if it says nothing there.  It fails with the first unknown field, if there is one. -/
theorem render_eq (tree : Group Rule) (stage : Stage) :
    tree.render stage = okUnless tree.unknownField?
      (((tree.atStage? stage).map (text FieldPredicate.text)).getD unrestricted) := by
  rw [render, Condition.parts_eq_of_part? fun child _ ↦ child.part?_eq stage]
  simp only [okUnless_bind_pure]
  rw [unknownField?, leaves_eq, toCondition, Condition.leaves_group]
  congr 1
  rw [atStage?, prune, Condition.pruneAll_eq]
  cases tree.children.filterMap (Condition.prune (Rule.contribution? stage)) <;> rfl

end Group

namespace Filters

/-- A clause is present exactly if the condition says something at its stage. -/
theorem clauseOfText?_text (tree : Group Rule) (stage : Stage) :
    clauseOfText? (((tree.atStage? stage).map (Group.text FieldPredicate.text)).getD unrestricted) =
      (tree.atStage? stage).map (Group.text FieldPredicate.text) := by
  cases hstage : tree.atStage? stage with
  | none => rfl
  | some pruned =>
    have hne := Group.text_ne_unrestricted (Group.full_of_atStage? hstage)
    simp [clauseOfText?, hne]

/-- The clauses of the three stages. -/
def ofTree (tree : Group Rule) : Filters where
  raw := (tree.atStage? .raw).map (Group.text FieldPredicate.text)
  groupCondition := (tree.atStage? .groupCondition).map (Group.text FieldPredicate.text)
  postAggregate := (tree.atStage? .postAggregate).map (Group.text FieldPredicate.text)

@[simp]
theorem clause?_ofTree (tree : Group Rule) (stage : Stage) :
    (ofTree tree).clause? stage = (tree.atStage? stage).map (Group.text FieldPredicate.text) := by
  cases stage <;> rfl

/-- All three runs stop at the same unknown field. -/
theorem ofRules_eq (tree : Group Rule) :
    ofRules tree = okUnless tree.unknownField? (ofTree tree) := by
  rw [ofRules, Group.render_eq, Group.render_eq, Group.render_eq]
  cases tree.unknownField? with
  | some fault => rfl
  | none =>
    change (Except.ok ⟨clauseOfText? _, clauseOfText? _, clauseOfText? _⟩ :
      Except UnknownField Filters) = _
    rw [clauseOfText?_text, clauseOfText?_text, clauseOfText?_text]
    rfl

end Filters

end StagedQuery
