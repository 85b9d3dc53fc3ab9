import StagedQuery.Condition.Basic
import Mathlib.Data.List.Basic
import Mathlib.Data.Option.Basic
import Mathlib.Logic.Function.Basic

/-!
# Pruned Conditions

Pruning a condition keeps the leaves that have a replacement, together with the groups around them.
A group that is left without a leaf disappears, so every group of a pruned condition has children,
and the leaves that remain are exactly those of the replacements, in the old order.

A condition nests through lists of children.  The induction principle of this module hides the
second recursion; the functions on lists of children are `map`, `filterMap` and `flatMap` of the
functions on one child.
-/

namespace StagedQuery

variable {α β γ δ : Type}

namespace Condition

/-! ## Induction -/

/-- A statement about conditions holds if every group inherits it from all of its children. -/
@[elab_as_elim, induction_eliminator]
theorem induct {motive : Condition α → Prop} (leaf : ∀ test, motive (.leaf test))
    (group : ∀ combinator negated children, (∀ child ∈ children, motive child) →
      motive (.group combinator negated children))
    (condition : Condition α) : motive condition := by
  apply @Condition.rec α motive (fun children ↦ ∀ child ∈ children, motive child) leaf group
  · simp
  · intro head tail hhead htail
    simpa using ⟨hhead, htail⟩

@[simp]
theorem leavesOfAll_eq (children : List (Condition α)) :
    leavesOfAll children = children.flatMap leaves := by
  induction children with
  | nil => rfl
  | cons child rest ih => rw [leavesOfAll, ih, List.flatMap_cons]

@[simp]
theorem leaves_leaf (test : α) : (leaf test).leaves = [test] := rfl

@[simp]
theorem leaves_group (combinator : Combinator) (negated : Bool) (children : List (Condition α)) :
    (group combinator negated children).leaves = children.flatMap leaves :=
  leavesOfAll_eq children

/-! ## Replacing leaves -/

mutual

/-- Replaces every leaf. -/
def map (replace : α → β) : Condition α → Condition β
  | .leaf test => .leaf (replace test)
  | .group combinator negated children => .group combinator negated (mapAll replace children)

def mapAll (replace : α → β) : List (Condition α) → List (Condition β)
  | [] => []
  | child :: rest => child.map replace :: mapAll replace rest

end

@[simp]
theorem mapAll_eq (replace : α → β) (children : List (Condition α)) :
    mapAll replace children = children.map (map replace) := by
  induction children with
  | nil => rfl
  | cons child rest ih => rw [mapAll, ih, List.map_cons]

@[simp]
theorem map_leaf (replace : α → β) (test : α) : (leaf test).map replace = leaf (replace test) := rfl

@[simp]
theorem map_group (replace : α → β) (combinator : Combinator) (negated : Bool)
    (children : List (Condition α)) :
    (group combinator negated children).map replace =
      group combinator negated (children.map (map replace)) := by
  rw [map, mapAll_eq]

theorem leaves_map (replace : α → β) (condition : Condition α) :
    (condition.map replace).leaves = condition.leaves.map replace := by
  induction condition with
  | leaf test => rfl
  | group combinator negated children ih =>
    rw [map_group, leaves_group, leaves_group, List.flatMap_map, List.map_flatMap]
    exact List.flatMap_congr ih

/-! ## Pruning -/

mutual

/-- Replaces the leaves that have a replacement and removes the others, together with the groups
that are left without a leaf. -/
def prune (replace? : α → Option β) : Condition α → Option (Condition β)
  | .leaf test => (replace? test).map .leaf
  | .group combinator negated children =>
    match pruneAll replace? children with
    | [] => none
    | remaining => some (.group combinator negated remaining)

def pruneAll (replace? : α → Option β) : List (Condition α) → List (Condition β)
  | [] => []
  | child :: rest => (child.prune replace?).toList ++ pruneAll replace? rest

end

@[simp]
theorem pruneAll_eq (replace? : α → Option β) (children : List (Condition α)) :
    pruneAll replace? children = children.filterMap (prune replace?) := by
  induction children with
  | nil => rfl
  | cons child rest ih =>
    rw [pruneAll, ih, List.filterMap_cons]
    cases child.prune replace? <;> rfl

/-- The group with the given children, unless there are none. -/
def groupOf? (combinator : Combinator) (negated : Bool) (children : List (Condition α)) :
    Option (Condition α) :=
  if children = [] then none else some (.group combinator negated children)

@[simp]
theorem prune_leaf (replace? : α → Option β) (test : α) :
    (leaf test).prune replace? = (replace? test).map .leaf := rfl

@[simp]
theorem prune_group (replace? : α → Option β) (combinator : Combinator) (negated : Bool)
    (children : List (Condition α)) :
    (group combinator negated children).prune replace? =
      groupOf? combinator negated (children.filterMap (prune replace?)) := by
  rw [prune, pruneAll_eq, groupOf?]
  split <;> simp_all

theorem groupOf?_eq_some {combinator : Combinator} {negated : Bool}
    {children : List (Condition α)} {result : Condition α} :
    groupOf? combinator negated children = some result ↔
      children ≠ [] ∧ result = .group combinator negated children := by
  unfold groupOf?
  split <;> simp_all [eq_comm]

theorem map_groupOf? (replace : α → β) (combinator : Combinator) (negated : Bool)
    (children : List (Condition α)) :
    (groupOf? combinator negated children).map (map replace) =
      groupOf? combinator negated (children.map (map replace)) := by
  unfold groupOf?
  split <;> simp_all

/-! ## What remains -/

/-- The remaining leaves are the replacements of the old ones, in order. -/
theorem leaves_prune (replace? : α → Option β) (condition : Condition α) :
    (condition.prune replace?).toList.flatMap leaves = condition.leaves.filterMap replace? := by
  induction condition with
  | leaf test => cases htest : replace? test <;> simp [htest]
  | group combinator negated children ih =>
    have hchildren : (children.filterMap (prune replace?)).flatMap leaves =
        (children.flatMap leaves).filterMap replace? := by
      rw [List.filterMap_flatMap, List.filterMap_eq_flatMap_toList, List.flatMap_assoc]
      exact List.flatMap_congr ih
    rw [prune_group, leaves_group, ← hchildren, groupOf?]
    split
    · simp_all
    · simp

theorem leaves_of_prune {replace? : α → Option β} {condition : Condition α}
    {remaining : Condition β} (h : condition.prune replace? = some remaining) :
    remaining.leaves = condition.leaves.filterMap replace? := by
  have hleaves := leaves_prune replace? condition
  rw [h] at hleaves
  simpa using hleaves

/-- A condition all of whose groups have children. -/
inductive Full : Condition α → Prop
  | leaf (test : α) : Full (.leaf test)
  | group {combinator : Combinator} {negated : Bool} {children : List (Condition α)}
      (nonempty : children ≠ []) (full : ∀ child ∈ children, Full child) :
      Full (.group combinator negated children)

theorem full_of_prune {replace? : α → Option β} {condition : Condition α}
    {remaining : Condition β} (h : condition.prune replace? = some remaining) : remaining.Full := by
  induction condition generalizing remaining with
  | leaf test =>
    obtain ⟨replacement, -, rfl⟩ := Option.map_eq_some_iff.1 h
    exact .leaf replacement
  | group combinator negated children ih =>
    rw [prune_group, groupOf?_eq_some] at h
    obtain ⟨hnonempty, rfl⟩ := h
    refine .group hnonempty fun child hchild ↦ ?_
    obtain ⟨origin, horigin, hprune⟩ := List.mem_filterMap.1 hchild
    exact ih origin horigin hprune

theorem Full.leaves_ne_nil {condition : Condition α} (h : condition.Full) :
    condition.leaves ≠ [] := by
  induction h with
  | leaf test => simp
  | @group combinator negated children nonempty full ih =>
    obtain ⟨child, hchild⟩ := List.exists_mem_of_ne_nil children nonempty
    intro hleaves
    rw [leaves_group, List.flatMap_eq_nil_iff] at hleaves
    exact ih child hchild (hleaves child hchild)

/-- Nothing remains exactly if no leaf has a replacement. -/
theorem prune_eq_none_iff (replace? : α → Option β) (condition : Condition α) :
    condition.prune replace? = none ↔ condition.leaves.filterMap replace? = [] := by
  rw [← leaves_prune]
  cases hprune : condition.prune replace? with
  | none => simp
  | some remaining => simpa using (full_of_prune hprune).leaves_ne_nil

/-- Only the replacements of leaves that occur matter. -/
theorem prune_congr {first? second? : α → Option β} {condition : Condition α}
    (h : ∀ test ∈ condition.leaves, first? test = second? test) :
    condition.prune first? = condition.prune second? := by
  induction condition with
  | leaf test => rw [prune_leaf, prune_leaf, h test (by simp)]
  | group combinator negated children ih =>
    have hchildren : children.filterMap (prune first?) = children.filterMap (prune second?) := by
      apply List.filterMap_congr
      intro child hchild
      apply ih child hchild
      intro test htest
      rw [leaves_group] at h
      exact h test (List.mem_flatMap_of_mem hchild htest)
    rw [prune_group, prune_group, hchildren]

/-! ## Pruning after replacing, and replacing after pruning -/

theorem prune_map (replace : α → β) (replace? : β → Option γ) (condition : Condition α) :
    (condition.map replace).prune replace? =
      condition.prune fun test ↦ replace? (replace test) := by
  induction condition with
  | leaf test => rfl
  | group combinator negated children ih =>
    calc
      _ = groupOf? combinator negated
          ((children.map (map replace)).filterMap (prune replace?)) := by
        rw [map_group, prune_group]
      _ = groupOf? combinator negated
          (children.filterMap fun child ↦ (child.map replace).prune replace?) := by
        rw [List.filterMap_map]
        rfl
      _ = groupOf? combinator negated
          (children.filterMap (prune fun test ↦ replace? (replace test))) := by
        rw [List.filterMap_congr ih]
      _ = _ := (prune_group _ _ _ _).symm

theorem map_prune (replace? : α → Option β) (replace : β → γ) (condition : Condition α) :
    (condition.prune replace?).map (map replace) =
      condition.prune fun test ↦ (replace? test).map replace := by
  induction condition with
  | leaf test => cases htest : replace? test <;> simp [htest]
  | group combinator negated children ih =>
    calc
      _ = (groupOf? combinator negated
          (children.filterMap (prune replace?))).map (map replace) := by
        rw [prune_group]
      _ = groupOf? combinator negated ((children.filterMap (prune replace?)).map (map replace)) :=
        map_groupOf? replace combinator negated _
      _ = groupOf? combinator negated
          (children.filterMap (prune fun test ↦ (replace? test).map replace)) := by
        rw [List.map_filterMap, List.filterMap_congr ih]
      _ = _ := (prune_group _ _ _ _).symm

/-- Pruning twice is pruning once by both replacements.  A group that the first pruning leaves with
leaves may still be emptied by the second one. -/
theorem prune_prune (first? : α → Option β) (second? : β → Option γ) (condition : Condition α) :
    (condition.prune first?).bind (prune second?) =
      condition.prune fun test ↦ (first? test).bind second? := by
  induction condition with
  | leaf test => cases htest : first? test <;> simp [htest]
  | group combinator negated children ih =>
    have hchildren : (children.filterMap (prune first?)).filterMap (prune second?) =
        children.filterMap (prune fun test ↦ (first? test).bind second?) := by
      rw [List.filterMap_filterMap]
      exact List.filterMap_congr ih
    rw [prune_group, prune_group, ← hchildren]
    cases children.filterMap (prune first?) with
    | nil => rfl
    | cons child rest => rw [groupOf?, if_neg (by simp), Option.bind_some, prune_group]

end Condition

namespace Group

def map (replace : α → β) (group : Group α) : Group β :=
  { group with children := group.children.map (Condition.map replace) }

/-- The group without the leaves that have no replacement, unless none remains. -/
def prune (replace? : α → Option β) (group : Group α) : Option (Group β) :=
  match Condition.pruneAll replace? group.children with
  | [] => none
  | remaining => some { group with children := remaining }

theorem toCondition_injective : Function.Injective (toCondition : Group α → Condition α) := by
  intro first second h
  obtain ⟨combinator, negated, children⟩ := first
  obtain ⟨_, _, _⟩ := second
  simpa [toCondition] using h

theorem leaves_eq (group : Group α) : group.leaves = group.toCondition.leaves := rfl

theorem toCondition_map (replace : α → β) (group : Group α) :
    (group.map replace).toCondition = group.toCondition.map replace := by
  rw [toCondition, toCondition, Condition.map_group, map]

theorem leaves_map (replace : α → β) (group : Group α) :
    (group.map replace).leaves = group.leaves.map replace := by
  rw [leaves_eq, toCondition_map, Condition.leaves_map, leaves_eq]

/-- Pruning treats the root like any other group. -/
theorem map_toCondition_prune (replace? : α → Option β) (group : Group α) :
    (group.prune replace?).map toCondition = group.toCondition.prune replace? := by
  rw [prune, toCondition, Condition.prune]
  split <;> simp_all [toCondition]

theorem toCondition_prune {replace? : α → Option β} {group : Group α} {remaining : Group β}
    (h : group.prune replace? = some remaining) :
    group.toCondition.prune replace? = some remaining.toCondition := by
  rw [← map_toCondition_prune, h, Option.map_some]

theorem prune_prune (first? : α → Option β) (second? : β → Option γ) (group : Group α) :
    (group.prune first?).bind (prune second?) =
      group.prune fun test ↦ (first? test).bind second? := by
  apply Option.map_injective toCondition_injective
  calc
    _ = ((group.prune first?).map toCondition).bind (Condition.prune second?) := by
      cases group.prune first? with
      | none => rfl
      | some remaining => exact remaining.map_toCondition_prune second?
    _ = group.toCondition.prune fun test ↦ (first? test).bind second? := by
      rw [map_toCondition_prune, Condition.prune_prune]
    _ = _ := (map_toCondition_prune _ _).symm

/-- Pruning and then replacing leaves can be read off the outlines of the leaves, if the outline of
a leaf determines what it is replaced by. -/
theorem map_prune_congr {outline : α → δ} {replace? : α → Option β} {replace : β → γ}
    (houtline : ∀ test other, outline test = outline other →
      (replace? test).map replace = (replace? other).map replace)
    {first second : Group α} (h : first.map outline = second.map outline) :
    (first.prune replace?).map (map replace) = (second.prune replace?).map (map replace) := by
  obtain ⟨ofOutline, hfactors⟩ : ∃ ofOutline : δ → Option γ,
      (fun test ↦ (replace? test).map replace) = ofOutline ∘ outline :=
    (Function.factorsThrough_iff _).1 fun test other ↦ houtline test other
  have hcondition (group : Group α) :
      ((group.prune replace?).map (map replace)).map toCondition =
        (group.map outline).toCondition.prune ofOutline := by
    calc
      _ = ((group.prune replace?).map toCondition).map (Condition.map replace) := by
        rw [Option.map_map, Option.map_map]
        congr 1
        funext remaining
        exact remaining.toCondition_map replace
      _ = group.toCondition.prune (ofOutline ∘ outline) := by
        rw [map_toCondition_prune, Condition.map_prune, hfactors]
      _ = _ := by
        rw [toCondition_map, Condition.prune_map]
        rfl
  apply Option.map_injective toCondition_injective
  rw [hcondition, hcondition, h]

end Group

end StagedQuery
