import StagedQuery.Condition.Basic
import StagedQuery.Proofs.Condition.Pruning

/-!
# Three-Valued Truth

A test on a missing value is neither true nor false.  Truth values are therefore ordered `no`,
`unknown`, `yes`; AND takes the smallest value, OR the largest one, and NOT turns the order round.
Groups of a condition join the values of their children in this way.
-/

namespace StagedQuery

inductive Truth where
  | no
  | unknown
  | yes
deriving DecidableEq

namespace Truth

def not : Truth → Truth
  | .no => .yes
  | .unknown => .unknown
  | .yes => .no

def and : Truth → Truth → Truth
  | .no, _ | _, .no => .no
  | .yes, value | value, .yes => value
  | .unknown, .unknown => .unknown

def or : Truth → Truth → Truth
  | .yes, _ | _, .yes => .yes
  | .no, value | value, .no => value
  | .unknown, .unknown => .unknown

@[simp]
theorem yes_and (value : Truth) : and .yes value = value := by cases value <;> rfl

@[simp]
theorem and_yes (value : Truth) : and value .yes = value := by cases value <;> rfl

@[simp]
theorem or_no (value : Truth) : or value .no = value := by cases value <;> rfl

theorem and_comm (first second : Truth) : and first second = and second first := by
  cases first <;> cases second <;> rfl

theorem and_assoc (first second third : Truth) :
    and (and first second) third = and first (and second third) := by
  cases first <;> cases second <;> cases third <;> rfl

instance : Std.Commutative and := ⟨and_comm⟩

instance : Std.Associative and := ⟨and_assoc⟩

/-- The value of values joined by a combinator; without values AND is `yes` and OR is `no`. -/
def join : Combinator → List Truth → Truth
  | .and, values => values.foldr and .yes
  | .or, values => values.foldr or .no

@[simp]
theorem join_singleton (combinator : Combinator) (value : Truth) :
    join combinator [value] = value := by
  cases combinator <;> simp [join]

theorem join_and_cons (value : Truth) (values : List Truth) :
    join .and (value :: values) = and value (join .and values) := rfl

theorem join_and_map_yes {ι : Type} (items : List ι) :
    join .and (items.map fun _ ↦ yes) = yes := by
  induction items with
  | nil => rfl
  | cons item rest ih => rw [List.map_cons, join_and_cons, ih, yes_and]

theorem join_and_map_and {ι : Type} (items : List ι) (first second : ι → Truth) :
    join .and (items.map fun item ↦ and (first item) (second item)) =
      and (join .and (items.map first)) (join .and (items.map second)) := by
  induction items with
  | nil => rfl
  | cons item rest ih =>
    simp only [List.map_cons, join_and_cons, ih]
    ac_rfl

/-- Values in a table are joined by AND row by row or column by column. -/
theorem join_and_swap {ι κ : Type} (rows : List ι) (columns : List κ) (value : ι → κ → Truth) :
    join .and (rows.map fun row ↦ join .and (columns.map (value row))) =
      join .and (columns.map fun column ↦ join .and (rows.map fun row ↦ value row column)) := by
  induction rows with
  | nil => exact (join_and_map_yes columns).symm
  | cons row rest ih =>
    calc
      _ = and (join .and (columns.map (value row)))
          (join .and (rest.map fun row ↦ join .and (columns.map (value row)))) := rfl
      _ = and (join .and (columns.map (value row)))
          (join .and (columns.map fun column ↦
            join .and (rest.map fun row ↦ value row column))) := by
        rw [ih]
      _ = _ := (join_and_map_and columns _ _).symm

/-- The value of a group with the given values of its children. -/
def ofGroup (combinator : Combinator) (negated : Bool) (values : List Truth) : Truth :=
  if negated then (join combinator values).not else join combinator values

end Truth

variable {α β : Type}

namespace Condition

mutual

/-- The value of a condition, given the values of the leaves. -/
def evaluate (assignment : α → Truth) : Condition α → Truth
  | .leaf test => assignment test
  | .group combinator negated children =>
    Truth.ofGroup combinator negated (evaluateAll assignment children)

def evaluateAll (assignment : α → Truth) : List (Condition α) → List Truth
  | [] => []
  | child :: rest => child.evaluate assignment :: evaluateAll assignment rest

end

@[simp]
theorem evaluateAll_eq (assignment : α → Truth) (children : List (Condition α)) :
    evaluateAll assignment children = children.map (evaluate assignment) := by
  induction children with
  | nil => rfl
  | cons child rest ih => rw [evaluateAll, ih, List.map_cons]

@[simp]
theorem evaluate_leaf (assignment : α → Truth) (test : α) :
    (leaf test).evaluate assignment = assignment test := rfl

@[simp]
theorem evaluate_group (assignment : α → Truth) (combinator : Combinator) (negated : Bool)
    (children : List (Condition α)) :
    (group combinator negated children).evaluate assignment =
      Truth.ofGroup combinator negated (children.map (evaluate assignment)) := by
  rw [evaluate, evaluateAll_eq]

end Condition

def Group.evaluate (assignment : α → Truth) (group : Group α) : Truth :=
  group.toCondition.evaluate assignment

end StagedQuery
