import StagedQuery.Filters
import StagedQuery.Proofs.FirstFault

/-!
# Shapes of Operands

The value of a rule is read in the shape that the arity of its operator asks for, and only then put
behind the operator.  An operator could stand before operands of any shape, and before a shape that
it does not take it would restrict nothing.  Operands that are read always have the right shape, so
that every value that can be read makes a condition that begins with the reference of the field.
-/

namespace StagedQuery

/-- Operands in one of the shapes in which a value can be read. -/
inductive Operands where
  | none
  | scalar (operand : Scalar)
  | range (low high : Scalar)
  | list (items : List Scalar)

namespace Operands

def arity : Operands → Arity
  | .none => .none
  | .scalar _ => .scalar
  | .range _ _ => .range
  | .list _ => .list

/-- The single values, in the order in which they are written. -/
def scalars : Operands → List Scalar
  | .none => []
  | .scalar operand => [operand]
  | .range low high => [low, high]
  | .list items => items

/-- Reads a value in the shape that an operator asks for. -/
def ofJson (operator : Operator) (value : Json) : Except RuleFault Operands :=
  match operator.arity with
  | .none => .ok .none
  | .scalar => (Predicate.scalarOperand operator value).map .scalar
  | .range => (Predicate.rangeOperands operator value).map fun (low, high) ↦ .range low high
  | .list => (Predicate.listOperands operator value).map .list

/-- What an operator states with operands of any shape.  Null checks ignore the operands; any other
operator restricts nothing if the shape is not its own. -/
def fragment (operator : Operator) (operands : Operands) (reference : String) (type : FieldType) :
    String :=
  match operator, operands with
  | .compare comparison, .scalar operand =>
    (Predicate.compare comparison operand).fragment reference type
  | .like textMatch, .scalar operand => (Predicate.like textMatch operand).fragment reference type
  | .between negated, .range low high =>
    (Predicate.between negated low high).fragment reference type
  | .member negated, .list items => (Predicate.member negated items).fragment reference type
  | .null negated, _ => (Predicate.null negated).fragment reference type
  | _, _ => unrestricted

variable {operator : Operator} {operands : Operands} {value : Json}

theorem arity_of_ofJson (h : ofJson operator value = .ok operands) :
    operands.arity = operator.arity := by
  unfold ofJson at h
  split at h
  · next harity =>
    cases h
    exact harity.symm
  · next harity =>
    obtain ⟨operand, -, rfl⟩ := map_eq_ok_iff.1 h
    exact harity.symm
  · next harity =>
    obtain ⟨⟨low, high⟩, -, rfl⟩ := map_eq_ok_iff.1 h
    exact harity.symm
  · next harity =>
    obtain ⟨items, -, rfl⟩ := map_eq_ok_iff.1 h
    exact harity.symm

/-- Only an operator that takes no operands has none. -/
theorem scalars_ne_nil_of_ofJson (h : ofJson operator value = .ok operands)
    (harity : operator.arity ≠ .none) : operands.scalars ≠ [] := by
  unfold ofJson at h
  split at h
  · next hnone => exact absurd hnone harity
  · obtain ⟨operand, -, rfl⟩ := map_eq_ok_iff.1 h
    exact List.cons_ne_nil _ _
  · obtain ⟨⟨low, high⟩, -, rfl⟩ := map_eq_ok_iff.1 h
    exact List.cons_ne_nil _ _
  · obtain ⟨items, hitems, rfl⟩ := map_eq_ok_iff.1 h
    obtain ⟨read, -, hread⟩ := bind_eq_ok_iff.1 hitems
    split at hread
    · cases hread
    · next hnonempty =>
      cases hread
      exact hnonempty

/-- An operator with operands of its own shape states a predicate on them. -/
theorem exists_predicate (h : operands.arity = operator.arity) : ∃ predicate : Predicate,
    predicate.operator = operator ∧ predicate.operands = operands.scalars ∧ ∀ reference type,
      operands.fragment operator reference type = predicate.fragment reference type := by
  cases operator with
  | compare comparison =>
    cases operands with
    | scalar operand => exact ⟨.compare comparison operand, rfl, rfl, fun _ _ ↦ rfl⟩
    | _ => cases h
  | like textMatch =>
    cases operands with
    | scalar operand => exact ⟨.like textMatch operand, rfl, rfl, fun _ _ ↦ rfl⟩
    | _ => cases h
  | between negated =>
    cases operands with
    | range low high => exact ⟨.between negated low high, rfl, rfl, fun _ _ ↦ rfl⟩
    | _ => cases h
  | member negated =>
    cases operands with
    | list items => exact ⟨.member negated items, rfl, rfl, fun _ _ ↦ rfl⟩
    | _ => cases h
  | null negated =>
    cases operands with
    | none => exact ⟨.null negated, rfl, rfl, fun _ _ ↦ rfl⟩
    | _ => cases h

/-- Reading the operands and then writing them states what the predicate of the value states. -/
theorem map_fragment_ofJson (operator : Operator) (value : Json) (reference : String)
    (type : FieldType) :
    ((ofJson operator value).map fun operands ↦ operands.fragment operator reference type) =
      (Predicate.ofJson operator value).map fun predicate ↦ predicate.fragment reference type := by
  cases operator with
  | compare comparison =>
    simp only [ofJson, Operator.arity, Predicate.ofJson]
    cases Predicate.scalarOperand (.compare comparison) value <;> rfl
  | like textMatch =>
    simp only [ofJson, Operator.arity, Predicate.ofJson]
    cases Predicate.scalarOperand (.like textMatch) value <;> rfl
  | between negated =>
    simp only [ofJson, Operator.arity, Predicate.ofJson]
    cases Predicate.rangeOperands (.between negated) value <;> rfl
  | member negated =>
    simp only [ofJson, Operator.arity, Predicate.ofJson]
    cases Predicate.listOperands (.member negated) value <;> rfl
  | null negated => rfl

end Operands

theorem Predicate.scalarOperand_eq_ok (operator : Operator) {value : Json} {scalar : Scalar}
    (h : Scalar.ofJson? value = some scalar) : scalarOperand operator value = .ok scalar := by
  cases value with
  | null => cases h
  | _ => simp only [scalarOperand, h]

/-- An array of single values is read item by item. -/
theorem Predicate.listItems_array (operator : Operator) {items : List Json}
    {scalars : List Scalar} (h : items.map Scalar.ofJson? = scalars.map some) :
    listItems operator (.array items) = .ok scalars := by
  rw [listItems]
  induction items generalizing scalars with
  | nil =>
    obtain rfl := List.map_eq_nil_iff.1 h.symm
    rfl
  | cons item rest ih =>
    cases scalars with
    | nil => cases h
    | cons scalar scalars =>
      obtain ⟨hitem, hrest⟩ := List.cons.inj h
      rw [List.mapM_cons, hitem, ih hrest]
      rfl

theorem Rule.fragment_eq_map_ofJson {rule : Rule} {operator : Operator}
    (h : Operator.ofName? rule.operator = some operator) (reference : String) (type : FieldType) :
    rule.fragment reference type = (Operands.ofJson operator rule.value).map fun operands ↦
      operands.fragment operator reference type := by
  rw [fragment, predicate, h, Operands.map_fragment_ofJson]

/-- A predicate is written behind the reference and a blank. -/
theorem Predicate.exists_fragment_eq (predicate : Predicate) (reference : String)
    (type : FieldType) : ∃ rest, predicate.fragment reference type = reference ++ " " ++ rest := by
  cases predicate with
  | null negated =>
    have hkeyword : " IS " = " " ++ "IS " := by decide
    rw [fragment, hkeyword]
    exact ⟨"IS " ++ negatable negated "NULL", by simp only [String.append_assoc]⟩
  | _ =>
    simp only [fragment, String.append_assoc]
    exact ⟨_, rfl⟩

end StagedQuery
