import StagedQuery.Proofs.Binary64.Whole
import StagedQuery.Proofs.Predicate.Tests

/-!
# Integers in Conditions

An integer that is sent for a numeric field is written without quotes, as the integer that the plain
form of its nearest double shows.  Up to `2 ^ 53` on either side of zero this is the integer that
was sent, so that different integers make different conditions.  A larger integer may be written
with other last digits, and then shares its condition with another integer.
-/

namespace StagedQuery

open Sql (Test Operand)
open Binary64 (nearestToInt)

/-! ## What is sent -/

/-- The value sends the given ones to an operator: one value, the two bounds of a range, or the
items of a list, where a number may also stand for the list without other items. -/
inductive Operator.Takes (operator : Operator) : Json → List Json → Prop
  | scalar (value : Json) (arity_eq : operator.arity = .scalar) : Takes operator value [value]
  | range (low high : Json) (arity_eq : operator.arity = .range) :
      Takes operator (.array [low, high]) [low, high]
  | list (items : List Json) (nonempty : items ≠ []) (arity_eq : operator.arity = .list) :
      Takes operator (.array items) items
  | item (number : Json.Number) (arity_eq : operator.arity = .list) :
      Takes operator (.number number) [.number number]

theorem Predicate.listOperands_eq_ok {operator : Operator} {value : Json} {items : List Scalar}
    (h : listItems operator value = .ok items) (hnonempty : items ≠ []) :
    listOperands operator value = .ok items := by
  rw [listOperands, h]
  exact if_neg hnonempty

namespace Operator.Takes

variable {operator : Operator} {value : Json} {values : List Json} {scalars : List Scalar}

theorem exists_scalar (h : [value].map Scalar.ofJson? = scalars.map some) :
    ∃ scalar, Scalar.ofJson? value = some scalar ∧ scalars = [scalar] := by
  cases scalars with
  | nil => cases h
  | cons scalar rest =>
    obtain ⟨hscalar, hrest⟩ := List.cons.inj h
    obtain rfl := List.map_eq_nil_iff.1 hrest.symm
    exact ⟨scalar, hscalar, rfl⟩

theorem ofJson_eq (h : operator.Takes value values)
    (hscalars : values.map Scalar.ofJson? = scalars.map some) :
    ∃ operands, Operands.ofJson operator value = .ok operands ∧ operands.scalars = scalars := by
  cases h with
  | scalar _ arity_eq =>
    obtain ⟨scalar, hscalar, rfl⟩ := exists_scalar hscalars
    refine ⟨.scalar scalar, ?_, rfl⟩
    rw [Operands.ofJson, arity_eq, Predicate.scalarOperand_eq_ok operator hscalar]
    rfl
  | range low high arity_eq =>
    cases scalars with
    | nil => cases hscalars
    | cons first rest =>
      obtain ⟨hlow, hrest⟩ := List.cons.inj hscalars
      obtain ⟨second, hhigh, rfl⟩ := exists_scalar hrest
      refine ⟨.range first second, ?_, rfl⟩
      rw [Operands.ofJson, arity_eq, Predicate.rangeOperands, hlow, hhigh]
      rfl
  | list items nonempty arity_eq =>
    have hnonempty : scalars ≠ [] := by
      rintro rfl
      exact nonempty (List.map_eq_nil_iff.1 hscalars)
    refine ⟨.list scalars, ?_, rfl⟩
    rw [Operands.ofJson, arity_eq,
      Predicate.listOperands_eq_ok (Predicate.listItems_array operator hscalars) hnonempty]
    rfl
  | item number arity_eq =>
    obtain ⟨scalar, hscalar, rfl⟩ := exists_scalar hscalars
    have hitems : Predicate.listItems operator (.number number) = .ok [scalar] := by
      simp only [Predicate.listItems, hscalar, Option.toList_some]
    refine ⟨.list [scalar], ?_, rfl⟩
    rw [Operands.ofJson, arity_eq, Predicate.listOperands_eq_ok hitems (List.cons_ne_nil _ _)]
    rfl

/-- Behind the reference of the field stands a test with an operand for each value that is sent. -/
theorem exists_test {rule : Rule} (hoperator : rule.operator = operator.name)
    (h : operator.Takes rule.value values)
    (hscalars : values.map Scalar.ofJson? = scalars.map some) (reference : String)
    (type : FieldType) :
    ∃ test, rule.fragment reference type = .ok (reference ++ test) ∧
      Test.ofText? test = some ⟨operator.keyword, scalars.map (operator.operand type)⟩ := by
  obtain ⟨operands, hoperands, rfl⟩ := h.ofJson_eq hscalars
  obtain ⟨predicate, rfl, hread, hpredicate⟩ :=
    Operands.exists_predicate (Operands.arity_of_ofJson hoperands)
  have hname : Operator.ofName? rule.operator = some predicate.operator := by
    rw [hoperator, ofName?_name]
  have hnonempty := Operands.scalars_ne_nil_of_ofJson hoperands
  rw [← hread] at hnonempty ⊢
  refine ⟨predicate.fragment "" type, ?_, Predicate.ofText?_fragment hnonempty type⟩
  rw [Rule.fragment_eq_map_ofJson hname, hoperands, ← predicate.fragment_eq_append, ← hpredicate]
  rfl

end Operator.Takes

/-! ## What is shown -/

/-- An operand shows an integer, if one was sent: it has no quotes, it is an integer with the same
nearest double, and up to `2 ^ 53` on either side of zero it is the integer itself. -/
def Shows (sent : Json) (operand : Operand) : Prop :=
  ∀ value fits, sent = .number (.integer value fits) → ∃ shown : Int,
    operand = .bare (toString shown) ∧ nearestToInt shown = nearestToInt value ∧
    (value.natAbs ≤ 2 ^ 53 → shown = value)

/-- Two values, if both are integers, are integers with the same nearest double, and up to `2 ^ 53`
on either side of zero they are the same integer. -/
def Agrees (first second : Json) : Prop :=
  ∀ value fits other otherFits, first = .number (.integer value fits) →
    second = .number (.integer other otherFits) → nearestToInt value = nearestToInt other ∧
    (value.natAbs ≤ 2 ^ 53 → other.natAbs ≤ 2 ^ 53 → value = other)

theorem shows_operand {sent : Json} {scalar : Scalar} (h : Scalar.ofJson? sent = some scalar) :
    Shows sent (scalar.operand .number) := by
  rintro value fits rfl
  obtain rfl := Option.some.inj h
  obtain ⟨shown, hplain, hnearest, hexact⟩ := Json.Number.exists_plain_eq fits
  exact ⟨shown, congrArg Operand.bare hplain, hnearest, hexact⟩

theorem agrees_of_shows {first second : Json} {operand : Operand} (hfirst : Shows first operand)
    (hsecond : Shows second operand) : Agrees first second := by
  intro value fits other otherFits hvalue hother
  obtain ⟨shown, rfl, hnearest, hexact⟩ := hfirst value fits hvalue
  obtain ⟨otherShown, hsame, hotherNearest, hotherExact⟩ := hsecond other otherFits hother
  obtain rfl := Json.Number.eq_of_toString_int_eq (Operand.bare.inj hsame)
  exact ⟨hnearest.symm.trans hotherNearest,
    fun hle hotherLe ↦ (hexact hle).symm.trans (hotherExact hotherLe)⟩

/-- Single values are read one by one. -/
theorem exists_scalars {values : List Json} (h : ∀ item ∈ values, (Scalar.ofJson? item).isSome) :
    ∃ scalars : List Scalar, values.map Scalar.ofJson? = scalars.map some := by
  induction values with
  | nil => exact ⟨[], rfl⟩
  | cons item rest ih =>
    obtain ⟨hitem, hrest⟩ := List.forall_mem_cons.1 h
    obtain ⟨scalar, hscalar⟩ := Option.isSome_iff_exists.1 hitem
    obtain ⟨scalars, hscalars⟩ := ih hrest
    exact ⟨scalar :: scalars, by rw [List.map_cons, List.map_cons, hscalar, hscalars]⟩

theorem forall₂_shows {values : List Json} {scalars : List Scalar}
    (h : values.map Scalar.ofJson? = scalars.map some) :
    List.Forall₂ Shows values (scalars.map fun scalar ↦ scalar.operand .number) := by
  induction values generalizing scalars with
  | nil =>
    obtain rfl := List.map_eq_nil_iff.1 h.symm
    exact .nil
  | cons item rest ih =>
    cases scalars with
    | nil => cases h
    | cons scalar scalars =>
      obtain ⟨hitem, hrest⟩ := List.cons.inj h
      exact .cons (shows_operand hitem) (ih hrest)

theorem forall₂_agrees {values others : List Json} {operands : List Operand}
    (hvalues : List.Forall₂ Shows values operands) (hothers : List.Forall₂ Shows others operands) :
    List.Forall₂ Agrees values others := by
  induction hvalues generalizing others with
  | nil =>
    cases hothers
    exact .nil
  | cons hitem hrest ih =>
    cases hothers with
    | cons hotherItem hotherRest =>
      exact .cons (agrees_of_shows hitem hotherItem) (ih hotherRest)

/-! ## Operators of numeric fields -/

namespace Operator

/-- An operator of numeric fields writes its operands as literals. -/
theorem operand_eq_of_mem {operator : Operator} (h : operator ∈ FieldType.number.operators) :
    operator.operand .number = fun scalar ↦ scalar.operand .number := by
  simp only [FieldType.operators, List.mem_cons, List.not_mem_nil, or_false] at h
  rcases h with rfl | rfl | rfl | rfl | rfl | rfl | rfl | rfl | rfl | rfl | rfl | rfl <;> rfl

theorem eq_of_keyword_eq {operator other : Operator}
    (h : operator ∈ FieldType.number.operators) (hother : other ∈ FieldType.number.operators)
    (hkeyword : operator.keyword = other.keyword) : operator = other := by
  have hall : ∀ operator ∈ FieldType.number.operators, ∀ other ∈ FieldType.number.operators,
      operator.keyword = other.keyword → operator = other := by
    decide +kernel
  exact hall operator h other hother hkeyword

end Operator

/-- With an operator of numeric fields and single values that include integers, a rule on a numeric
field states a test that shows the integers.  Two rules that state the same have the same operator
and agree on the integers that they send. -/
theorem Rule.shows_integers {rule : Rule} {operator : Operator} {values : List Json}
    (hoperator : rule.operator = operator.name) (hnumeric : operator ∈ FieldType.number.operators)
    (htakes : operator.Takes rule.value values)
    (hscalars : ∀ item ∈ values, (Scalar.ofJson? item).isSome) (reference : String) :
    (∃ test operands, rule.fragment reference .number = .ok (reference ++ test) ∧
      Test.ofText? test = some ⟨operator.keyword, operands⟩ ∧
      List.Forall₂ Shows values operands) ∧
    ∀ (other : Rule) (otherOperator : Operator) (others : List Json),
      other.operator = otherOperator.name → otherOperator ∈ FieldType.number.operators →
      otherOperator.Takes other.value others →
      (∀ item ∈ others, (Scalar.ofJson? item).isSome) →
      other.fragment reference .number = rule.fragment reference .number →
      otherOperator = operator ∧ List.Forall₂ Agrees values others := by
  have hread {rule : Rule} {operator : Operator} {values : List Json}
      (hoperator : rule.operator = operator.name)
      (hnumeric : operator ∈ FieldType.number.operators)
      (htakes : operator.Takes rule.value values)
      (hscalars : ∀ item ∈ values, (Scalar.ofJson? item).isSome) :
      ∃ test operands, rule.fragment reference .number = .ok (reference ++ test) ∧
        Test.ofText? test = some ⟨operator.keyword, operands⟩ ∧
        List.Forall₂ Shows values operands := by
    obtain ⟨scalars, hmap⟩ := exists_scalars hscalars
    obtain ⟨test, hfragment, htest⟩ := htakes.exists_test hoperator hmap reference .number
    rw [Operator.operand_eq_of_mem hnumeric] at htest
    exact ⟨test, _, hfragment, htest, forall₂_shows hmap⟩
  refine ⟨hread hoperator hnumeric htakes hscalars, ?_⟩
  intro other otherOperator others hother hotherNumeric hotherTakes hotherScalars hsame
  obtain ⟨test, operands, hfragment, htest, hshows⟩ := hread hoperator hnumeric htakes hscalars
  obtain ⟨otherTest, otherOperands, hotherFragment, hotherTest, hotherShows⟩ :=
    hread hother hotherNumeric hotherTakes hotherScalars
  rw [hfragment, hotherFragment] at hsame
  obtain rfl := (String.append_right_inj _).1 (Except.ok.inj hsame)
  rw [htest] at hotherTest
  obtain ⟨hkeyword, rfl⟩ := Test.mk.inj (Option.some.inj hotherTest)
  exact ⟨Operator.eq_of_keyword_eq hotherNumeric hnumeric hkeyword.symm,
    forall₂_agrees hshows hotherShows⟩

theorem Rule.shows_integers_bounds :
    let low : Json := .number (.integer (-9007199254740992) (by decide))
    let high : Json := .number (.integer 18446744073709551615 (by decide))
    let near : Json := .number (.integer 18446744073709551614 (by decide))
    let test := " NOT BETWEEN -9007199254740992 AND 18446744073709552000"
    Rule.fragment ⟨"cited_id", "notBetween", .array [low, high]⟩ "pp.cited_id" .number =
        .ok ("pp.cited_id" ++ test) ∧
      (∃ operands, Test.ofText? test = some ⟨"NOT BETWEEN", operands⟩ ∧
        List.Forall₂ Shows [low, high] operands) ∧
      List.Forall₂ Agrees [low, high] [low, near] := by
  intro low high near test
  have hfragment : Rule.fragment ⟨"cited_id", "notBetween", .array [low, high]⟩ "pp.cited_id"
      .number = .ok ("pp.cited_id" ++ test) := by
    decide +kernel
  have hnear : Rule.fragment ⟨"cited_id", "notBetween", .array [low, near]⟩ "pp.cited_id"
      .number = .ok ("pp.cited_id" ++ test) := by
    decide +kernel
  have htakes : (Operator.between true).Takes (.array [low, high]) [low, high] :=
    .range low high rfl
  obtain ⟨⟨read, operands, hread, htest, hshows⟩, hagrees⟩ :=
    @Rule.shows_integers ⟨"cited_id", "notBetween", .array [low, high]⟩ (.between true) _ rfl
      (by decide) htakes (by decide) "pp.cited_id"
  rw [hfragment] at hread
  obtain rfl := (String.append_right_inj _).1 (Except.ok.inj hread)
  obtain ⟨-, hforall⟩ := hagrees ⟨"cited_id", "notBetween", .array [low, near]⟩ (.between true)
    [low, near] rfl (by decide) (.range low near rfl) (by decide) (hnear.trans hfragment.symm)
  exact ⟨hfragment, ⟨operands, htest, hshows⟩, hforall⟩

/-- Two identifiers that share a condition. -/
theorem Rule.not_shows_integers :
    Rule.fragment ⟨"cited_id", "=", .number (.integer 9007199254740993 (by decide))⟩
        "pp.cited_id" .number = .ok "pp.cited_id = 9007199254740992" ∧
      Rule.fragment ⟨"cited_id", "=", .number (.integer 9007199254740992 (by decide))⟩
        "pp.cited_id" .number = .ok "pp.cited_id = 9007199254740992" := by
  decide +kernel

end StagedQuery
