import StagedQuery.Proofs.Predicate.Tests
import StagedQuery.Proofs.Sql.Like

/-!
# Text Matches

The operators on texts are written as tests of likeness, with wildcards around the text of the
operand before its quotes are doubled.  If the operand has no wildcard of its own, the test holds
of exactly those texts that the operator is named for; `endsWith` puts no wildcard anywhere, so it
holds of the operand alone.
-/

namespace StagedQuery

open Sql (Piece Test)

/-- What a text match says of a text. -/
def TextMatch.Says (textMatch : TextMatch) (operand text : String) : Prop :=
  match textMatch with
  | .contains => ∃ before after, text = before ++ operand ++ after
  | .doesNotContain => ¬∃ before after, text = before ++ operand ++ after
  | .beginsWith => ∃ after, text = operand ++ after
  | .endsWith => text = operand

/-! ## Patterns of operands -/

namespace Sql

/-- The text has no character that a pattern gives a meaning. -/
def IsLiteral (text : String) : Prop := ∀ c ∈ text.toList, c ∉ Piece.wildcards

instance (text : String) : Decidable (IsLiteral text) :=
  List.decidableBAll _ text.toList

variable {operand text : String}

theorem like_iff_of_isLiteral (h : IsLiteral operand) : like operand text ↔ text = operand := by
  have hpieces := Piece.ofChars_append h []
  rw [List.append_nil] at hpieces
  rw [like, hpieces, Piece.accepts_chars, ← String.toList_inj]
  simp [Piece.ofChars, Piece.accepts_nil]

theorem like_percent_iff (h : IsLiteral operand) :
    like (operand ++ "%") text ↔ ∃ after, text = operand ++ after := by
  have hpieces : Piece.ofChars none (operand ++ "%").toList =
      operand.toList.map .char ++ [.run] := by
    rw [String.toList_append]
    exact Piece.ofChars_append h ['%']
  rw [like, hpieces, Piece.accepts_chars]
  constructor
  · rintro ⟨after, htext, -⟩
    exact ⟨String.ofList after, by rw [← String.toList_inj]; simpa using htext⟩
  · rintro ⟨after, rfl⟩
    exact ⟨after.toList, String.toList_append, Piece.accepts_run_nil⟩

/-- The operand may stand anywhere, so that the first wildcard takes what is before it. -/
theorem like_enclosed_iff (h : IsLiteral operand) :
    like ("%" ++ operand ++ "%") text ↔ ∃ before after, text = before ++ operand ++ after := by
  have hpieces : Piece.ofChars none ("%" ++ operand ++ "%").toList =
      .run :: (operand.toList.map .char ++ [.run]) := by
    rw [String.append_assoc, String.toList_append, String.toList_append]
    exact congrArg (Piece.run :: ·) (Piece.ofChars_append h ['%'])
  rw [like, hpieces, Piece.accepts_run]
  constructor
  · rintro ⟨before, rest, htext, haccepts⟩
    obtain ⟨after, rfl, -⟩ := (Piece.accepts_chars _).1 haccepts
    exact ⟨String.ofList before, String.ofList after, by
      rw [← String.toList_inj]; simpa using htext⟩
  · rintro ⟨before, after, rfl⟩
    refine ⟨before.toList, operand.toList ++ after.toList, by simp, ?_⟩
    exact (Piece.accepts_chars _).2 ⟨after.toList, rfl, Piece.accepts_run_nil⟩

end Sql

namespace TextMatch

/-- The test that a text match is written as. -/
def test (textMatch : TextMatch) (operand : String) : Test :=
  ⟨(Operator.like textMatch).keyword, [.quoted (Predicate.pattern textMatch operand)]⟩

theorem like?_test (textMatch : TextMatch) {operand : String} (h : Sql.IsLiteral operand)
    (text : String) : ∃ holds, (textMatch.test operand).like? text = some holds ∧
      (holds = true ↔ textMatch.Says operand text) := by
  cases textMatch with
  | contains => exact ⟨_, rfl, Sql.like_enclosed_iff h⟩
  | doesNotContain =>
    refine ⟨_, rfl, ?_⟩
    rw [Bool.not_eq_true', Says, ← Sql.like_enclosed_iff h, Bool.not_eq_true]
    rfl
  | beginsWith => exact ⟨_, rfl, Sql.like_percent_iff h⟩
  | endsWith => exact ⟨_, rfl, Sql.like_iff_of_isLiteral h⟩

end TextMatch

/-- A single value behind a text match makes a predicate. -/
theorem Rule.predicate_like (textMatch : TextMatch) {value : Json} {scalar : Scalar}
    (h : Scalar.ofJson? value = some scalar) (field : String) :
    Rule.predicate ⟨field, (Operator.like textMatch).name, value⟩ =
      .ok (.like textMatch scalar) := by
  rw [Rule.predicate, Operator.ofName?_name]
  simp only [Predicate.ofJson, Predicate.scalarOperand_eq_ok _ h]
  rfl

/-- A rule with a text match is a test behind the reference of its field.  If the text of its value
has no wildcard, the test holds of a text exactly if the text match says so. -/
theorem Rule.like_of_isLiteral (textMatch : TextMatch) {value : Json} {scalar : Scalar}
    (hvalue : Scalar.ofJson? value = some scalar) (hliteral : Sql.IsLiteral scalar.display)
    (field reference : String) (type : FieldType) (text : String) :
    ∃ rest test holds,
      Rule.fragment ⟨field, textMatch.name, value⟩ reference type = .ok (reference ++ rest) ∧
        Test.ofText? rest = some test ∧ test.like? text = some holds ∧
        (holds = true ↔ textMatch.Says scalar.display text) := by
  let predicate := Predicate.like textMatch scalar
  have hfragment : Rule.fragment ⟨field, textMatch.name, value⟩ reference type =
      .ok (reference ++ predicate.fragment "" type) := by
    have hpredicate := Rule.predicate_like textMatch hvalue field
    rw [Operator.name] at hpredicate
    rw [Rule.fragment, hpredicate, ← Predicate.fragment_eq_append]
    rfl
  have htest : Test.ofText? (predicate.fragment "" type) =
      some (textMatch.test scalar.display) := by
    have hoperands : predicate.operator.arity ≠ .none → predicate.operands ≠ [] :=
      fun _ ↦ List.cons_ne_nil scalar []
    rw [Predicate.ofText?_fragment hoperands type]
    cases textMatch <;> rfl
  obtain ⟨holds, hholds, hiff⟩ := textMatch.like?_test hliteral text
  exact ⟨_, _, holds, hfragment, htest, hholds, hiff⟩

theorem Rule.like_of_isLiteral_quotes :
    Scalar.ofJson? (.string "d'A") = some (.text "d'A") ∧ Sql.IsLiteral "d'A" ∧
      ∃ rest test,
        Rule.fragment ⟨"cited_title", "contains", .string "d'A"⟩ "pp.cited_title" .text =
            .ok ("pp.cited_title" ++ rest) ∧
          Test.ofText? rest = some test ∧ test.like? "L'etat d'Ancy" = some true := by
  have hvalue : Scalar.ofJson? (.string "d'A") = some (.text "d'A") := rfl
  have hliteral : Sql.IsLiteral "d'A" := by decide
  obtain ⟨rest, test, holds, hfragment, htest, hholds, hiff⟩ :=
    Rule.like_of_isLiteral .contains hvalue hliteral "cited_title" "pp.cited_title" .text
      "L'etat d'Ancy"
  have hsays : TextMatch.contains.Says "d'A" "L'etat d'Ancy" := ⟨"L'etat ", "ncy", rfl⟩
  obtain rfl := hiff.2 hsays
  exact ⟨hvalue, hliteral, rest, test, hfragment, htest, hholds⟩

end StagedQuery
