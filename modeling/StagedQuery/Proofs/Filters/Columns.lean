import StagedQuery.Proofs.Filters.Splitting
import StagedQuery.Proofs.Sql.Column

/-!
# Columns in Clauses

The operands of a predicate are literals and numbers, so its fragment names the columns that the
reference of its field names, and no others.  A clause names the columns of its fragments.
-/

namespace StagedQuery

open Sql (Token ColumnUse IsGap Names Passes)
open Sql.Token (space spaced spacedNegatable)

/-! ## Fragments -/

namespace Scalar

theorem names_token (scalar : Scalar) (type : FieldType) : Names [scalar.token type] [] := by
  unfold token
  split <;> rfl

theorem names_items (items : List Scalar) (type : FieldType) :
    Names ([.symbol ',', space].intercalate (items.map fun item ↦ [item.token type])) [] := by
  have hgap : IsGap [.symbol ',', space] := by decide
  have hitems := Names.intercalate hgap (Sql.forall₂_map fun item (_ : item ∈ items) ↦
    item.names_token type)
  rwa [List.flatten_eq_nil_iff.2 (by simp)] at hitems

end Scalar

namespace Predicate

theorem isGap_negatable (negated : Bool) {keyword : String}
    (hkeyword : keyword ∈ ["LIKE", "BETWEEN", "IN"]) : IsGap (spacedNegatable negated keyword) := by
  revert negated
  simp only [List.mem_cons, List.not_mem_nil, or_false] at hkeyword
  rcases hkeyword with rfl | rfl | rfl <;> decide

/-- The fragment of a predicate names the columns that the reference names. -/
theorem names_tokens (predicate : Predicate) {reference : List Token} {uses : List ColumnUse}
    (hreference : Names reference uses) (type : FieldType) :
    Names (predicate.tokens reference type) uses := by
  rw [← List.append_nil uses]
  cases predicate with
  | compare comparison operand =>
    have hsign : IsGap (space :: comparison.sign.toList.map .symbol ++ [space]) := by
      cases comparison <;> decide
    exact hreference.glue hsign (operand.names_token type)
  | like textMatch operand =>
    have hkeyword := isGap_negatable (textMatch = .doesNotContain)
      (List.mem_cons_self : "LIKE" ∈ ["LIKE", "BETWEEN", "IN"])
    exact hreference.glue hkeyword rfl
  | between negated low high =>
    have hkeyword := isGap_negatable negated (by decide : "BETWEEN" ∈ ["LIKE", "BETWEEN", "IN"])
    have hand : IsGap (spaced "AND") := by decide
    have hlow := hreference.glue hkeyword (low.names_token type)
    rw [List.append_nil] at hlow
    exact hlow.glue hand (high.names_token type)
  | member negated items =>
    have hkeyword := isGap_negatable negated (by decide : "IN" ∈ ["LIKE", "BETWEEN", "IN"])
    have hitems := (Scalar.names_items items type).parenthesized.names
    have hfragment := hreference.glue hkeyword hitems
    simpa [tokens, Token.parenthesized] using hfragment
  | null negated =>
    have his : IsGap (spaced "IS") := by decide
    have hnull : Names (if negated then [.word "NOT".toList, space, .word "NULL".toList]
        else [.word "NULL".toList]) [] := by
      revert negated
      decide
    exact hreference.glue his hnull

end Predicate

/-! ## References -/

namespace Field

/-- The columns that the reference of a field names. -/
def columnUses (field : Field) : List ColumnUse :=
  (Sql.columns? field.reference).getD []

theorem names_referenceTokens : ∀ field ∈ Catalog.fields,
    Names field.referenceTokens field.columnUses := by
  decide +kernel

end Field

namespace FieldPredicate

theorem names_tokens (test : FieldPredicate) : Names test.tokens test.field.columnUses :=
  test.predicate.names_tokens (Field.names_referenceTokens _ test.known) test.field.type

theorem columns?_text (test : FieldPredicate) :
    Sql.columns? test.text = some test.field.columnUses :=
  test.names_tokens.columns? test.lexes_text

end FieldPredicate

/-! ## Conditions -/

variable {α : Type} {uses : α → List ColumnUse} {tokens : α → List Token}

namespace Condition

theorem names_joinTokens (combinator : Combinator) (negated : Bool)
    {tokenLists : List (List Token)} {usesLists : List (List ColumnUse)}
    (h : List.Forall₂ Names tokenLists usesLists) :
    Names (joinTokens combinator negated tokenLists) usesLists.flatten := by
  have hkeyword : IsGap (spaced combinator.keyword) := by cases combinator <;> decide
  have hjoined := Names.intercalate hkeyword h
  cases negated with
  | false => exact hjoined
  | true =>
    have hnot : Passes [.word "NOT".toList, space] [] := by decide
    exact hnot.append_names hjoined.parenthesized.names

theorem names_childTokens (h : ∀ test, Names (tokens test) (uses test))
    (condition : Condition α) :
    Names (condition.childTokens tokens) (condition.leaves.flatMap uses) := by
  induction condition with
  | leaf test => simpa [childTokens] using h test
  | group combinator negated children ih =>
    have hchildren := names_joinTokens combinator negated (Sql.forall₂_map ih)
    rw [childTokens_group, leaves_group, List.flatMap_assoc]
    exact hchildren.parenthesized.names

end Condition

namespace Group

theorem names_tokens (h : ∀ test, Names (tokens test) (uses test)) (group : Group α) :
    Names (group.tokens tokens) (group.leaves.flatMap uses) := by
  have hchildren := Condition.names_joinTokens group.combinator group.negated
    (Sql.forall₂_map fun child (_ : child ∈ group.children) ↦ child.names_childTokens h)
  rw [leaves_eq, toCondition, Condition.leaves_group, List.flatMap_assoc]
  exact hchildren

end Group

/-! ## Clauses -/

/-- The clause of a stage names the columns of the predicates that belong to the stage. -/
theorem Filters.columns?_clause {tree : Group Rule} {stage : Stage} {clause : String}
    (h : (ofTree tree).clause? stage = some clause) :
    Sql.columns? clause =
      some ((tree.effectiveLeaves.filter fun test ↦ test.field.stage = stage).flatMap
        fun test ↦ test.field.columnUses) := by
  rw [clause?_ofTree, Option.map_eq_some_iff] at h
  obtain ⟨pruned, hstage, rfl⟩ := h
  have hleaves : pruned.leaves =
      tree.effectiveLeaves.filter fun test ↦ test.field.stage = stage := by
    rw [Group.leaves_of_atStage? hstage, Group.effectiveLeaves, List.filter_filterMap]
    rfl
  rw [← hleaves]
  exact (pruned.names_tokens FieldPredicate.names_tokens).columns?
    (pruned.lexes_text FieldPredicate.lexes_text)

end StagedQuery
