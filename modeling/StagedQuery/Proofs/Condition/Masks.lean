import StagedQuery.Proofs.Condition.Text
import StagedQuery.Proofs.Sql.Masking

/-!
# Masked Conditions

Whatever holds of the tokens of all leaves, and of all tokens that are put together as conditions
are, holds of the tokens of a condition.  Masking these amounts to masking those of the leaves.
-/

namespace StagedQuery

open Sql (Token Composes)
open Sql.Token (space spaced parenthesized)

variable {α β : Type} {property : List Token → Prop}

namespace Condition

theorem composed_joinTokens (hproperty : Composes property) (combinator : Combinator)
    (negated : Bool) {tokenLists : List (List Token)} (h : ∀ tokens ∈ tokenLists, property tokens) :
    property (joinTokens combinator negated tokenLists) := by
  have hkeyword : property (spaced combinator.keyword) :=
    hproperty.of_connectives (by cases combinator <;> decide)
  have hjoined := hproperty.intercalate hkeyword h
  cases negated with
  | false => exact hjoined
  | true =>
    have hnot : property [.word "NOT".toList, space] := hproperty.of_connectives (by decide)
    exact hproperty.append hnot (hproperty.parenthesized hjoined)

theorem composed_childTokens (hproperty : Composes property) {tokens : α → List Token}
    (h : ∀ test, property (tokens test)) (condition : Condition α) :
    property (condition.childTokens tokens) := by
  induction condition with
  | leaf test => exact h test
  | group combinator negated children ih =>
    rw [childTokens_group]
    apply hproperty.parenthesized
    apply composed_joinTokens hproperty
    intro childTokens hchild
    obtain ⟨child, hmem, rfl⟩ := List.mem_map.1 hchild
    exact ih child hmem

theorem map_mask_joinTokens (combinator : Combinator) (negated : Bool)
    (tokenLists : List (List Token)) :
    (joinTokens combinator negated tokenLists).map Token.mask =
      joinTokens combinator negated (tokenLists.map (List.map Token.mask)) := by
  have hkeyword : (spaced combinator.keyword).map Token.mask = spaced combinator.keyword := by
    cases combinator <;> decide
  have hjoined := Sql.map_intercalate Token.mask (spaced combinator.keyword) tokenLists
  rw [hkeyword] at hjoined
  cases negated with
  | false => exact hjoined
  | true => simp [joinTokens, parenthesized, hjoined, Token.mask, space]

/-- Masking the tokens of a condition amounts to replacing the leaves by their masked tokens. -/
theorem map_mask_childTokens (tokens : α → List Token) (condition : Condition α) :
    (condition.childTokens tokens).map Token.mask =
      (condition.map fun test ↦ (tokens test).map Token.mask).childTokens id := by
  induction condition with
  | leaf test => rfl
  | group combinator negated children ih =>
    have hchildren : (children.map (childTokens tokens)).map (List.map Token.mask) =
        (children.map (map fun test ↦ (tokens test).map Token.mask)).map (childTokens id) := by
      rw [List.map_map, List.map_map]
      exact List.map_congr_left ih
    calc
      _ = parenthesized ((joinTokens combinator negated
          (children.map (childTokens tokens))).map Token.mask) := by
        rw [childTokens_group]
        simp [parenthesized, Token.mask]
      _ = parenthesized (joinTokens combinator negated ((children.map
          (map fun test ↦ (tokens test).map Token.mask)).map (childTokens id))) := by
        rw [map_mask_joinTokens, hchildren]
      _ = _ := by rw [map_group, childTokens_group]

end Condition

namespace Group

theorem composed_tokens (hproperty : Composes property) {leafTokens : α → List Token}
    (h : ∀ test, property (leafTokens test)) (group : Group α) :
    property (group.tokens leafTokens) := by
  apply Condition.composed_joinTokens hproperty
  intro childTokens hchild
  obtain ⟨child, -, rfl⟩ := List.mem_map.1 hchild
  exact Condition.composed_childTokens hproperty h child

theorem map_mask_tokens (leafTokens : α → List Token) (group : Group α) :
    (group.tokens leafTokens).map Token.mask =
      (group.map fun test ↦ (leafTokens test).map Token.mask).tokens id := by
  rw [tokens, Condition.map_mask_joinTokens, tokens, map, List.map_map, List.map_map]
  congr 1
  apply List.map_congr_left
  intro child _
  exact Condition.map_mask_childTokens leafTokens child

end Group

end StagedQuery
