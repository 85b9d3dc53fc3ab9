import StagedQuery.Proofs.Predicate.Atoms

/-!
# Masked Fragments

Every operand of a fragment is one token that masking makes the same, so a masked fragment only
depends on the operator and the number of operands.  What else stands in a fragment are the fixed
signs and keywords of its operator, so a property that tokens keep when they are composed goes over
to fragments.  In particular fragments are quiet: what could end a statement or close a parenthesis
is inside literals.
-/

namespace StagedQuery

open Sql (Token Quiet Composes)
open Sql.Token (space spaced spacedNegatable parenthesized)

namespace Scalar

@[simp]
theorem mask_token (scalar : Scalar) (type : FieldType) :
    (scalar.token type).mask = .literal [] := by
  unfold token
  split <;> rfl

theorem composed_token {property : List Token → Prop} (h : Composes property) (scalar : Scalar)
    (type : FieldType) : property [scalar.token type] := by
  apply h.connective
  rw [mask_token]
  decide

theorem mask_items (items : List Scalar) (type : FieldType) :
    (items.map fun item ↦ [item.token type]).map (List.map Token.mask) =
      List.replicate items.length [.literal []] := by
  rw [List.map_map, List.eq_replicate_iff]
  constructor
  · rw [List.length_map]
  · intro tokens htokens
    obtain ⟨item, -, rfl⟩ := List.mem_map.1 htokens
    simp

end Scalar

namespace Predicate

/-- Fragments of the same operator with as many operands have the same masked tokens. -/
theorem map_mask_tokens {first second : Predicate} (hoperator : first.operator = second.operator)
    (hlength : first.operands.length = second.operands.length) (reference : List Token)
    (type : FieldType) : (first.tokens reference type).map Token.mask =
      (second.tokens reference type).map Token.mask := by
  cases first <;> cases second <;> simp only [operator, Operator.compare.injEq,
    Operator.like.injEq, Operator.between.injEq, Operator.member.injEq, Operator.null.injEq,
    reduceCtorEq] at hoperator
  case compare.compare => simp [tokens, hoperator]
  case like.like => simp [tokens, hoperator, Token.mask]
  case between.between => simp [tokens, hoperator]
  case member.member =>
    simp only [operands] at hlength
    simp only [tokens, List.map_append, Sql.map_intercalate, Scalar.mask_items, hoperator, hlength]
  case null.null => rw [hoperator]

theorem mask_spacedNegatable (negated : Bool) {keyword : String}
    (hkeyword : keyword ∈ ["LIKE", "BETWEEN", "IN"]) :
    ∀ token ∈ spacedNegatable negated keyword, token.mask ∈ Sql.connectives := by
  revert negated
  simp only [List.mem_cons, List.not_mem_nil, or_false] at hkeyword
  rcases hkeyword with rfl | rfl | rfl <;> decide

/-- A property of the tokens of references goes over to the tokens of fragments. -/
theorem composed_tokens {property : List Token → Prop} (h : Composes property)
    (predicate : Predicate) {reference : List Token} (hreference : property reference)
    (type : FieldType) : property (predicate.tokens reference type) := by
  cases predicate with
  | compare comparison operand =>
    have hsign : property (space :: comparison.sign.toList.map .symbol ++ [space]) :=
      h.of_connectives (by cases comparison <;> decide)
    exact h.append (h.append hreference hsign) (operand.composed_token h type)
  | like textMatch operand =>
    have hkeyword := h.of_connectives (mask_spacedNegatable (textMatch = .doesNotContain)
      (List.mem_cons_self : "LIKE" ∈ ["LIKE", "BETWEEN", "IN"]))
    have hpattern : property [.literal (pattern textMatch operand.display).toList] :=
      h.connective (by decide : Token.literal [] ∈ Sql.connectives)
    exact h.append (h.append hreference hkeyword) hpattern
  | between negated low high =>
    have hkeyword := h.of_connectives (mask_spacedNegatable negated
      (by decide : "BETWEEN" ∈ ["LIKE", "BETWEEN", "IN"]))
    have hand : property (spaced "AND") := h.of_connectives (by decide)
    have hlow := h.append (h.append hreference hkeyword) (low.composed_token h type)
    exact h.append (h.append hlow hand) (high.composed_token h type)
  | member negated items =>
    have hkeyword := h.of_connectives (mask_spacedNegatable negated
      (by decide : "IN" ∈ ["LIKE", "BETWEEN", "IN"]))
    have hcomma : property [.symbol ',', space] := h.of_connectives (by decide)
    have hitems : property ([.symbol ',', space].intercalate
        (items.map fun item ↦ [item.token type])) := by
      apply h.intercalate hcomma
      intro tokens htokens
      obtain ⟨item, -, rfl⟩ := List.mem_map.1 htokens
      exact item.composed_token h type
    have htokens := h.append (h.append hreference hkeyword) (h.parenthesized hitems)
    simpa [tokens, parenthesized] using htokens
  | null negated =>
    have his : property (spaced "IS") := h.of_connectives (by decide)
    have hnull : property (if negated then [.word "NOT".toList, space, .word "NULL".toList]
        else [.word "NULL".toList]) := h.of_connectives (by cases negated <;> decide)
    exact h.append (h.append hreference his) hnull

end Predicate

namespace FieldPredicate

theorem quiet_tokens (test : FieldPredicate) : Quiet test.tokens :=
  test.predicate.composed_tokens Sql.composes_quiet (Field.reference_facts _ test.known).2.2
    test.field.type

/-- The masked tokens of the text. -/
def masked (test : FieldPredicate) : List Token := test.tokens.map Token.mask

end FieldPredicate

end StagedQuery
