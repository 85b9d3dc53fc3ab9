import StagedQuery.Catalog.Basic
import StagedQuery.Proofs.Predicate.Tokens
import StagedQuery.Proofs.Sql.Masking

/-!
# Fragments as Atomic Conditions

A fragment is one atomic condition for a reader of boolean expressions, whatever its operands
denote.  The only keyword in it that could end an atomic condition is the AND of a BETWEEN, and the
only parentheses are those around a list or inside the reference of a field, which are balanced.
-/

namespace StagedQuery

open Sql (Token IsAtom continueOver continueOver_append)
open Sql.Token (space spaced spacedNegatable)

namespace Sql

variable {first second gap : List Token} {state : Nat × Bool}

theorem continueOver_intercalate (hgap : continueOver state gap = some state)
    {tokenLists : List (List Token)}
    (h : ∀ tokens ∈ tokenLists, continueOver state tokens = some state) :
    continueOver state (gap.intercalate tokenLists) = some state := by
  induction tokenLists with
  | nil => rfl
  | cons tokens rest ih =>
    have htokens := h tokens List.mem_cons_self
    have hrest := ih fun tokens htokens ↦ h tokens (List.mem_cons_of_mem _ htokens)
    cases rest with
    | nil => simpa using htokens
    | cons second rest =>
      rw [List.intercalate_cons_cons, List.append_assoc, continueOver_append htokens,
        continueOver_append hgap, hrest]

theorem Ends.append (first : List Token) (h : Ends second) : Ends (first ++ second) := by
  unfold Ends at h ⊢
  cases hsecond : second.getLast? with
  | none => simp [hsecond] at h
  | some token => simpa [List.getLast?_append, hsecond] using h

theorem ends_singleton {token : Token} (h : token.isBlank = false) : Ends [token] := by
  simp [Ends, h]

theorem IsAtom.append (hfirst : IsAtom first)
    (hinside : continueOver (0, false) second = some (0, false)) (hlast : Ends second) :
    IsAtom (first ++ second) where
  head := by
    cases first with
    | nil => exact absurd hfirst.head (by simp)
    | cons token rest => exact hfirst.head
  last := hlast.append first
  inside := by rw [continueOver_append hfirst.inside, hinside]

end Sql

namespace Scalar

theorem role_token (scalar : Scalar) (type : FieldType) : (scalar.token type).role = .other := by
  unfold token
  split <;> rfl

theorem isBlank_token (scalar : Scalar) (type : FieldType) :
    (scalar.token type).isBlank = false := by
  unfold token
  split <;> rfl

theorem ends_token (scalar : Scalar) (type : FieldType) : Sql.Ends [scalar.token type] :=
  Sql.ends_singleton (scalar.isBlank_token type)

theorem continueOver_token (scalar : Scalar) (type : FieldType) (state : Nat × Bool) :
    continueOver state [scalar.token type] = some state := by
  have hrole := Sql.continueAtom_inert state (.inl (scalar.role_token type))
  simp [continueOver, hrole]

/-- The items of a list stay inside its parentheses. -/
theorem continueOver_items (items : List Scalar) (type : FieldType) (state : Nat × Bool) :
    continueOver state ([.symbol ',', space].intercalate (items.map fun item ↦ [item.token type])) =
      some state := by
  have hgap : continueOver state [.symbol ',', space] = some state := by
    have hcomma := Sql.continueAtom_inert state (.inl rfl : (Token.symbol ',').role = .other ∨ _)
    have hspace := Sql.continueAtom_inert state (.inr rfl : _ ∨ space.role = .blank)
    simp [continueOver, hcomma, hspace]
  apply Sql.continueOver_intercalate hgap
  intro tokens htokens
  obtain ⟨item, -, rfl⟩ := List.mem_map.1 htokens
  exact item.continueOver_token type state

end Scalar

namespace Predicate

theorem isAtom_tokens (predicate : Predicate) {reference : List Token}
    (hreference : IsAtom reference) (type : FieldType) :
    IsAtom (predicate.tokens reference type) := by
  cases predicate with
  | compare comparison operand =>
    have hsign : continueOver (0, false)
        (space :: comparison.sign.toList.map .symbol ++ [space]) = some (0, false) := by
      cases comparison <;> decide
    simp only [tokens, List.append_assoc reference]
    apply hreference.append
    · rw [continueOver_append hsign, operand.continueOver_token]
    · exact (operand.ends_token type).append _
  | like textMatch operand =>
    have hkeyword : continueOver (0, false)
        (spacedNegatable (textMatch = .doesNotContain) "LIKE") = some (0, false) := by
      cases textMatch <;> decide
    simp only [tokens, List.append_assoc reference]
    apply hreference.append
    · rw [continueOver_append hkeyword]
      rfl
    · exact (Sql.ends_singleton rfl).append _
  | between negated low high =>
    have hkeyword : continueOver (0, false) (spacedNegatable negated "BETWEEN") =
        some (0, true) := by
      cases negated <;> decide
    have hand : continueOver (0, true) (spaced "AND") = some (0, false) := by decide
    simp only [tokens, List.append_assoc]
    apply hreference.append
    · rw [continueOver_append hkeyword, continueOver_append (low.continueOver_token type _),
        continueOver_append hand, high.continueOver_token]
    · exact (((high.ends_token type).append _).append _).append _
  | member negated items =>
    have hopen : continueOver (0, false) (spacedNegatable negated "IN" ++ [.symbol '(']) =
        some (1, false) := by
      cases negated <;> decide
    simp only [tokens, List.append_assoc reference]
    apply hreference.append
    · rw [List.append_assoc, continueOver_append hopen,
        continueOver_append (Scalar.continueOver_items items type _)]
      rfl
    · exact (Sql.ends_singleton rfl).append _
  | null negated =>
    have hnull : continueOver (0, false) (spaced "IS" ++
        if negated then [.word "NOT".toList, space, .word "NULL".toList]
        else [.word "NULL".toList]) = some (0, false) := by
      cases negated <;> decide
    simp only [tokens, List.append_assoc reference]
    apply hreference.append hnull
    cases negated <;> decide

end Predicate

/-! ## Predicates about known fields -/

namespace Field

def referenceTokens (field : Field) : List Token :=
  (Sql.closedTokens? field.reference).getD []

theorem reference_facts : ∀ field ∈ Catalog.fields,
    Sql.Lexes field.reference field.referenceTokens ∧ IsAtom field.referenceTokens ∧
      Sql.Quiet field.referenceTokens := by
  decide +kernel

end Field

/-- A predicate about a field of the catalog. -/
structure FieldPredicate where
  field : Field
  known : field ∈ Catalog.fields
  predicate : Predicate

namespace FieldPredicate

def text (test : FieldPredicate) : String :=
  test.predicate.fragment test.field.reference test.field.type

def tokens (test : FieldPredicate) : List Token :=
  test.predicate.tokens test.field.referenceTokens test.field.type

theorem lexes_text (test : FieldPredicate) : Sql.Lexes test.text test.tokens :=
  test.predicate.lexes_fragment (Field.reference_facts _ test.known).1 test.field.type

theorem completes_text (test : FieldPredicate) : Sql.Completes test.tokens (.atom test.text) :=
  (test.predicate.isAtom_tokens (Field.reference_facts _ test.known).2.1 test.field.type).completes
    test.lexes_text

end FieldPredicate

end StagedQuery
