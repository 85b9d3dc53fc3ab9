import StagedQuery.Proofs.Predicate.Atoms
import StagedQuery.Proofs.Predicate.Shapes
import StagedQuery.Proofs.Sql.Test

/-!
# Fragments as Tests

Behind the reference of the field, a fragment is read as the keyword of the operator and its
operands: as many as there are scalars in the value, in their order, each with its whole text.  What
a scalar contains makes no difference to how it is read.
-/

namespace StagedQuery

open Sql (Token Test)
open Sql.Token (space spaced spacedNegatable)

/-! ## What is to be read -/

/-- A scalar as an operand that is compared with fields of a type: the bare number where the field
is numeric and the scalar can be read as a number, and the quoted text otherwise. -/
def Scalar.operand (scalar : Scalar) (type : FieldType) : Sql.Operand :=
  match type, scalar.asNumber? with
  | .number, some value => .bare value.plain
  | _, _ => .quoted scalar.display

namespace Operator

/-- The keyword or the sign of an operator. -/
def keyword : Operator → String
  | .compare comparison => comparison.sign
  | .like .doesNotContain => "NOT LIKE"
  | .like _ => "LIKE"
  | .between false => "BETWEEN"
  | .between true => "NOT BETWEEN"
  | .member false => "IN"
  | .member true => "NOT IN"
  | .null false => "IS NULL"
  | .null true => "IS NOT NULL"

/-- A scalar as an operand of an operator.  A text is matched against a pattern, which is always
quoted. -/
def operand (operator : Operator) (type : FieldType) (scalar : Scalar) : Sql.Operand :=
  match operator with
  | .like .contains | .like .doesNotContain => .quoted ("%" ++ scalar.display ++ "%")
  | .like .beginsWith => .quoted (scalar.display ++ "%")
  | .like .endsWith => .quoted scalar.display
  | _ => scalar.operand type

/-- The tokens between a reference and the operands of an operator. -/
def lead : Operator → List Token
  | .compare comparison => space :: comparison.sign.toList.map .symbol ++ [space]
  | .like textMatch => spacedNegatable (textMatch = .doesNotContain) "LIKE"
  | .between negated => spacedNegatable negated "BETWEEN"
  | .member negated => spacedNegatable negated "IN"
  | .null negated =>
    spaced "IS" ++
      (if negated then [.word "NOT".toList, space, .word "NULL".toList]
        else [.word "NULL".toList])

theorem isLead_lead (operator : Operator) :
    Test.IsLead operator.lead operator.keyword operator.arity := by
  have hall : ∀ operator ∈ all, Test.IsLead operator.lead operator.keyword operator.arity := by
    decide +kernel
  exact hall operator operator.mem_all

end Operator

/-! ## Operands -/

namespace Scalar

/-- The token of a literal is read as the operand. -/
theorem operand?_token (scalar : Scalar) (type : FieldType) :
    (scalar.token type).operand? = some (scalar.operand type) := by
  unfold token operand
  cases type with
  | number => cases scalar.asNumber? <;> simp [Token.operand?]
  | text => simp [Token.operand?]
  | date => simp [Token.operand?]

theorem leads_token (scalar : Scalar) (type : FieldType) : (scalar.token type).leads = false := by
  unfold token
  split <;> rfl

theorem filter_token (scalar : Scalar) (type : FieldType) (rest : List Token) :
    (scalar.token type :: rest).filter (fun token ↦ !token.isBlank) =
      scalar.token type :: rest.filter fun token ↦ !token.isBlank :=
  List.filter_cons_of_pos (by simp [scalar.isBlank_token type])

/-- The items of a list are read one by one, up to the closing parenthesis. -/
theorem items?_tokens (type : FieldType) {items : List Scalar} (hitems : items ≠ []) :
    Test.items? (([Token.symbol ',', space].intercalate
        (items.map fun item ↦ [item.token type]) ++ [Token.symbol ')']).filter
          fun token ↦ !token.isBlank) =
      some (items.map fun item ↦ item.operand type) := by
  induction items with
  | nil => exact absurd rfl hitems
  | cons item rest ih =>
    have hitem := item.operand?_token type
    cases rest with
    | nil =>
      rw [List.map_singleton, List.intercalate_singleton, List.singleton_append, filter_token]
      change Test.items? [item.token type, .symbol ')'] = _
      rw [Test.items?, hitem]
      rfl
    | cons second rest =>
      have hrest := ih (List.cons_ne_nil second rest)
      have hfirst : ([Token.symbol ',', space].intercalate
          ((item :: second :: rest).map fun item ↦ [item.token type]) ++ [Token.symbol ')']) =
            item.token type :: Token.symbol ',' :: space ::
              ([Token.symbol ',', space].intercalate
                ((second :: rest).map fun item ↦ [item.token type]) ++ [Token.symbol ')']) := by
        rw [List.map_cons, List.map_cons, List.intercalate_cons_cons]
        rfl
      have hblank : Token.isBlank space = true := rfl
      have hcomma : Token.isBlank (.symbol ',') = false := rfl
      rw [hfirst, filter_token, List.filter_cons_of_pos (by simp [hcomma]),
        List.filter_cons_of_neg (by simp [hblank]), Test.items?, hitem, hrest]
      rfl

end Scalar

namespace Predicate

/-! ## Fragments -/

/-- The tokens of the operands, with what stands between them. -/
def operandTokens (predicate : Predicate) (type : FieldType) : List Token :=
  match predicate with
  | .compare _ operand => [operand.token type]
  | .like textMatch operand => [.literal (pattern textMatch operand.display).toList]
  | .between _ low high => low.token type :: spaced "AND" ++ [high.token type]
  | .member _ items =>
    .symbol '(' :: [.symbol ',', space].intercalate (items.map fun item ↦ [item.token type]) ++
      [.symbol ')']
  | .null _ => []

theorem tokens_eq (predicate : Predicate) (reference : List Token) (type : FieldType) :
    predicate.tokens reference type =
      reference ++ (predicate.operator.lead ++ predicate.operandTokens type) := by
  cases predicate <;>
    simp only [tokens, operator, Operator.lead, operandTokens, List.append_assoc, List.append_nil,
      List.cons_append, List.nil_append]

theorem leads_head_operandTokens (predicate : Predicate) (type : FieldType) :
    ∀ token ∈ (predicate.operandTokens type).head?, token.leads = false := by
  intro token htoken
  cases predicate with
  | compare comparison operand =>
    cases htoken
    exact operand.leads_token type
  | like textMatch operand =>
    cases htoken
    rfl
  | between negated low high =>
    cases htoken
    exact low.leads_token type
  | member negated items =>
    cases htoken
    rfl
  | null negated => cases htoken

/-- The pattern is quoted with its wildcards, so that it is read back with them. -/
theorem operand?_pattern (textMatch : TextMatch) (operand : Scalar) (type : FieldType) :
    (Token.literal (pattern textMatch operand.display).toList).operand? =
      some ((Operator.like textMatch).operand type operand) := by
  cases textMatch <;> simp only [Token.operand?, String.ofList_toList, pattern, Operator.operand]

theorem operands?_operandTokens {predicate : Predicate}
    (hoperands : predicate.operator.arity ≠ .none → predicate.operands ≠ []) (type : FieldType) :
    Test.operands? predicate.operator.arity
        ((predicate.operandTokens type).filter fun token ↦ !token.isBlank) =
      some (predicate.operands.map (predicate.operator.operand type)) := by
  cases predicate with
  | compare comparison operand =>
    have hoperand := operand.operand?_token type
    rw [operandTokens, Scalar.filter_token, List.filter_nil]
    simp [operator, Operator.arity, Test.operands?, hoperand, operands, Operator.operand]
  | like textMatch operand =>
    have hpattern := operand?_pattern textMatch operand type
    rw [operandTokens, List.filter_cons_of_pos rfl, List.filter_nil]
    simp [operator, Operator.arity, Test.operands?, hpattern, operands]
  | between negated low high =>
    have hlow := low.operand?_token type
    have hhigh := high.operand?_token type
    have hand : (spaced "AND" ++ [high.token type]).filter (fun token ↦ !token.isBlank) =
        [.word "AND".toList, high.token type] := by
      rw [List.filter_append, Scalar.filter_token]
      rfl
    rw [operandTokens, List.cons_append, Scalar.filter_token, hand]
    simp [operator, Operator.arity, Test.operands?, hlow, hhigh, operands, Operator.operand]
  | member negated items =>
    exact Scalar.items?_tokens type (hoperands Arity.noConfusion)
  | null negated => rfl

theorem fragment_eq_append (predicate : Predicate) (reference : String) (type : FieldType) :
    predicate.fragment reference type = reference ++ predicate.fragment "" type := by
  cases predicate <;> simp only [fragment, String.append_assoc, String.empty_append]

/-- Behind the reference of the field stands a test with the operands of the predicate. -/
theorem ofText?_fragment {predicate : Predicate}
    (hoperands : predicate.operator.arity ≠ .none → predicate.operands ≠ []) (type : FieldType) :
    Test.ofText? (predicate.fragment "" type) = some
      ⟨predicate.operator.keyword, predicate.operands.map (predicate.operator.operand type)⟩ := by
  have htokens := (predicate.lexes_fragment Sql.lexes_empty type).tokens?
  rw [Test.ofText?, htokens, Option.bind_some, tokens_eq, List.nil_append,
    Test.ofTokens?_append predicate.operator.isLead_lead (predicate.leads_head_operandTokens type),
    operands?_operandTokens hoperands]
  rfl

end Predicate

/-- Whatever a rule says can be read back from its fragment.  Behind the reference stand the keyword
of the operator and one operand for each scalar in the value of the rule, in their order: none, one
or two of them, or the whole list. -/
theorem Rule.test_of_fragment {rule : Rule} {reference fragment : String} {type : FieldType}
    (h : rule.fragment reference type = .ok fragment) :
    ∃ operator operands rest, Operator.ofName? rule.operator = some operator ∧
      Operands.ofJson operator rule.value = .ok operands ∧ operands.arity = operator.arity ∧
      fragment = reference ++ rest ∧
      Test.ofText? rest =
        some ⟨operator.keyword, operands.scalars.map (operator.operand type)⟩ := by
  cases hoperator : Operator.ofName? rule.operator with
  | none => simp [Rule.fragment, predicate, hoperator, Except.map] at h
  | some operator =>
    rw [fragment_eq_map_ofJson hoperator] at h
    obtain ⟨operands, hoperands, rfl⟩ := map_eq_ok_iff.1 h
    have harity := Operands.arity_of_ofJson hoperands
    obtain ⟨predicate, rfl, hscalars, hpredicate⟩ := Operands.exists_predicate harity
    refine ⟨predicate.operator, operands, predicate.fragment "" type, rfl, hoperands, harity, ?_,
      ?_⟩
    · rw [hpredicate, predicate.fragment_eq_append reference]
    · have hnonempty := Operands.scalars_ne_nil_of_ofJson hoperands
      rw [← hscalars] at hnonempty ⊢
      exact Predicate.ofText?_fragment hnonempty type

theorem Rule.test_of_fragment_listed :
    let rule : Rule := ⟨"cited_pub_year", "notIn",
      .array [.string " 12 ", .string "1', 'AND", .bool true]⟩
    rule.fragment "pp.cited_pub_year" .number =
        .ok "pp.cited_pub_year NOT IN (12, '1'', ''AND', 'true')" ∧
      Test.ofText? " NOT IN (12, '1'', ''AND', 'true')" =
        some ⟨"NOT IN", [.bare "12", .quoted "1', 'AND", .quoted "true"]⟩ := by
  intro rule
  have hfragment : rule.fragment "pp.cited_pub_year" .number =
      .ok ("pp.cited_pub_year" ++ " NOT IN (12, '1'', ''AND', 'true')") := by decide +kernel
  obtain ⟨operator, operands, rest, hoperator, hoperands, -, hrest, htest⟩ :=
    Rule.test_of_fragment hfragment
  obtain rfl : Operator.member true = operator := Option.some.inj hoperator
  obtain rfl : Operands.list [.text " 12 ", .text "1', 'AND", .bool true] = operands :=
    Except.ok.inj hoperands
  obtain rfl := (String.append_right_inj _).1 hrest
  have hread : (Operands.list [.text " 12 ", .text "1', 'AND", .bool true]).scalars.map
      ((Operator.member true).operand .number) =
        [.bare "12", .quoted "1', 'AND", .quoted "true"] := by
    decide +kernel
  rw [hread] at htest
  exact ⟨hfragment, htest⟩

end StagedQuery
