import StagedQuery.Proofs.Sql.Terms
import StagedQuery.Proofs.Statement.Insertion

/-!
# Conditions on Rows

The conditions on the rows of a selection are written one after the other with an AND before each
but the first.  They are all required, as they should be, if there is only one of them or if none
has an OR outside its parentheses.  Otherwise each AND binds only the terms beside it.
-/

namespace StagedQuery

open Sql (Expression Token)

/-! ## Reading the conditions -/

namespace Sql

theorem HasTerms.ne_nil {tokens : List Token} {terms : List Expression}
    (h : HasTerms tokens terms) : terms ≠ [] := by
  obtain ⟨reader, frame, -, -, rfl⟩ := h
  exact List.concat_ne_nil _ _

namespace Expression

variable {first second gap : String} {terms others : List Expression} {blanks : List Token}

theorem ne_nil_of_termsOfText? (h : termsOfText? first = some terms) : terms ≠ [] := by
  obtain ⟨tokens, -, hterms⟩ := termsOfText?_eq_some_iff.1 h
  exact hterms.ne_nil

/-- Two texts with an AND on a new line between them. -/
theorem termsOfText?_append (hfirst : termsOfText? first = some terms)
    (hsecond : termsOfText? second = some others) (hgap : Settles gap (Token.conjunction blanks))
    (hblanks : ∀ token ∈ blanks, token.isBlank) :
    ∃ all, termsOfText? (first ++ "\n" ++ gap ++ second) = some all ∧
      ∀ assignment, all.map (evaluate assignment) =
        Truth.meet (terms.map (evaluate assignment)) (others.map (evaluate assignment)) := by
  obtain ⟨firstTokens, hfirstTokens, hfirstTerms⟩ := termsOfText?_eq_some_iff.1 hfirst
  obtain ⟨secondTokens, hsecondTokens, hsecondTerms⟩ := termsOfText?_eq_some_iff.1 hsecond
  have hall : ∀ token ∈ Token.blank '\n' :: blanks, token.isBlank :=
    List.forall_mem_cons.2 ⟨rfl, hblanks⟩
  obtain ⟨all, hterms, hvalues⟩ := hfirstTerms.append hsecondTerms hall
  have htokens := ((settles_line hfirstTokens).append hgap).append_tokens? hsecondTokens
  refine ⟨all, termsOfText?_eq_some_iff.2 ⟨_, htokens, ?_⟩, hvalues⟩
  rwa [List.append_assoc firstTokens]

end Expression

end Sql

namespace Select

open Sql.Expression (termsOfText?)

/-- What is written before each condition but the first. -/
theorem settles_gap (depth : Nat) : Sql.Settles (margin depth ++ "  AND ")
    (Token.conjunction (List.replicate (2 * depth) Token.space ++ [Token.space, Token.space])) := by
  have hand : Sql.Settles "  AND "
      [Token.space, Token.space, .word "AND".toList, Token.space] := by
    decide
  have hgap := (Sql.settles_blanks (2 * depth)).append hand
  rwa [Token.conjunction, List.append_assoc]

theorem exists_terms {filters : List String} {terms : List (List Expression)}
    (h : List.Forall₂ (fun filter terms ↦ termsOfText? filter = some terms) filters terms)
    (hnonempty : filters ≠ []) (depth : Nat) :
    ∃ all, termsOfText? (("\n" ++ margin depth ++ "  AND ").intercalate filters) = some all ∧
      ∀ assignment, all.map (Expression.evaluate assignment) =
        Truth.chain (terms.map fun terms ↦ terms.map (Expression.evaluate assignment)) := by
  induction h with
  | nil => exact absurd rfl hnonempty
  | @cons filter first filters rest hfilter hfilters ih =>
    cases hfilters with
    | nil =>
      refine ⟨first, by rwa [String.intercalate_singleton], fun assignment ↦ ?_⟩
      have hvalues : first.map (Expression.evaluate assignment) ≠ [] := by
        simpa using Expression.ne_nil_of_termsOfText? hfilter
      exact (Truth.chain_singleton hvalues).symm
    | cons hsecond hlater =>
      obtain ⟨others, hothers, hvalues⟩ := ih (List.cons_ne_nil _ _)
      have hblanks : ∀ token ∈ List.replicate (2 * depth) Token.space ++
          [Token.space, Token.space], token.isBlank := by
        intro token htoken
        simp only [List.mem_append, List.mem_replicate, List.mem_cons, List.not_mem_nil,
          or_false, or_self] at htoken
        rcases htoken with ⟨-, rfl⟩ | rfl <;> rfl
      obtain ⟨all, hall, hmeet⟩ :=
        Expression.termsOfText?_append hfilter hothers (settles_gap depth) hblanks
      refine ⟨all, ?_, fun assignment ↦ ?_⟩
      · rw [String.intercalate_cons_cons]
        simpa only [String.append_assoc] using hall
      · rw [hmeet, hvalues]
        rfl

/-! ## The clause -/

/-- The conditions are read alone as expressions, which join their terms. -/
theorem exists_forall₂_terms {filters : List String} {expressions : List Expression}
    (h : filters.map Expression.ofText? = expressions.map some) :
    ∃ terms, List.Forall₂ (fun filter terms ↦ termsOfText? filter = some terms) filters terms ∧
      expressions = terms.map (Expression.joined .or) := by
  induction filters generalizing expressions with
  | nil =>
    obtain rfl := List.map_eq_nil_iff.1 h.symm
    exact ⟨[], .nil, rfl⟩
  | cons filter rest ih =>
    cases expressions with
    | nil => cases h
    | cons expression expressions =>
      obtain ⟨hfilter, hrest⟩ := List.cons.inj h
      rw [Expression.ofText?_eq_map] at hfilter
      obtain ⟨first, hfirst, rfl⟩ := Option.map_eq_some_iff.1 hfilter
      obtain ⟨terms, hterms, rfl⟩ := ih hrest
      exact ⟨first :: terms, .cons hfirst hterms, rfl⟩

theorem nonempty_of_forall₂ {filters : List String} {terms : List (List Expression)}
    (h : List.Forall₂ (fun filter terms ↦ termsOfText? filter = some terms) filters terms) :
    ∀ texts ∈ terms, texts ≠ [] := by
  induction h with
  | nil => exact List.forall_mem_nil _
  | cons hfilter hfilters ih =>
    exact List.forall_mem_cons.2 ⟨Expression.ne_nil_of_termsOfText? hfilter, ih⟩

/-- The values of the terms of one condition, and those of conditions of one term each, are joined
as the conditions are. -/
theorem join_chain {terms : List (List Expression)} (hnonempty : ∀ texts ∈ terms, texts ≠ [])
    (h : terms.length = 1 ∨ ∀ texts ∈ terms, texts.length = 1) (assignment : String → Truth) :
    Truth.join .or
        (Truth.chain (terms.map fun texts ↦ texts.map (Expression.evaluate assignment))) =
      Truth.join .and ((terms.map (Expression.joined .or)).map
        (Expression.evaluate assignment)) := by
  rcases h with hlength | hsingle
  · obtain ⟨texts, rfl⟩ := List.length_eq_one_iff.1 hlength
    have hvalues : texts.map (Expression.evaluate assignment) ≠ [] := by
      simpa using hnonempty texts List.mem_cons_self
    simp only [List.map_singleton, Truth.chain_singleton hvalues, Truth.join_singleton,
      Expression.evaluate_joined]
  · have hvalues : terms.map (fun texts ↦ texts.map (Expression.evaluate assignment)) =
        ((terms.map (Expression.joined .or)).map (Expression.evaluate assignment)).map
          fun value ↦ [value] := by
      rw [List.map_map, List.map_map]
      refine List.map_congr_left fun texts htexts ↦ ?_
      obtain ⟨term, rfl⟩ := List.length_eq_one_iff.1 (hsingle texts htexts)
      rfl
    rw [hvalues, Truth.chain_of_singletons, Truth.join_singleton]

/-- Whatever the conditions on the rows are, they stand on lines of their own behind the joins and
are read as one expression, whose value joins their terms: each AND that is written between two of
them binds the last term before it and the first term behind it.  If there is only one condition,
or if none has an OR outside its parentheses, this is the AND of the values of the conditions.

In the conditions, AND, OR, NOT and BETWEEN are read in upper case only; in any other case they are
words of an atomic condition. -/
theorem where_meaning {select : Select} {expressions : List Expression}
    (hfilters : select.filters ≠ [])
    (hread : select.filters.map Expression.ofText? = expressions.map some) (depth : Nat) :
    ∃ condition expression, ∃ terms : List (List Expression),
      select.whereClause depth = some ("WHERE " ++ condition) ∧
      select.text depth =
        select.opening depth ++ "\n" ++ margin depth ++ "WHERE " ++ condition ++
          lines depth (select.groupByClause.toList ++ select.havingClause.toList ++
            select.orderByClause.toList) ∧
      Expression.ofText? condition = some expression ∧
      select.filters.map termsOfText? = terms.map some ∧
      expressions = terms.map (Expression.joined .or) ∧
      ∀ assignment,
        expression.evaluate assignment = Truth.join .or
          (Truth.chain (terms.map fun texts ↦ texts.map (Expression.evaluate assignment))) ∧
        (select.filters.length = 1 ∨ (∀ texts ∈ terms, texts.length = 1) →
          expression.evaluate assignment =
            Truth.join .and (expressions.map (Expression.evaluate assignment))) := by
  obtain ⟨terms, hterms, rfl⟩ := exists_forall₂_terms hread
  obtain ⟨all, hall, hvalues⟩ := exists_terms hterms hfilters depth
  have hclause : select.whereClause depth =
      some ("WHERE " ++ ("\n" ++ margin depth ++ "  AND ").intercalate select.filters) :=
    if_neg hfilters
  have hvalue (assignment : String → Truth) :
      (Expression.joined .or all).evaluate assignment = Truth.join .or
        (Truth.chain (terms.map fun texts ↦ texts.map (Expression.evaluate assignment))) := by
    rw [Expression.evaluate_joined, hvalues]
  refine ⟨_, Expression.joined .or all, terms, hclause, ?_, ?_, ?_, rfl, fun assignment ↦
    ⟨hvalue assignment, fun hplain ↦ ?_⟩⟩
  · rw [text_eq_lines, hclause, lines_append, lines_append]
    simp only [Option.toList_some, lines, String.append_assoc, String.empty_append]
  · rw [Expression.ofText?_eq_map, hall, Option.map_some]
  · rw [← List.forall₂_eq_eq_eq, List.forall₂_map_left_iff, List.forall₂_map_right_iff]
    exact hterms
  · rw [hterms.length_eq] at hplain
    rw [hvalue, join_chain (nonempty_of_forall₂ hterms) hplain]

theorem where_meaning_plain :
    let select : Select := {
      source := ⟨"t", none⟩
      filters := ["(a = 1 OR b = 2)", "NOT c BETWEEN 3 AND 4", "d IN ('x', 'OR')"]
      groupBy := ["a"] }
    ∃ expression first second third,
      Expression.ofText?
          "(a = 1 OR b = 2)\n  AND NOT c BETWEEN 3 AND 4\n  AND d IN ('x', 'OR')" =
        some expression ∧
      select.filters.map Expression.ofText? = [some first, some second, some third] ∧
      ∀ assignment, expression.evaluate assignment = Truth.join .and
        [first.evaluate assignment, second.evaluate assignment, third.evaluate assignment] := by
  intro select
  have hread : ∀ filter ∈ select.filters, (Expression.ofText? filter).isSome := by decide +kernel
  have hsingle : ∀ filter ∈ select.filters,
      (termsOfText? filter).map List.length = some 1 := by
    decide +kernel
  obtain ⟨first, hfirst⟩ := Option.isSome_iff_exists.1 (hread "(a = 1 OR b = 2)" (by decide))
  obtain ⟨second, hsecond⟩ :=
    Option.isSome_iff_exists.1 (hread "NOT c BETWEEN 3 AND 4" (by decide))
  obtain ⟨third, hthird⟩ := Option.isSome_iff_exists.1 (hread "d IN ('x', 'OR')" (by decide))
  have hexpressions : select.filters.map Expression.ofText? =
      [first, second, third].map some := by
    simp only [select, List.map_cons, List.map_nil, hfirst, hsecond, hthird]
  obtain ⟨condition, expression, terms, hclause, -, hexpression, hterms, -, hvalue⟩ :=
    where_meaning (List.cons_ne_nil _ _) hexpressions 0
  have hcondition : select.whereClause 0 = some ("WHERE " ++
      "(a = 1 OR b = 2)\n  AND NOT c BETWEEN 3 AND 4\n  AND d IN ('x', 'OR')") := by
    decide
  rw [hcondition] at hclause
  obtain rfl := (String.append_right_inj _).1 (Option.some.inj hclause)
  have hlengths : ∀ texts ∈ terms, texts.length = 1 := by
    intro texts htexts
    obtain ⟨filter, hfilter, hfilterTerms⟩ :=
      List.mem_map.1 (hterms ▸ List.mem_map_of_mem htexts)
    have hlength := hsingle filter hfilter
    rw [hfilterTerms] at hlength
    exact Option.some.inj hlength
  exact ⟨expression, first, second, third, hexpression, hexpressions,
    fun assignment ↦ (hvalue assignment).2 (.inr hlengths)⟩

/-- Where the first of two conditions is an OR, the second one restricts only a part of it. -/
theorem where_meaning_misread :
    let select : Select := { source := ⟨"t", none⟩, filters := ["a = 1 OR b = 2", "c = 3"] }
    let value (text : String) : Option Truth := (Expression.ofText? text).map
      (Expression.evaluate fun test ↦ if test = "a = 1" then .yes else .no)
    select.whereClause 0 = some "WHERE a = 1 OR b = 2\n  AND c = 3" ∧
      value "a = 1 OR b = 2\n  AND c = 3" = some .yes ∧ value "a = 1 OR b = 2" = some .yes ∧
      value "c = 3" = some .no := by
  decide +kernel

end Select

end StagedQuery
