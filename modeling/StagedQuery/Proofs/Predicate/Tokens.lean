import StagedQuery.Predicate
import StagedQuery.Proofs.Binary64.Plain
import StagedQuery.Proofs.Sql.Reading

/-!
# Tokens of Fragments

The fragment of a predicate is read as the tokens of the reference, the keyword or the sign of the
operator, and one token for each operand: a quoted literal that denotes the text of the operand, or
the bare number.  No character of an operand is read as anything else.
-/

namespace StagedQuery

open Sql (Token Mode Lexes Settles Separates)

/-! ## Literals -/

namespace Sql

theorem run_doubleQuotes (text : List Char) (rest : List Char) :
    run (.literal rest) (Text.doubleQuotes text) = some ([], .literal (rest ++ text)) := by
  induction text generalizing rest with
  | nil => simp [Text.doubleQuotes, run]
  | cons c text ih =>
    have hsplit : Text.doubleQuotes (c :: text) =
        (if c = '\'' then ['\'', '\''] else [c]) ++ Text.doubleQuotes text := by
      simp [Text.doubleQuotes]
    have hfirst : run (.literal rest) (if c = '\'' then ['\'', '\''] else [c]) =
        some ([], .literal (rest ++ [c])) := by
      split
      · next hquote => simp [run, Mode.step, hquote]
      · next hquote => simp [run, Mode.step, hquote]
    have hrest := ih (rest ++ [c])
    rw [List.append_assoc, List.singleton_append] at hrest
    rw [hsplit]
    exact run_append hfirst hrest

/-- A quoted text is one literal, and denotes the text. -/
theorem lexes_quoted (text : String) : Lexes (Text.quoted text) [.literal text.toList] := by
  have hopen : Mode.ready.step '\'' = some ([], .literal []) := by decide
  have hclose : run (.literal text.toList) ['\''] = some ([], .quote text.toList) := by
    simp [run, Mode.step]
  have hbody := run_append (run_doubleQuotes text.toList []) hclose
  have hrun : run .ready (Text.quoted text).toList = some ([], .quote text.toList) := by
    rw [Text.quoted, String.toList_ofList]
    exact run_cons hopen hbody
  exact lexes_iff.2 ⟨[], _, _, hrun, rfl, rfl⟩

end Sql

namespace Scalar

/-- The token of a literal. -/
def token (scalar : Scalar) (type : FieldType) : Token :=
  match type, scalar.asNumber? with
  | .number, some value => .number value.plain.toList
  | _, _ => .literal scalar.display.toList

theorem lexes_literal (scalar : Scalar) (type : FieldType) :
    Lexes (scalar.literal type) [scalar.token type] := by
  cases type with
  | number =>
    cases hnumber : scalar.asNumber? with
    | none => simpa [literal, token, hnumber] using Sql.lexes_quoted scalar.display
    | some value => simpa [literal, token, hnumber] using Sql.lexes_plain value
  | text => exact Sql.lexes_quoted scalar.display
  | date => exact Sql.lexes_quoted scalar.display

theorem lexes_literals (items : List Scalar) (type : FieldType) :
    List.Forall₂ Lexes (items.map fun item ↦ item.literal type)
      (items.map fun item ↦ [item.token type]) :=
  Sql.forall₂_map fun item _ ↦ item.lexes_literal type

end Scalar

/-! ## Fragments -/

namespace Sql.Token

/-- A keyword that may be negated, between blanks. -/
def spacedNegatable (negated : Bool) (keyword : String) : List Token :=
  if negated then space :: .word "NOT".toList :: spaced keyword else spaced keyword

end Sql.Token

namespace Predicate

open Sql.Token (space spaced spacedNegatable)

/-- The tokens of the fragment of a predicate, given those of the reference. -/
def tokens (predicate : Predicate) (reference : List Token) (type : FieldType) : List Token :=
  match predicate with
  | .compare comparison operand =>
    reference ++ (space :: comparison.sign.toList.map .symbol ++ [space]) ++ [operand.token type]
  | .like textMatch operand =>
    reference ++ spacedNegatable (textMatch = .doesNotContain) "LIKE" ++
      [.literal (pattern textMatch operand.display).toList]
  | .between negated low high =>
    reference ++ spacedNegatable negated "BETWEEN" ++ [low.token type] ++ spaced "AND" ++
      [high.token type]
  | .member negated items =>
    reference ++ (spacedNegatable negated "IN" ++ [.symbol '(']) ++
      [.symbol ',', space].intercalate (items.map fun item ↦ [item.token type]) ++ [.symbol ')']
  | .null negated =>
    reference ++ spaced "IS" ++
      (if negated then [.word "NOT".toList, space, .word "NULL".toList]
        else [.word "NULL".toList])

theorem separates_negatable (negated : Bool) {keyword : String}
    (hkeyword : keyword ∈ ["LIKE", "BETWEEN", "IN"]) :
    Separates (" " ++ negatable negated keyword ++ " ") (spacedNegatable negated keyword) := by
  revert negated
  simp only [List.mem_cons, List.not_mem_nil, or_false] at hkeyword
  rcases hkeyword with rfl | rfl | rfl <;> decide

theorem lexes_fragment (predicate : Predicate) {reference : String} {referenceTokens : List Token}
    (hreference : Lexes reference referenceTokens) (type : FieldType) :
    Lexes (predicate.fragment reference type) (predicate.tokens referenceTokens type) := by
  cases predicate with
  | compare comparison operand =>
    have hsign : Separates (" " ++ comparison.sign ++ " ")
        (space :: comparison.sign.toList.map .symbol ++ [space]) := by
      cases comparison <;> decide
    have hfragment := hreference.glue hsign (operand.lexes_literal type)
    simpa only [fragment, tokens, String.append_assoc] using hfragment
  | like textMatch operand =>
    have hkeyword := separates_negatable (textMatch = .doesNotContain)
      (List.mem_cons_self : "LIKE" ∈ ["LIKE", "BETWEEN", "IN"])
    have hfragment := hreference.glue hkeyword
      (Sql.lexes_quoted (pattern textMatch operand.display))
    simpa only [fragment, tokens, String.append_assoc] using hfragment
  | between negated low high =>
    have hkeyword := separates_negatable negated
      (by decide : "BETWEEN" ∈ ["LIKE", "BETWEEN", "IN"])
    have hand : Separates " AND " (spaced "AND") := by decide
    have hfragment := (hreference.glue hkeyword (low.lexes_literal type)).glue hand
      (high.lexes_literal type)
    simpa only [fragment, tokens, String.append_assoc] using hfragment
  | member negated items =>
    have hopen : Separates (" " ++ negatable negated "IN" ++ " (")
        (spacedNegatable negated "IN" ++ [.symbol '(']) := by
      revert negated
      decide
    have hcomma : Separates ", " [.symbol ',', space] := by decide
    have hclose : Separates ")" [.symbol ')'] := by decide
    have hitems := Lexes.intercalate hcomma (Scalar.lexes_literals items type)
    have hfragment := ((hreference.glue hopen hitems).append_separates hclose).lexes
    simpa only [fragment, tokens, String.append_assoc] using hfragment
  | null negated =>
    have his : Separates " IS " (spaced "IS") := by decide
    have hnull : Lexes (negatable negated "NULL")
        (if negated then [.word "NOT".toList, space, .word "NULL".toList]
          else [.word "NULL".toList]) := by
      revert negated
      decide
    have hfragment := hreference.glue his hnull
    simpa only [fragment, tokens, String.append_assoc] using hfragment

end Predicate

end StagedQuery
