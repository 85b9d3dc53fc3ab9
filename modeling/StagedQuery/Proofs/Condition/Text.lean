import StagedQuery.Proofs.Condition.Pruning
import StagedQuery.Proofs.Sql.Reading

/-!
# Texts of Conditions

The text of a condition nests as the condition does: every group below the root stands in
parentheses, and a negated group has further ones behind its NOT.  The tokens of the text are found
from those of the leaves in the same way.
-/

namespace StagedQuery

open Sql (Token Lexes Settles Separates)
open Sql.Token (space spaced parenthesized)

variable {α : Type}

namespace Condition

/-! ## Texts -/

mutual

/-- The text of a child, given the texts of the leaves.  A group below the root stands in
parentheses. -/
def childText (text : α → String) : Condition α → String
  | .leaf test => text test
  | .group combinator negated children =>
    "(" ++ joinTexts combinator negated (childTexts text children) ++ ")"

def childTexts (text : α → String) : List (Condition α) → List String
  | [] => []
  | child :: rest => child.childText text :: childTexts text rest

end

@[simp]
theorem childTexts_eq (text : α → String) (children : List (Condition α)) :
    childTexts text children = children.map (childText text) := by
  induction children with
  | nil => rfl
  | cons child rest ih => rw [childTexts, ih, List.map_cons]

@[simp]
theorem childText_leaf (text : α → String) (test : α) : (leaf test).childText text = text test :=
  rfl

@[simp]
theorem childText_group (text : α → String) (combinator : Combinator) (negated : Bool)
    (children : List (Condition α)) :
    (group combinator negated children).childText text =
      "(" ++ joinTexts combinator negated (children.map (childText text)) ++ ")" := by
  rw [childText, childTexts_eq]

theorem joinTexts_plain (combinator : Combinator) (texts : List String) :
    joinTexts combinator false texts = (" " ++ combinator.keyword ++ " ").intercalate texts := rfl

theorem joinTexts_negated (combinator : Combinator) (texts : List String) :
    joinTexts combinator true texts = "NOT (" ++ joinTexts combinator false texts ++ ")" := rfl

/-! ## Tokens -/

/-- The tokens of joined texts, given those of each text. -/
def joinTokens (combinator : Combinator) (negated : Bool) (tokenLists : List (List Token)) :
    List Token :=
  let joined := (spaced combinator.keyword).intercalate tokenLists
  if negated then .word "NOT".toList :: space :: parenthesized joined else joined

mutual

/-- The tokens of the text of a child, given those of the texts of the leaves. -/
def childTokens (tokens : α → List Token) : Condition α → List Token
  | .leaf test => tokens test
  | .group combinator negated children =>
    parenthesized (joinTokens combinator negated (childTokenLists tokens children))

def childTokenLists (tokens : α → List Token) : List (Condition α) → List (List Token)
  | [] => []
  | child :: rest => child.childTokens tokens :: childTokenLists tokens rest

end

@[simp]
theorem childTokenLists_eq (tokens : α → List Token) (children : List (Condition α)) :
    childTokenLists tokens children = children.map (childTokens tokens) := by
  induction children with
  | nil => rfl
  | cons child rest ih => rw [childTokenLists, ih, List.map_cons]

@[simp]
theorem childTokens_group (tokens : α → List Token) (combinator : Combinator) (negated : Bool)
    (children : List (Condition α)) :
    (group combinator negated children).childTokens tokens =
      parenthesized (joinTokens combinator negated (children.map (childTokens tokens))) := by
  rw [childTokens, childTokenLists_eq]

/-! ## Reading the texts as the tokens -/

theorem lexes_parenthesized {text : String} {tokens : List Token} (h : Lexes text tokens) :
    Lexes ("(" ++ text ++ ")") (parenthesized tokens) := by
  have hopen : Settles "(" [.symbol '('] := by decide
  have hclose : Separates ")" [.symbol ')'] := by decide
  exact ((hopen.append_lexes h).append_separates hclose).lexes

theorem lexes_joinTexts (combinator : Combinator) (negated : Bool) {texts : List String}
    {tokenLists : List (List Token)} (h : List.Forall₂ Lexes texts tokenLists) :
    Lexes (joinTexts combinator negated texts) (joinTokens combinator negated tokenLists) := by
  have hkeyword : Separates (" " ++ combinator.keyword ++ " ") (spaced combinator.keyword) := by
    cases combinator <;> decide
  have hjoined := Lexes.intercalate hkeyword h
  cases negated with
  | false => exact hjoined
  | true =>
    have hopen : Settles "NOT (" [.word "NOT".toList, space, .symbol '('] := by decide
    have hclose : Separates ")" [.symbol ')'] := by decide
    exact ((hopen.append_lexes hjoined).append_separates hclose).lexes

theorem lexes_childText {text : α → String} {tokens : α → List Token}
    (h : ∀ test, Lexes (text test) (tokens test)) (condition : Condition α) :
    Lexes (condition.childText text) (condition.childTokens tokens) := by
  induction condition with
  | leaf test => exact h test
  | group combinator negated children ih =>
    rw [childText_group, childTokens_group]
    exact lexes_parenthesized (lexes_joinTexts combinator negated (Sql.forall₂_map ih))

end Condition

namespace Group

/-- The text of a condition, given the texts of the leaves. -/
def text (leafText : α → String) (group : Group α) : String :=
  Condition.joinTexts group.combinator group.negated
    (group.children.map (Condition.childText leafText))

/-- The tokens of the text of a condition, given those of the texts of the leaves. -/
def tokens (leafTokens : α → List Token) (group : Group α) : List Token :=
  Condition.joinTokens group.combinator group.negated
    (group.children.map (Condition.childTokens leafTokens))

theorem lexes_text {leafText : α → String} {leafTokens : α → List Token}
    (h : ∀ test, Lexes (leafText test) (leafTokens test)) (group : Group α) :
    Lexes (group.text leafText) (group.tokens leafTokens) :=
  Condition.lexes_joinTexts group.combinator group.negated
    (Sql.forall₂_map fun child _ ↦ child.lexes_childText h)

end Group

end StagedQuery
