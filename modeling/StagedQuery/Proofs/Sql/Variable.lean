import StagedQuery.Proofs.Sql.Masking
import Mathlib.Data.List.Infix

/-!
# Variables in Texts

A variable is a word that begins with an at sign.  The uses of variables in a text are allowed if
each of them stands directly behind tokens after which its name may stand.  What may follow such
tokens is checked piece by piece: a piece in which all uses are allowed stays so behind any other
piece.
-/

namespace StagedQuery.Sql

namespace Token

def ofVariable (name : String) : Token := .word ('@' :: name.toList)

def isVariable : Token → Bool
  | .word ('@' :: _) => true
  | _ => false

theorem at_mem_text {token : Token} (h : token.isVariable) : '@' ∈ token.text := by
  unfold isVariable at h
  split at h
  · exact List.mem_cons_self
  · cases h

end Token

/-- A variable behind certain tokens. -/
structure Use where
  name : String
  lead : List Token

/-- Every variable among the tokens is one that is allowed behind the tokens before it. -/
def Follows (allowed : List Use) (tokens : List Token) : Prop :=
  ∀ before token after, tokens = before ++ token :: after → token.isVariable →
    ∃ use ∈ allowed, token = .ofVariable use.name ∧ use.lead <:+ before

variable {allowed : List Use} {first second tokens : List Token}

instance (allowed : List Use) (tokens : List Token) : Decidable (Follows allowed tokens) :=
  decidable_of_iff (∀ before ∈ tokens.inits, ∀ token ∈ (tokens.drop before.length).head?,
      token.isVariable → ∃ use ∈ allowed, token = .ofVariable use.name ∧ use.lead <:+ before) <| by
    constructor
    · rintro h before token after rfl
      exact h before ((List.mem_inits _ _).2 (List.prefix_append _ _)) token (by simp)
    · intro h before hbefore token htoken
      obtain ⟨rest, rfl⟩ := (List.mem_inits _ _).1 hbefore
      rw [List.drop_left] at htoken
      obtain ⟨after, rfl⟩ := List.head?_eq_some_iff.1 htoken
      exact h before token after rfl

theorem follows_of_constant (h : ∀ token ∈ tokens, token.isVariable = false) :
    Follows allowed tokens := by
  rintro before token after rfl hvariable
  rw [h token (by simp)] at hvariable
  cases hvariable

theorem Follows.append (hfirst : Follows allowed first) (hsecond : Follows allowed second) :
    Follows allowed (first ++ second) := by
  intro before token after htokens hvariable
  rcases List.append_eq_append_iff.1 htokens with ⟨rest, rfl, hrest⟩ | ⟨rest, hfirstTokens, hrest⟩
  · obtain ⟨use, huse, hname, hlead⟩ := hsecond rest token after hrest hvariable
    exact ⟨use, huse, hname, hlead.trans (List.suffix_append first rest)⟩
  · cases rest with
    | nil =>
      rw [List.append_nil] at hfirstTokens
      obtain ⟨use, huse, hname, hlead⟩ := hsecond [] token after hrest.symm hvariable
      exact ⟨use, huse, hname, by
        rw [List.suffix_nil.1 hlead]
        exact List.nil_suffix⟩
    | cons next rest =>
      obtain ⟨rfl, rfl⟩ := List.cons.inj hrest
      exact hfirst before token rest hfirstTokens hvariable

/-- No keyword, sign or operand of a condition is a variable. -/
theorem composes_follows (allowed : List Use) : Composes (Follows allowed) where
  nil := follows_of_constant (List.forall_mem_nil _)
  append := Follows.append
  parenthesized h := by
    have hopening : Follows allowed [.symbol '('] := follows_of_constant (by decide)
    have hclosing : Follows allowed [.symbol ')'] := follows_of_constant (by decide)
    exact (hopening.append h).append hclosing
  connective {token} htoken := by
    have hmasked : ∀ token ∈ connectives, token.isVariable = false := by decide
    have hmask : token.mask.isVariable = token.isVariable := by cases token <;> rfl
    exact follows_of_constant (by simpa [hmask] using hmasked _ htoken)

/-! ## Texts -/

/-- The text is read as tokens with allowed uses of variables, if a separator or nothing follows. -/
def Respects (allowed : List Use) (text : String) : Prop :=
  ∃ tokens, Lexes text tokens ∧ Follows allowed tokens

/-- A text without at signs is read without variables. -/
theorem isVariable_eq_false {text : String} (htokens : tokens? text = some tokens)
    (hat : '@' ∉ text.toList) : ∀ token ∈ tokens, token.isVariable = false := by
  intro token htoken
  rw [← Bool.not_eq_true]
  intro hvariable
  rw [← text_of_tokens? htokens] at hat
  exact hat (List.mem_flatMap.2 ⟨token, htoken, Token.at_mem_text hvariable⟩)

instance (allowed : List Use) (text : String) : Decidable (Respects allowed text) :=
  decidable_of_iff ((closedTokens? text).any fun tokens ↦ Follows allowed tokens)
    (by simp [Respects, Lexes, Option.any_eq_true])

/-- The text can be read on its own, with allowed uses of variables. -/
def StandsUnder (allowed : List Use) (text : String) : Prop :=
  ∃ tokens, Lexes text tokens ∧ Quiet tokens ∧ Follows allowed tokens

instance (allowed : List Use) (text : String) : Decidable (StandsUnder allowed text) :=
  decidable_of_iff
    ((closedTokens? text).any fun tokens ↦ Quiet tokens ∧ Follows allowed tokens)
    (by simp [StandsUnder, Lexes, Option.any_eq_true])

variable {text lead : String}

theorem StandsUnder.stands (h : StandsUnder allowed text) : Stands text := by
  obtain ⟨tokens, hlexes, hquiet, -⟩ := h
  exact ⟨tokens, hlexes, hquiet⟩

theorem StandsUnder.respects (h : StandsUnder allowed text) : Respects allowed text := by
  obtain ⟨tokens, hlexes, -, hfollows⟩ := h
  exact ⟨tokens, hlexes, hfollows⟩

theorem respects_of_lexes (h : Lexes text tokens) (hat : '@' ∉ text.toList) :
    Respects allowed text :=
  ⟨tokens, h, follows_of_constant (isVariable_eq_false h.tokens? hat)⟩

theorem respects_of_stands (h : Stands text) (hat : '@' ∉ text.toList) : Respects allowed text := by
  obtain ⟨tokens, hlexes, -⟩ := h
  exact respects_of_lexes hlexes hat

namespace Respects

variable {first separator second closing : String}

theorem append_lead (hlead : Leads lead) (hat : '@' ∉ lead.toList) (h : Respects allowed text) :
    Respects allowed (lead ++ text) := by
  obtain ⟨leadTokens, hsettles, -⟩ := hlead
  obtain ⟨tokens, hlexes, hfollows⟩ := h
  have hconstant := isVariable_eq_false hsettles.lexes.tokens? hat
  exact ⟨leadTokens ++ tokens, hsettles.append_lexes hlexes,
    (follows_of_constant hconstant).append hfollows⟩

/-- A piece that begins with a separator may end the text. -/
theorem append_end (h : Respects allowed text) {last : List Token}
    (hclosing : Separates closing last) (hat : '@' ∉ closing.toList) :
    Respects allowed (text ++ closing) := by
  obtain ⟨tokens, hlexes, hfollows⟩ := h
  have hconstant := isVariable_eq_false hclosing.1.lexes.tokens? hat
  exact ⟨tokens ++ last, (hlexes.append_separates hclosing).lexes,
    hfollows.append (follows_of_constant hconstant)⟩

theorem glue (hfirst : Respects allowed first) (hseparator : Joins separator)
    (hat : '@' ∉ separator.toList) (hsecond : Respects allowed second) :
    Respects allowed (first ++ separator ++ second) := by
  obtain ⟨firstTokens, hlexes, hfollows⟩ := hfirst
  obtain ⟨gap, hseparates, -⟩ := hseparator
  obtain ⟨secondTokens, hnext, hfollowsNext⟩ := hsecond
  have hconstant := isVariable_eq_false hseparates.1.lexes.tokens? hat
  exact ⟨firstTokens ++ gap ++ secondTokens, hlexes.glue hseparates hnext,
    (hfollows.append (follows_of_constant hconstant)).append hfollowsNext⟩

end Respects

end StagedQuery.Sql
