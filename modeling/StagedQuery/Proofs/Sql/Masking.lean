import StagedQuery.Proofs.Sql.Reading

/-!
# Masked Texts

Masking leaves out what the literals and the numbers of a text are.  Two texts are alike if they
have the same tokens up to this, with balanced parentheses and neither a semicolon nor a
declaration in between.  Likeness is kept when alike texts are put into the same surroundings.

Conditions are put together from references of columns and a few fixed tokens.  Properties that are
kept by this, such as quietness, are proved for conditions once.
-/

namespace StagedQuery.Sql

variable {first second : List Token}

/-! ## Masks -/

namespace Token

/-- The token, without the value of a literal or a number. -/
def mask : Token → Token
  | .number _ | .literal _ => .literal []
  | token => token

@[simp]
theorem role_mask (token : Token) : token.mask.role = token.role := by cases token <;> rfl

/-- How many parentheses are open after the token; none may be closed that is not open. -/
def nest (depth : Nat) (token : Token) : Option Nat :=
  match token.role with
  | .opening => some (depth + 1)
  | .closing => if depth = 0 then none else some (depth - 1)
  | _ => some depth

def semicolon : Token := .symbol ';'

def declare : Token := .word "DECLARE".toList

end Token

theorem map_intercalate {α β : Type} (f : α → β) (gap : List α) (items : List (List α)) :
    (gap.intercalate items).map f = (gap.map f).intercalate (items.map (List.map f)) := by
  induction items with
  | nil => rfl
  | cons item rest ih =>
    cases rest with
    | nil => simp
    | cons second rest =>
      rw [List.intercalate_cons_cons, List.map_append, List.map_append, ih]
      simp only [List.map_cons, List.intercalate_cons_cons]

/-! ## Balanced parentheses -/

/-- How many parentheses are open after the tokens. -/
def nesting (depth : Nat) (tokens : List Token) : Option Nat := tokens.foldlM Token.nest depth

theorem nesting_cons (depth : Nat) (token : Token) (rest : List Token) :
    nesting depth (token :: rest) = (token.nest depth).bind fun depth ↦ nesting depth rest := rfl

theorem nesting_append {depth middle : Nat} (h : nesting depth first = some middle) :
    nesting depth (first ++ second) = nesting middle second := by
  unfold nesting at h ⊢
  rw [List.foldlM_append, h]
  rfl

theorem Token.nest_add {token : Token} {depth last : Nat} (h : token.nest depth = some last)
    (outer : Nat) : token.nest (depth + outer) = some (last + outer) := by
  unfold nest at h ⊢
  split at h
  · obtain rfl : depth + 1 = last := by simpa using h
    congr 1
    omega
  · by_cases hdepth : depth = 0
    · simp [hdepth] at h
    · obtain rfl : depth - 1 = last := by simpa [hdepth] using h
      rw [if_neg (by omega)]
      congr 1
      omega
  · obtain rfl : depth = last := by simpa using h
    rfl

/-- Parentheses around the tokens make no difference to them. -/
theorem nesting_add {depth last : Nat} {tokens : List Token} (h : nesting depth tokens = some last)
    (outer : Nat) : nesting (depth + outer) tokens = some (last + outer) := by
  induction tokens generalizing depth with
  | nil =>
    obtain rfl : depth = last := by simpa [nesting] using h
    rfl
  | cons token rest ih =>
    rw [nesting_cons, Option.bind_eq_some_iff] at h
    obtain ⟨next, hnext, hrest⟩ := h
    rw [nesting_cons, Token.nest_add hnext, Option.bind_some, ih hrest]

theorem nesting_map_mask (depth : Nat) (tokens : List Token) :
    nesting depth (tokens.map Token.mask) = nesting depth tokens := by
  have hnest (depth : Nat) (token : Token) : token.mask.nest depth = token.nest depth := by
    simp only [Token.nest, Token.role_mask]
  unfold nesting
  rw [List.foldlM_map]
  simp only [hnest]

/-! ## Quiet tokens -/

/-- The tokens balance their parentheses, and neither end a statement nor declare a variable. -/
structure Quiet (tokens : List Token) : Prop where
  balanced : nesting 0 tokens = some 0
  inner : ∀ token ∈ tokens, token ≠ Token.semicolon ∧ token ≠ Token.declare

instance (tokens : List Token) : Decidable (Quiet tokens) :=
  decidable_of_iff (nesting 0 tokens = some 0 ∧
      ∀ token ∈ tokens, token ≠ Token.semicolon ∧ token ≠ Token.declare)
    ⟨fun ⟨balanced, inner⟩ ↦ ⟨balanced, inner⟩, fun h ↦ ⟨h.balanced, h.inner⟩⟩

theorem Quiet.nesting_eq {tokens : List Token} (h : Quiet tokens) (depth : Nat) :
    nesting depth tokens = some depth := by
  simpa using nesting_add h.balanced depth

theorem quiet_nil : Quiet [] := by decide

theorem Quiet.append (hfirst : Quiet first) (hsecond : Quiet second) : Quiet (first ++ second) where
  balanced := by rw [nesting_append hfirst.balanced, hsecond.balanced]
  inner token htoken :=
    (List.mem_append.1 htoken).elim (hfirst.inner token) (hsecond.inner token)

theorem Quiet.parenthesized {tokens : List Token} (h : Quiet tokens) :
    Quiet (Token.parenthesized tokens) where
  balanced := by
    have hinside : nesting 1 tokens = some 1 := h.nesting_eq 1
    change nesting 1 (tokens ++ [.symbol ')']) = some 0
    rw [nesting_append hinside]
    rfl
  inner := by
    intro token htoken
    simp only [Token.parenthesized, List.cons_append, List.mem_cons, List.mem_append,
      List.not_mem_nil, or_false] at htoken
    rcases htoken with rfl | htoken | rfl
    · decide
    · exact h.inner token htoken
    · decide

theorem quiet_map_mask {tokens : List Token} : Quiet (tokens.map Token.mask) ↔ Quiet tokens := by
  have hinner (token : Token) : token.mask ≠ Token.semicolon ∧ token.mask ≠ Token.declare ↔
      token ≠ Token.semicolon ∧ token ≠ Token.declare := by
    cases token <;> simp [Token.mask, Token.semicolon, Token.declare]
  constructor
  · rintro ⟨balanced, inner⟩
    rw [nesting_map_mask] at balanced
    exact ⟨balanced, fun token htoken ↦ (hinner token).1 (inner _ (List.mem_map_of_mem htoken))⟩
  · rintro ⟨balanced, inner⟩
    refine ⟨by rwa [nesting_map_mask], fun token htoken ↦ ?_⟩
    obtain ⟨origin, horigin, rfl⟩ := List.mem_map.1 htoken
    exact (hinner origin).2 (inner origin horigin)

/-! ## Composed tokens -/

/-- The masked tokens of conditions, besides references and parentheses. -/
def connectives : List Token :=
  [.literal [], .blank ' '] ++ ",=<>!".toList.map .symbol ++
    ["AND", "OR", "NOT", "LIKE", "BETWEEN", "IN", "IS", "NULL"].map (.word ·.toList)

/-- A property that tokens keep when they are put together as conditions are. -/
structure Composes (property : List Token → Prop) : Prop where
  nil : property []
  append {first second : List Token} : property first → property second → property (first ++ second)
  parenthesized {tokens : List Token} : property tokens → property (Token.parenthesized tokens)
  connective {token : Token} : token.mask ∈ connectives → property [token]

namespace Composes

variable {property : List Token → Prop}

theorem of_connectives (h : Composes property) {tokens : List Token}
    (htokens : ∀ token ∈ tokens, token.mask ∈ connectives) : property tokens := by
  induction tokens with
  | nil => exact h.nil
  | cons token rest ih =>
    obtain ⟨htoken, hrest⟩ := List.forall_mem_cons.1 htokens
    exact h.append (h.connective htoken) (ih hrest)

theorem intercalate (h : Composes property) {gap : List Token} (hgap : property gap)
    {tokenLists : List (List Token)} (htokens : ∀ tokens ∈ tokenLists, property tokens) :
    property (gap.intercalate tokenLists) := by
  induction tokenLists with
  | nil => exact h.nil
  | cons tokens rest ih =>
    obtain ⟨hfirst, hrest⟩ := List.forall_mem_cons.1 htokens
    cases rest with
    | nil => simpa using hfirst
    | cons second rest =>
      rw [List.intercalate_cons_cons]
      exact h.append (h.append hfirst hgap) (ih hrest)

end Composes

theorem composes_quiet : Composes Quiet where
  nil := quiet_nil
  append := Quiet.append
  parenthesized := Quiet.parenthesized
  connective {token} htoken := by
    have hmasked : ∀ token ∈ connectives, Quiet [token] := by decide
    rw [← quiet_map_mask]
    exact hmasked _ htoken

/-! ## Pieces of texts -/

/-- The text is read as quiet tokens if a separator or nothing follows it. -/
def Stands (text : String) : Prop := ∃ tokens, Lexes text tokens ∧ Quiet tokens

/-- The text is read as quiet tokens, whatever follows it. -/
def Leads (text : String) : Prop := ∃ tokens, Settles text tokens ∧ Quiet tokens

/-- The text begins with a separator and is read as quiet tokens, whatever follows it. -/
def Joins (text : String) : Prop := ∃ tokens, Separates text tokens ∧ Quiet tokens

instance (text : String) : Decidable (Stands text) :=
  decidable_of_iff ((closedTokens? text).any fun tokens ↦ Quiet tokens)
    (by simp [Stands, Lexes, Option.any_eq_true])

instance (text : String) : Decidable (Leads text) :=
  decidable_of_iff ((run .ready text.toList).any fun result ↦ result.2 = .ready ∧ Quiet result.1)
    (by simp [Leads, Settles, Option.any_eq_true])

instance (text : String) : Decidable (Joins text) :=
  decidable_of_iff (Leads text ∧ text.toList.head?.any separators.contains)
    ⟨fun ⟨⟨tokens, hsettles, hquiet⟩, hhead⟩ ↦ ⟨tokens, ⟨hsettles, hhead⟩, hquiet⟩,
      fun ⟨tokens, ⟨hsettles, hhead⟩, hquiet⟩ ↦ ⟨⟨tokens, hsettles, hquiet⟩, hhead⟩⟩

/-! ## Alike texts -/

/-- The texts have the same quiet tokens, up to the values of literals and numbers. -/
def Alike (first second : String) : Prop :=
  ∃ firstTokens secondTokens, Lexes first firstTokens ∧ Lexes second secondTokens ∧
    firstTokens.map Token.mask = secondTokens.map Token.mask ∧ Quiet firstTokens

theorem Stands.alike {text : String} (h : Stands text) : Alike text text := by
  obtain ⟨tokens, hlexes, hquiet⟩ := h
  exact ⟨tokens, tokens, hlexes, hlexes, rfl, hquiet⟩

namespace Alike

variable {first second third fourth lead separator opening closing : String}

theorem append_lead (hlead : Leads lead) (h : Alike first second) :
    Alike (lead ++ first) (lead ++ second) := by
  obtain ⟨leadTokens, hsettles, hquietLead⟩ := hlead
  obtain ⟨firstTokens, secondTokens, hfirst, hsecond, hmask, hquiet⟩ := h
  refine ⟨leadTokens ++ firstTokens, leadTokens ++ secondTokens, hsettles.append_lexes hfirst,
    hsettles.append_lexes hsecond, ?_, hquietLead.append hquiet⟩
  rw [List.map_append, List.map_append, hmask]

theorem glue (h : Alike first second) (hseparator : Joins separator) (hnext : Alike third fourth) :
    Alike (first ++ separator ++ third) (second ++ separator ++ fourth) := by
  obtain ⟨gap, hseparates, hquietGap⟩ := hseparator
  obtain ⟨firstTokens, secondTokens, hfirst, hsecond, hmask, hquiet⟩ := h
  obtain ⟨thirdTokens, fourthTokens, hthird, hfourth, hmaskNext, hquietNext⟩ := hnext
  refine ⟨firstTokens ++ gap ++ thirdTokens, secondTokens ++ gap ++ fourthTokens,
    hfirst.glue hseparates hthird, hsecond.glue hseparates hfourth, ?_,
    (hquiet.append hquietGap).append hquietNext⟩
  simp only [List.map_append, hmask, hmaskNext]

theorem intercalate (hseparator : Joins separator) {firsts seconds : List String}
    (h : List.Forall₂ Alike firsts seconds) :
    Alike (separator.intercalate firsts) (separator.intercalate seconds) := by
  induction h with
  | nil =>
    rw [String.intercalate_nil]
    exact Stands.alike ⟨[], lexes_empty, quiet_nil⟩
  | @cons first second firsts seconds hhead htail ih =>
    cases htail with
    | nil => simpa using hhead
    | cons hnext htail =>
      rw [String.intercalate_cons_cons, String.intercalate_cons_cons]
      exact hhead.glue hseparator ih

/-- Alike texts in parentheses, with quiet tokens on both sides of each of these. -/
theorem enclose {before inside trailing after : List Token}
    (hopening : Settles opening (before ++ .symbol '(' :: inside))
    (hclosing : Separates closing (trailing ++ .symbol ')' :: after))
    (hquiet : Quiet before ∧ Quiet inside ∧ Quiet trailing ∧ Quiet after)
    (h : Alike first second) :
    Alike (opening ++ first ++ closing) (opening ++ second ++ closing) := by
  obtain ⟨hbefore, hinside, htrailing, hafter⟩ := hquiet
  obtain ⟨firstTokens, secondTokens, hfirst, hsecond, hmask, hquietFirst⟩ := h
  have henclosed : Quiet (before ++ Token.parenthesized (inside ++ firstTokens ++ trailing) ++
      after) :=
    (hbefore.append ((hinside.append hquietFirst).append htrailing).parenthesized).append hafter
  refine ⟨_, _, ((hopening.append_lexes hfirst).append_separates hclosing).lexes,
    ((hopening.append_lexes hsecond).append_separates hclosing).lexes, ?_, ?_⟩
  · simp only [List.map_append, hmask]
  · simpa [Token.parenthesized] using henclosed

end Alike

end StagedQuery.Sql
