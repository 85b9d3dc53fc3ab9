import StagedQuery.Proofs.Sql.Expression
import StagedQuery.Proofs.Sql.Lexing

/-!
# Reading Expressions

The reader is followed over the parts of a text.  Tokens complete an operand if they bring the
reader from before an operand to where this operand may end, in every frame.  They fill a frame if
they do so for a whole expression in a fresh frame; parentheses then turn it into an operand.
Operands that are joined by one keyword fill a frame with their join.
-/

namespace StagedQuery.Sql

variable {reader next : Reader} {frame : Frame} {outer : List Frame} {token : Token}
  {tokens first : List Token} {expression : Expression}

/-! ## Steps after an operand -/

namespace Reader

theorem run_cons (h : reader.step token = some next) (rest : List Token) :
    reader.run (token :: rest) = next.run rest := by
  rw [run, List.foldlM_cons, h]
  rfl

theorem run_append (h : reader.run first = some next) (second : List Token) :
    reader.run (first ++ second) = next.run second := by
  unfold run at h ⊢
  rw [List.foldlM_append, h]
  rfl

/-- An operand may end after parentheses, and at the end of an atomic condition. -/
theorem settled_eq_some_iff : reader.settled = some (frame, outer) ↔
    reader = ⟨frame, outer, .complete⟩ ∨
      ∃ previous tokens, reader = ⟨previous, outer, .atom tokens 0 false⟩ ∧
        previous.push (atomOf tokens) = frame := by
  constructor
  · intro h
    unfold settled at h
    split at h
    · next current around =>
      obtain ⟨rfl, rfl⟩ : current = frame ∧ around = outer := by simpa using h
      exact .inl rfl
    · next previous around tokens =>
      obtain ⟨hframe, rfl⟩ : previous.push (atomOf tokens) = frame ∧ around = outer := by
        simpa using h
      exact .inr ⟨previous, tokens, rfl, hframe⟩
    · exact absurd h (by simp)
  · rintro (rfl | ⟨previous, tokens, rfl, rfl⟩)
    · rfl
    · rfl

/-- A blank after an operand changes nothing. -/
theorem step_blank (h : reader.settled = some (frame, outer)) (c : Char) :
    ∃ next, reader.step (.blank c) = some next ∧ next.settled = some (frame, outer) := by
  rcases settled_eq_some_iff.1 h with rfl | ⟨previous, tokens, rfl, rfl⟩
  · exact ⟨⟨frame, outer, .complete⟩, rfl, rfl⟩
  · refine ⟨⟨previous, outer, .atom (tokens ++ [.blank c]) 0 false⟩, rfl, ?_⟩
    have hatom : atomOf (tokens ++ [.blank c]) = atomOf tokens := by
      rw [atomOf, atomOf, List.rdropWhile_concat_pos _ _ _ rfl]
    rw [settled, hatom]

/-- A keyword or a parenthesis after an operand takes the operand into account. -/
theorem step_connective (h : reader.settled = some (frame, outer))
    (hrole : token.role = .and ∨ token.role = .or ∨ token.role = .closing) :
    reader.step token = connect frame outer token.role := by
  rcases settled_eq_some_iff.1 h with rfl | ⟨previous, tokens, rfl, rfl⟩
  · rcases hrole with hrole | hrole | hrole <;> simp [step, hrole]
  · rcases hrole with hrole | hrole | hrole <;> simp [step, settled, continueAtom, hrole]

end Reader

/-! ## Operands -/

namespace Token

def space : Token := .blank ' '

/-- A word between blanks. -/
def spaced (text : String) : List Token := [space, .word text.toList, space]

def parenthesized (tokens : List Token) : List Token := .symbol '(' :: tokens ++ [.symbol ')']

end Token

/-- The tokens are read as one operand. -/
def Completes (tokens : List Token) (expression : Expression) : Prop :=
  ∀ frame outer, ∃ reader, Reader.run ⟨frame, outer, .operand⟩ tokens = some reader ∧
    reader.settled = some (frame.push expression, outer)

/-- The tokens are read as one expression in a frame of its own. -/
def Fills (tokens : List Token) (expression : Expression) : Prop :=
  ∀ outer, ∃ reader frame, Reader.run ⟨{}, outer, .operand⟩ tokens = some reader ∧
    reader.settled = some (frame, outer) ∧ frame.expression = expression

theorem Completes.fills (h : Completes tokens expression) : Fills tokens expression := by
  intro outer
  obtain ⟨reader, hrun, hsettled⟩ := h {} outer
  exact ⟨reader, Frame.push {} expression, hrun, hsettled, rfl⟩

theorem Fills.parenthesized (h : Fills tokens expression) :
    Completes (Token.parenthesized tokens) expression := by
  intro frame outer
  obtain ⟨reader, inner, hrun, hsettled, rfl⟩ := h (frame :: outer)
  have hopen : Reader.step ⟨frame, outer, .operand⟩ (.symbol '(') =
      some ⟨{}, frame :: outer, .operand⟩ := rfl
  have hclose : reader.step (.symbol ')') =
      some ⟨frame.push inner.expression, outer, .complete⟩ :=
    Reader.step_connective hsettled (.inr (.inr rfl))
  refine ⟨⟨frame.push inner.expression, outer, .complete⟩, ?_, rfl⟩
  rw [Token.parenthesized, List.cons_append, Reader.run_cons hopen, Reader.run_append hrun,
    Reader.run_cons hclose]
  rfl

theorem Completes.negated (h : Completes tokens expression) :
    Completes (.word "NOT".toList :: Token.space :: tokens) (.not expression) := by
  intro frame outer
  obtain ⟨reader, hrun, hsettled⟩ := h frame.negate outer
  have hnot : Reader.step ⟨frame, outer, .operand⟩ (.word "NOT".toList) =
      some ⟨frame.negate, outer, .operand⟩ := by simp [Reader.step, Reader.begin, Token.role]
  have hblank : Reader.step ⟨frame.negate, outer, .operand⟩ Token.space =
      some ⟨frame.negate, outer, .operand⟩ := rfl
  refine ⟨reader, ?_, ?_⟩
  · rw [Reader.run_cons hnot, Reader.run_cons hblank, hrun]
  · rw [hsettled]
    rfl

/-! ## Joined operands -/

/-- The frame between operands that are joined by one combinator. -/
def Frame.joining : Combinator → List Expression → Frame
  | .and, operands => { conjuncts := operands }
  | .or, operands => { disjuncts := operands }

theorem Frame.expression_joining (combinator : Combinator) (operands : List Expression)
    (expression : Expression) : ((joining combinator operands).push expression).expression =
      .joined combinator (operands ++ [expression]) := by
  cases combinator <;> rfl

/-- The keyword between blanks leads from one operand to the next one. -/
theorem Reader.run_spaced (combinator : Combinator) (operands : List Expression)
    (hsettled : reader.settled =
      some ((Frame.joining combinator operands).push expression, outer)) :
    reader.run (Token.spaced combinator.keyword) =
      some ⟨Frame.joining combinator (operands ++ [expression]), outer, .operand⟩ := by
  obtain ⟨next, hblank, hnext⟩ := step_blank hsettled ' '
  have hkeyword : next.step (.word combinator.keyword.toList) =
      some ⟨Frame.joining combinator (operands ++ [expression]), outer, .operand⟩ := by
    cases combinator with
    | and => exact step_connective hnext (.inl (by decide))
    | or => exact step_connective hnext (.inr (.inl (by decide)))
  change reader.run (.blank ' ' :: .word combinator.keyword.toList :: [.blank ' ']) = _
  rw [run_cons hblank, run_cons hkeyword]
  rfl

/-- Operands joined by a keyword fill a frame in which earlier ones have been read. -/
theorem Completes.run_intercalate (combinator : Combinator) {tokenLists : List (List Token)}
    {operands : List Expression} (h : List.Forall₂ Completes tokenLists operands)
    (hnonempty : operands ≠ []) (earlier : List Expression) (outer : List Frame) :
    ∃ reader frame, Reader.run ⟨.joining combinator earlier, outer, .operand⟩
        ((Token.spaced combinator.keyword).intercalate tokenLists) = some reader ∧
      reader.settled = some (frame, outer) ∧
      frame.expression = .joined combinator (earlier ++ operands) := by
  induction h generalizing earlier with
  | nil => exact absurd rfl hnonempty
  | @cons tokens expression tokenLists operands hhead htail ih =>
    obtain ⟨reader, hrun, hsettled⟩ := hhead (.joining combinator earlier) outer
    cases htail with
    | nil =>
      refine ⟨reader, _, ?_, hsettled, Frame.expression_joining combinator earlier expression⟩
      simpa using hrun
    | @cons second operand tokenLists operands hsecond htail =>
      have hkeyword := Reader.run_spaced combinator earlier hsettled
      obtain ⟨last, frame, hlast, hframe, hexpression⟩ :=
        ih (List.cons_ne_nil _ _) (earlier ++ [expression])
      refine ⟨last, frame, ?_, hframe, ?_⟩
      · rw [List.intercalate_cons_cons, List.append_assoc, Reader.run_append hrun,
          Reader.run_append hkeyword, hlast]
      · rw [hexpression, List.append_assoc, List.singleton_append]

theorem Completes.fills_intercalate (combinator : Combinator) {tokenLists : List (List Token)}
    {operands : List Expression} (h : List.Forall₂ Completes tokenLists operands)
    (hnonempty : operands ≠ []) :
    Fills ((Token.spaced combinator.keyword).intercalate tokenLists)
      (.joined combinator operands) := by
  intro outer
  have hstart : Frame.joining combinator [] = {} := by cases combinator <;> rfl
  have hrun := Completes.run_intercalate combinator h hnonempty [] outer
  rwa [hstart, List.nil_append] at hrun

/-! ## Whole texts -/

theorem Fills.ofText? {text : String} (h : Fills tokens expression)
    (hlexes : Lexes text tokens) : Expression.ofText? text = some expression := by
  obtain ⟨reader, frame, hrun, hsettled, rfl⟩ := h []
  have hreader : Reader.run {} tokens = some reader := hrun
  simp only [Expression.ofText?, hlexes.tokens?, hreader, Option.bind_eq_bind, Option.bind_some,
    Reader.finish, hsettled]

/-! ## Atomic conditions -/

/-- Most tokens, and blanks, leave the state of an atomic condition alone. -/
theorem continueAtom_inert (state : Nat × Bool) {role : Role}
    (h : role = .other ∨ role = .blank) : continueAtom state role = some state := by
  obtain ⟨depth, between⟩ := state
  rcases h with rfl | rfl <;> cases depth <;> cases between <;> rfl

/-- How an atomic condition goes on over tokens, if it does. -/
def continueOver (state : Nat × Bool) (tokens : List Token) : Option (Nat × Bool) :=
  tokens.foldlM (fun state token ↦ continueAtom state token.role) state

/-- The last token is no blank. -/
def Ends (tokens : List Token) : Prop := tokens.getLast?.any fun token ↦ !token.isBlank

instance (tokens : List Token) : Decidable (Ends tokens) :=
  inferInstanceAs (Decidable (tokens.getLast?.any _))

/-- The tokens make up an atomic condition. -/
structure IsAtom (tokens : List Token) : Prop where
  head : tokens.head?.any fun token ↦ token.role = .other
  last : Ends tokens
  inside : continueOver (0, false) tokens = some (0, false)

instance (tokens : List Token) : Decidable (IsAtom tokens) :=
  decidable_of_iff (tokens.head?.any (fun token ↦ token.role = .other) ∧ Ends tokens ∧
      continueOver (0, false) tokens = some (0, false))
    ⟨fun ⟨head, last, inside⟩ ↦ ⟨head, last, inside⟩, fun h ↦ ⟨h.head, h.last, h.inside⟩⟩

theorem continueOver_append {state middle : Nat × Bool}
    (h : continueOver state first = some middle) (second : List Token) :
    continueOver state (first ++ second) = continueOver middle second := by
  unfold continueOver at h ⊢
  rw [List.foldlM_append, h]
  rfl

/-- The reader stays inside an atomic condition that goes on. -/
theorem Reader.run_atom {earlier : List Token} {state last : Nat × Bool}
    (h : continueOver state tokens = some last) :
    Reader.run ⟨frame, outer, .atom earlier state.1 state.2⟩ tokens =
      some ⟨frame, outer, .atom (earlier ++ tokens) last.1 last.2⟩ := by
  induction tokens generalizing earlier state with
  | nil =>
    obtain rfl : state = last := by simpa [continueOver] using h
    rw [List.append_nil]
    rfl
  | cons token rest ih =>
    simp only [continueOver, List.foldlM_cons, Option.bind_eq_bind, Option.bind_eq_some_iff] at h
    obtain ⟨next, hnext, hrest⟩ := h
    have hstep : Reader.step ⟨frame, outer, .atom earlier state.1 state.2⟩ token =
        some ⟨frame, outer, .atom (earlier ++ [token]) next.1 next.2⟩ := by
      simp [Reader.step, hnext]
    rw [Reader.run_cons hstep, ih hrest, List.append_assoc, List.singleton_append]

/-- The text of an atomic condition is read as that condition. -/
theorem IsAtom.completes {text : String} (h : IsAtom tokens) (hlexes : Lexes text tokens) :
    Completes tokens (.atom text) := by
  intro frame outer
  obtain ⟨first, rest, rfl⟩ : ∃ first rest, tokens = first :: rest := by
    cases tokens with
    | nil => exact absurd h.head (by simp)
    | cons first rest => exact ⟨first, rest, rfl⟩
  have hother : first.role = .other := by simpa using h.head
  have hbegin : Reader.step ⟨frame, outer, .operand⟩ first =
      some ⟨frame, outer, .atom [first] 0 false⟩ := by
    simp [Reader.step, Reader.begin, hother]
  have hinside : continueOver (0, false) rest = some (0, false) := by
    simpa [continueOver, continueAtom_inert _ (.inl hother)] using h.inside
  have hlast : (first :: rest).rdropWhile Token.isBlank = first :: rest := by
    rw [List.rdropWhile_eq_self_iff]
    intro hnonempty
    simpa [Ends, List.getLast?_eq_some_getLast hnonempty] using h.last
  have htext : String.ofList ((first :: rest).flatMap Token.text) = text := by
    rw [text_of_tokens? hlexes.tokens?, String.ofList_toList]
  refine ⟨⟨frame, outer, .atom (first :: rest) 0 false⟩, ?_, ?_⟩
  · rw [Reader.run_cons hbegin]
    exact Reader.run_atom hinside
  · rw [Reader.settled, atomOf, hlast, htext]

end StagedQuery.Sql
