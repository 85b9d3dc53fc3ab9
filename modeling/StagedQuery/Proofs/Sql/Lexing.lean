import StagedQuery.Proofs.Sql.Token
import Mathlib.Data.List.Forall2

/-!
# Reading Texts Piece by Piece

The tokens of a long text are those of its pieces if no token runs over the end of a piece.  Two
forms of this are enough here: a piece may settle, so that anything can follow it, or it may be
complete as soon as a separator or nothing follows.  Pieces of the second form are joined by pieces
of the first form that begin with a separator.
-/

namespace StagedQuery.Sql

/-- The tokens of a text that a separator or nothing follows. -/
def closedTokens? (text : String) : Option (List Token) := do
  let (tokens, mode) ← run .ready text.toList
  return tokens ++ (← mode.closing)

/-- The text is read as the tokens if a separator or nothing follows it. -/
def Lexes (text : String) (tokens : List Token) : Prop := closedTokens? text = some tokens

/-- The text is read as the tokens, whatever follows it. -/
def Settles (text : String) (tokens : List Token) : Prop :=
  run .ready text.toList = some (tokens, .ready)

/-- The text begins with a separator and is read as the tokens, whatever follows it. -/
def Separates (text : String) (tokens : List Token) : Prop :=
  Settles text tokens ∧ text.toList.head?.any separators.contains

instance (text : String) (tokens : List Token) : Decidable (Lexes text tokens) :=
  inferInstanceAs (Decidable (closedTokens? text = some tokens))

instance (text : String) (tokens : List Token) : Decidable (Settles text tokens) :=
  inferInstanceAs (Decidable (run .ready text.toList = some (tokens, .ready)))

instance (text : String) (tokens : List Token) : Decidable (Separates text tokens) :=
  inferInstanceAs (Decidable (Settles text tokens ∧ _))

variable {first second text separator : String} {firstTokens secondTokens tokens gap : List Token}

theorem lexes_iff : Lexes text tokens ↔
    ∃ finished mode last, run .ready text.toList = some (finished, mode) ∧
      mode.closing = some last ∧ tokens = finished ++ last := by
  simp only [Lexes, closedTokens?, Option.bind_eq_bind, Option.bind_eq_some_iff]
  constructor
  · rintro ⟨⟨finished, mode⟩, hrun, last, hlast, hresult⟩
    exact ⟨finished, mode, last, hrun, hlast, by simpa using hresult.symm⟩
  · rintro ⟨finished, mode, last, hrun, hlast, rfl⟩
    exact ⟨⟨finished, mode⟩, hrun, last, hlast, rfl⟩

theorem Settles.lexes (h : Settles text tokens) : Lexes text tokens :=
  lexes_iff.2 ⟨tokens, .ready, [], h, rfl, (List.append_nil tokens).symm⟩

theorem Mode.finish_of_closing {mode : Mode} (h : mode.closing = some tokens) :
    mode.finish = some tokens := by
  cases mode <;> simp_all [Mode.finish, Mode.closing]

theorem Lexes.tokens? (h : Lexes text tokens) : Sql.tokens? text = some tokens := by
  obtain ⟨finished, mode, last, hrun, hlast, rfl⟩ := lexes_iff.1 h
  simp only [Sql.tokens?, hrun, Option.bind_eq_bind, Option.bind_some,
    Mode.finish_of_closing hlast]
  rfl

/-! ## Separators -/

theorem separator_facts : ∀ c ∈ separators, continuesWord c = false ∧ c.isDigit = false ∧
    c ≠ '.' ∧ c ≠ '-' ∧ c ≠ '*' ∧ c ≠ '\'' := by
  intro c hc
  simp only [separators, List.mem_cons, List.not_mem_nil, or_false] at hc
  rcases hc with rfl | rfl | rfl | rfl | rfl | rfl <;> decide

/-- A separator finishes the token before it. -/
theorem Mode.step_of_closing {mode : Mode} {c : Char} {last : List Token}
    (hlast : mode.closing = some last) (hc : c ∈ separators) :
    mode.step c = (Mode.start c).map fun (tokens, next) ↦ (last ++ tokens, next) := by
  obtain ⟨hword, hdigit, hpoint, hminus, hstar, hquote⟩ := separator_facts c hc
  cases mode <;> simp only [Mode.closing, Option.some.injEq, reduceCtorEq] at hlast <;> subst hlast
  case ready => simp [Mode.step]
  all_goals simp [Mode.step, Mode.startAfter, hword, hdigit, hpoint, hminus, hstar, hquote]

theorem Lexes.append_separates (hfirst : Lexes first firstTokens)
    (hsecond : Separates second secondTokens) :
    Settles (first ++ second) (firstTokens ++ secondTokens) := by
  obtain ⟨finished, mode, last, hrun, hlast, rfl⟩ := lexes_iff.1 hfirst
  obtain ⟨hsettles, hhead⟩ := hsecond
  obtain ⟨c, rest, hsecond⟩ : ∃ c rest, second.toList = c :: rest := by
    cases hsecond : second.toList with
    | nil => simp [hsecond] at hhead
    | cons c rest => exact ⟨c, rest, rfl⟩
  have hc : c ∈ separators := by simpa [hsecond] using hhead
  rw [Settles, hsecond, run] at hsettles
  simp only [Mode.step, Option.bind_eq_bind, Option.bind_eq_some_iff] at hsettles
  obtain ⟨⟨started, next⟩, hstart, ⟨later, last'⟩, hrest, hresult⟩ := hsettles
  obtain ⟨rfl, rfl⟩ : started ++ later = secondTokens ∧ last' = .ready := by simpa using hresult
  have hstep : mode.step c = some (last ++ started, next) := by
    rw [Mode.step_of_closing hlast hc, hstart, Option.map_some]
  have hcontinued := run_cons hstep hrest
  rw [Settles, String.toList_append, hsecond, List.append_assoc, ← List.append_assoc last]
  exact run_append hrun hcontinued

/-! ## Joining pieces -/

theorem Settles.append (hfirst : Settles first firstTokens)
    (hsecond : Settles second secondTokens) :
    Settles (first ++ second) (firstTokens ++ secondTokens) := by
  rw [Settles, String.toList_append]
  exact run_append hfirst hsecond

theorem Settles.append_lexes (hfirst : Settles first firstTokens)
    (hsecond : Lexes second secondTokens) :
    Lexes (first ++ second) (firstTokens ++ secondTokens) := by
  obtain ⟨finished, mode, last, hrun, hlast, rfl⟩ := lexes_iff.1 hsecond
  refine lexes_iff.2 ⟨firstTokens ++ finished, mode, last, ?_, hlast, ?_⟩
  · rw [String.toList_append]
    exact run_append hfirst hrun
  · rw [List.append_assoc]

/-- Two pieces with a separating one between them. -/
theorem Lexes.glue (hfirst : Lexes first firstTokens) (hseparator : Separates separator gap)
    (hsecond : Lexes second secondTokens) :
    Lexes (first ++ separator ++ second) (firstTokens ++ gap ++ secondTokens) :=
  (hfirst.append_separates hseparator).append_lexes hsecond

/-! ## Whole texts -/

theorem tokens?_eq_some_iff : tokens? text = some tokens ↔
    ∃ finished mode last, run .ready text.toList = some (finished, mode) ∧
      mode.finish = some last ∧ tokens = finished ++ last := by
  simp only [tokens?, Option.bind_eq_bind, Option.bind_eq_some_iff]
  constructor
  · rintro ⟨⟨finished, mode⟩, hrun, last, hlast, hresult⟩
    exact ⟨finished, mode, last, hrun, hlast, by simpa using hresult.symm⟩
  · rintro ⟨finished, mode, last, hrun, hlast, rfl⟩
    exact ⟨⟨finished, mode⟩, hrun, last, hlast, rfl⟩

/-- A new line finishes whatever the end of the text finishes, also a comment. -/
theorem settles_line (h : tokens? text = some tokens) :
    Settles (text ++ "\n") (tokens ++ [.blank '\n']) := by
  obtain ⟨finished, mode, last, hrun, hlast, rfl⟩ := tokens?_eq_some_iff.1 h
  have hstep : mode.step '\n' = some (last ++ [.blank '\n'], .ready) := by
    have hclosing (hclosing : mode.closing = some last) :
        mode.step '\n' = some (last ++ [.blank '\n'], .ready) :=
      Mode.step_of_closing hclosing (by decide)
    cases mode with
    | lineComment comment =>
      obtain rfl := Option.some.inj hlast
      rfl
    | _ => exact hclosing hlast
  have hline : run mode ['\n'] = some (last ++ [.blank '\n'], .ready) := by
    have hrest : run .ready [] = some ([], .ready) := rfl
    rw [run_cons hstep hrest, List.append_nil]
  rw [Settles, String.toList_append, List.append_assoc]
  exact run_append hrun hline

theorem Settles.append_tokens? (hfirst : Settles first firstTokens)
    (hsecond : tokens? second = some secondTokens) :
    tokens? (first ++ second) = some (firstTokens ++ secondTokens) := by
  obtain ⟨finished, mode, last, hrun, hlast, rfl⟩ := tokens?_eq_some_iff.1 hsecond
  refine tokens?_eq_some_iff.2 ⟨firstTokens ++ finished, mode, last, ?_, hlast, ?_⟩
  · rw [String.toList_append]
    exact run_append hfirst hrun
  · rw [List.append_assoc]

theorem settles_blanks (count : Nat) :
    Settles (String.ofList (List.replicate count ' ')) (List.replicate count (.blank ' ')) := by
  rw [Settles, String.toList_ofList]
  induction count with
  | zero => rfl
  | succ count ih =>
    have hblank : Mode.step .ready ' ' = some ([.blank ' '], .ready) := rfl
    exact run_cons hblank ih

theorem forall₂_map {α β γ : Type} {relation : β → γ → Prop} {first : α → β} {second : α → γ}
    {items : List α} (h : ∀ item ∈ items, relation (first item) (second item)) :
    List.Forall₂ relation (items.map first) (items.map second) := by
  rw [List.forall₂_map_left_iff, List.forall₂_map_right_iff, List.forall₂_same]
  exact h

theorem lexes_empty : Lexes "" [] := by decide

/-- Any number of pieces with separating ones between them. -/
theorem Lexes.intercalate (hseparator : Separates separator gap) {texts : List String}
    {tokenLists : List (List Token)} (h : List.Forall₂ Lexes texts tokenLists) :
    Lexes (separator.intercalate texts) (gap.intercalate tokenLists) := by
  induction h with
  | nil =>
    rw [String.intercalate_nil]
    exact lexes_empty
  | @cons text tokens texts tokenLists hhead htail ih =>
    cases htail with
    | nil => simpa using hhead
    | cons hsecond htail =>
      rw [String.intercalate_cons_cons, List.intercalate_cons_cons]
      exact hhead.glue hseparator ih

end StagedQuery.Sql
