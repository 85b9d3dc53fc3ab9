import StagedQuery.Text.Quoted
import Mathlib.Data.List.Basic

/-!
# Tokens of the Query Language

A text of the query language is a sequence of words, bracketed names, numbers, quoted literals,
comments, symbols and blanks.  The scanner is a machine that reads one character at a time: its
mode holds the token that is not finished yet.  Reading is lossless, so the texts of the tokens
joined together are the text that was read.
-/

namespace StagedQuery.Sql

inductive Token where
  /-- A keyword, a name or a variable. -/
  | word (text : List Char)
  /-- A name in brackets, without them. -/
  | bracketed (text : List Char)
  /-- A number, which may have a sign and a point. -/
  | number (text : List Char)
  /-- A quoted literal, by the text that it denotes. -/
  | literal (text : List Char)
  | lineComment (text : List Char)
  | blockComment (text : List Char)
  | symbol (character : Char)
  | blank (character : Char)
deriving DecidableEq

namespace Token

/-- The text of a token as it stands in the query. -/
def text : Token → List Char
  | .word text | .number text => text
  | .bracketed text => '[' :: text ++ [']']
  | .literal text => '\'' :: Text.doubleQuotes text ++ ['\'']
  | .lineComment text => '-' :: '-' :: text
  | .blockComment text => '/' :: '*' :: text ++ ['*', '/']
  | .symbol character | .blank character => [character]

def isBlank : Token → Bool
  | .blank _ => true
  | _ => false

end Token

/-! ## Characters -/

def isBlank (c : Char) : Bool := c = ' ' || c = '\n' || c = '\t' || c = '\r'

def startsWord (c : Char) : Bool := c.isAlpha || c = '_' || c = '@'

def continuesWord (c : Char) : Bool := startsWord c || c.isDigit

def isSymbol (c : Char) : Bool := "(),.;=<>!*+".toList.contains c

/-- The characters that end every word, number and literal. -/
def separators : List Char := [' ', '\n', '(', ')', ',', ';']

/-! ## Scanning -/

/-- What the scanner is in the middle of. -/
inductive Mode where
  | ready
  | word (text : List Char)
  | number (text : List Char)
  /-- After a minus, which may begin a number or a comment. -/
  | minus
  /-- After a slash, which may begin a comment. -/
  | slash
  | literal (text : List Char)
  /-- After a quote inside a literal, which ends it unless a second one follows. -/
  | quote (text : List Char)
  | bracketed (text : List Char)
  | lineComment (text : List Char)
  | blockComment (text : List Char)
  /-- After a star inside a comment. -/
  | star (text : List Char)
deriving DecidableEq

namespace Mode

/-- The first character of a token. -/
def start (c : Char) : Option (List Token × Mode) :=
  if isBlank c then some ([.blank c], .ready)
  else if startsWord c then some ([], .word [c])
  else if c.isDigit then some ([], .number [c])
  else if c = '\'' then some ([], .literal [])
  else if c = '[' then some ([], .bracketed [])
  else if c = '-' then some ([], .minus)
  else if c = '/' then some ([], .slash)
  else if isSymbol c then some ([.symbol c], .ready)
  else none

/-- The first character of the token after a finished one. -/
def startAfter (token : Token) (c : Char) : Option (List Token × Mode) :=
  (start c).map fun (tokens, mode) ↦ (token :: tokens, mode)

/-- The tokens that a character finishes, and the mode after it. -/
def step : Mode → Char → Option (List Token × Mode)
  | .ready, c => start c
  | .word text, c =>
    if continuesWord c then some ([], .word (text ++ [c])) else startAfter (.word text) c
  | .number text, c =>
    if c.isDigit || (c = '.' && !text.contains '.') then some ([], .number (text ++ [c]))
    else startAfter (.number text) c
  | .minus, c =>
    if c = '-' then some ([], .lineComment [])
    else if c.isDigit then some ([], .number ['-', c])
    else startAfter (.symbol '-') c
  | .slash, c =>
    if c = '*' then some ([], .blockComment []) else startAfter (.symbol '/') c
  | .literal text, c =>
    if c = '\'' then some ([], .quote text) else some ([], .literal (text ++ [c]))
  | .quote text, c =>
    if c = '\'' then some ([], .literal (text ++ ['\''])) else startAfter (.literal text) c
  | .bracketed text, c =>
    if c = ']' then some ([.bracketed text], .ready) else some ([], .bracketed (text ++ [c]))
  | .lineComment text, c =>
    if c = '\n' then some ([.lineComment text, .blank c], .ready)
    else some ([], .lineComment (text ++ [c]))
  | .blockComment text, c =>
    if c = '*' then some ([], .star text) else some ([], .blockComment (text ++ [c]))
  | .star text, c =>
    if c = '/' then some ([.blockComment text], .ready)
    else if c = '*' then some ([], .star (text ++ ['*']))
    else some ([], .blockComment (text ++ ['*', c]))

/-- The token that is finished by the end of the text or by a separator.  A line comment goes on
over separators, and literals, names and comments that are still open do too. -/
def closing : Mode → Option (List Token)
  | .ready => some []
  | .word text => some [.word text]
  | .number text => some [.number text]
  | .minus => some [.symbol '-']
  | .slash => some [.symbol '/']
  | .quote text => some [.literal text]
  | _ => none

/-- The token that is finished by the end of the text. -/
def finish : Mode → Option (List Token)
  | .lineComment text => some [.lineComment text]
  | mode => mode.closing

/-- The characters read since the last finished token. -/
def pending : Mode → List Char
  | .ready => []
  | .word text | .number text => text
  | .minus => ['-']
  | .slash => ['/']
  | .literal text => '\'' :: Text.doubleQuotes text
  | .quote text => '\'' :: Text.doubleQuotes text ++ ['\'']
  | .bracketed text => '[' :: text
  | .lineComment text => '-' :: '-' :: text
  | .blockComment text => '/' :: '*' :: text
  | .star text => '/' :: '*' :: text ++ ['*']

end Mode

/-- The tokens that a text finishes, and the mode after it. -/
def run : Mode → List Char → Option (List Token × Mode)
  | mode, [] => some ([], mode)
  | mode, c :: rest => do
    let (tokens, next) ← mode.step c
    let (later, last) ← run next rest
    return (tokens ++ later, last)

/-- The tokens of a whole text. -/
def tokens? (text : String) : Option (List Token) := do
  let (tokens, mode) ← run .ready text.toList
  return tokens ++ (← mode.finish)

/-! ## Running over texts -/

theorem run_cons {mode next last : Mode} {c : Char} {rest : List Char} {tokens later : List Token}
    (hstep : mode.step c = some (tokens, next)) (hrest : run next rest = some (later, last)) :
    run mode (c :: rest) = some (tokens ++ later, last) := by
  rw [run, hstep]
  change (run next rest >>= fun x ↦ some (tokens ++ x.1, x.2)) = _
  rw [hrest]
  rfl

/-- Scanning goes on from the mode that the first part leaves. -/
theorem run_append {mode next last : Mode} {first second : List Char}
    {tokens later : List Token} (hfirst : run mode first = some (tokens, next))
    (hsecond : run next second = some (later, last)) :
    run mode (first ++ second) = some (tokens ++ later, last) := by
  induction first generalizing mode tokens with
  | nil =>
    obtain ⟨rfl, rfl⟩ : [] = tokens ∧ mode = next := by simpa [run] using hfirst
    exact hsecond
  | cons c rest ih =>
    simp only [run, Option.bind_eq_bind, Option.bind_eq_some_iff] at hfirst
    obtain ⟨⟨emitted, middle⟩, hstep, ⟨remaining, last'⟩, hrest, hresult⟩ := hfirst
    obtain ⟨rfl, rfl⟩ : emitted ++ remaining = tokens ∧ last' = next := by simpa using hresult
    rw [List.cons_append, List.append_assoc]
    exact run_cons hstep (ih hrest)

/-! ## Nothing is lost -/

theorem pending_start {c : Char} {tokens : List Token} {mode : Mode}
    (h : Mode.start c = some (tokens, mode)) : tokens.flatMap Token.text ++ mode.pending = [c] := by
  unfold Mode.start at h
  split_ifs at h <;> simp_all [Mode.pending] <;>
    (obtain ⟨rfl, rfl⟩ := h; simp [Token.text, Text.doubleQuotes])

theorem pending_startAfter {token : Token} {c : Char} {tokens : List Token} {mode : Mode}
    (h : Mode.startAfter token c = some (tokens, mode)) :
    tokens.flatMap Token.text ++ mode.pending = token.text ++ [c] := by
  obtain ⟨⟨later, next⟩, hstart, hresult⟩ := Option.map_eq_some_iff.1 h
  obtain ⟨rfl, rfl⟩ : token :: later = tokens ∧ next = mode := by simpa using hresult
  rw [List.flatMap_cons, List.append_assoc, pending_start hstart]

/-- A character is added to what is pending, and finished tokens are taken from it. -/
theorem pending_step {mode next : Mode} {c : Char} {tokens : List Token}
    (h : mode.step c = some (tokens, next)) :
    tokens.flatMap Token.text ++ next.pending = mode.pending ++ [c] := by
  cases mode <;> simp only [Mode.step] at h
  case ready => exact pending_start h
  all_goals split_ifs at h
  -- Either the token before the character is finished, or the mode keeps the character.
  all_goals first
    | exact pending_startAfter h
    | obtain ⟨rfl, rfl⟩ : _ ∧ _ := by simpa using h
      simp_all [Token.text, Mode.pending, Text.doubleQuotes]

theorem pending_run {mode last : Mode} {text : List Char} {tokens : List Token}
    (h : run mode text = some (tokens, last)) :
    tokens.flatMap Token.text ++ last.pending = mode.pending ++ text := by
  induction text generalizing mode tokens with
  | nil =>
    obtain ⟨rfl, rfl⟩ : [] = tokens ∧ mode = last := by simpa [run] using h
    simp
  | cons c rest ih =>
    simp only [run, Option.bind_eq_bind, Option.bind_eq_some_iff] at h
    obtain ⟨⟨emitted, middle⟩, hstep, ⟨remaining, last'⟩, hrest, hresult⟩ := h
    obtain ⟨rfl, rfl⟩ : emitted ++ remaining = tokens ∧ last' = last := by simpa using hresult
    calc
      _ = emitted.flatMap Token.text ++ (remaining.flatMap Token.text ++ last'.pending) := by
        rw [List.flatMap_append, List.append_assoc]
      _ = emitted.flatMap Token.text ++ middle.pending ++ rest := by
        rw [ih hrest, List.append_assoc]
      _ = mode.pending ++ [c] ++ rest := by rw [pending_step hstep]
      _ = mode.pending ++ c :: rest := by rw [List.append_assoc, List.singleton_append]

theorem pending_finish {mode : Mode} {tokens : List Token} (h : mode.finish = some tokens) :
    tokens.flatMap Token.text = mode.pending := by
  cases mode <;> simp only [Mode.finish, Mode.closing, Option.some.injEq, reduceCtorEq] at h <;>
    subst h <;> simp [Token.text, Mode.pending]

/-- The texts of the tokens make up the text that was read. -/
theorem text_of_tokens? {text : String} {tokens : List Token} (h : tokens? text = some tokens) :
    tokens.flatMap Token.text = text.toList := by
  simp only [tokens?, Option.bind_eq_bind, Option.bind_eq_some_iff] at h
  obtain ⟨⟨finished, mode⟩, hrun, last, hlast, hresult⟩ := h
  obtain rfl : finished ++ last = tokens := by simpa using hresult
  calc
    _ = finished.flatMap Token.text ++ mode.pending := by
      rw [List.flatMap_append, pending_finish hlast]
    _ = Mode.ready.pending ++ text.toList := pending_run hrun
    _ = text.toList := rfl

end StagedQuery.Sql
