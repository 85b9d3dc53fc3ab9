import StagedQuery.Proofs.Sql.Masking

/-!
# Columns in Expressions

An expression names columns, perhaps behind the name of a relation and a point.  What else it names
are functions, which a parenthesis follows, types, which follow AS, the parts of a date, and
variables.  The reader goes through the tokens once and keeps the parentheses that are open, so that
it knows of every column whether it stands inside an aggregate.
-/

namespace StagedQuery.Sql

/-- A column as an expression names it. -/
structure ColumnUse where
  /-- The relation that is named before the column, if one is. -/
  relation? : Option String
  name : String
  /-- Whether the column stands inside an aggregate. -/
  aggregated : Bool
deriving DecidableEq

/-- The words that name neither a column nor a function. -/
def reserved : List String :=
  ["NOT", "AND", "OR", "BETWEEN", "LIKE", "IN", "IS", "NULL", "OVER", "PARTITION", "ORDER", "BY"]

def aggregates : List String := ["COUNT", "SUM", "AVG", "MIN", "MAX"]

/-! ## The reader -/

inductive ColumnMode where
  | ready
  /-- After a name, which is that of a column unless a point or a parenthesis follows. -/
  | name (text : String)
  | point (relation : String)
  /-- Before the name of a type. -/
  | type
  /-- Before the name of a part of a date. -/
  | datePart
deriving DecidableEq

structure ColumnReader where
  mode : ColumnMode := .ready
  /-- For each open parenthesis, the innermost first, whether it belongs to an aggregate. -/
  calls : List Bool := []
deriving DecidableEq

namespace ColumnReader

def use (reader : ColumnReader) (relation? : Option String) (name : String) : ColumnUse :=
  ⟨relation?, name, reader.calls.any id⟩

/-- The column that has been named just before, where an expression may end. -/
def settled (reader : ColumnReader) : Option (List ColumnUse) :=
  match reader.mode with
  | .ready => some []
  | .name text => some [reader.use none text]
  | .point _ | .type | .datePart => none

/-- What a word is, given nothing before it. -/
def modeOfWord (text : String) : ColumnMode :=
  if text = "AS" then .type
  else if reserved.contains text || text.toList.head? = some '@' then .ready
  else .name text

/-- Goes on from a place where nothing is pending. -/
def start (calls : List Bool) : Token → Option ColumnReader
  | .word text => some ⟨modeOfWord (String.ofList text), calls⟩
  | .bracketed text => some ⟨.name (String.ofList text), calls⟩
  | .symbol '(' => some ⟨.ready, false :: calls⟩
  | .symbol ')' => calls.tail?.map fun outer ↦ ⟨.ready, outer⟩
  | _ => some ⟨.ready, calls⟩

/-- The columns that a token completes, and the reader after it. -/
def step (reader : ColumnReader) (token : Token) : Option (List ColumnUse × ColumnReader) :=
  match reader.mode, token with
  | .name text, .symbol '.' => some ([], { reader with mode := .point text })
  | .name text, .symbol '(' =>
    some ([], ⟨if text = "DATEDIFF" then .datePart else .ready,
      aggregates.contains text :: reader.calls⟩)
  | .point relation, .word text | .point relation, .bracketed text =>
    some ([reader.use relation (String.ofList text)], { reader with mode := .ready })
  | .point _, .symbol '*' => some ([], { reader with mode := .ready })
  | .type, .blank _ => some ([], reader)
  | .type, .word _ | .datePart, .word _ => some ([], { reader with mode := .ready })
  | _, token => do
    let uses ← reader.settled
    let next ← start reader.calls token
    return (uses, next)

/-- The columns that tokens complete, and the reader after them. -/
def run : ColumnReader → List Token → Option (List ColumnUse × ColumnReader)
  | reader, [] => some ([], reader)
  | reader, token :: rest => do
    let (uses, next) ← reader.step token
    let (later, last) ← run next rest
    return (uses ++ later, last)

end ColumnReader

/-- The columns that the tokens of a whole expression name, in order. -/
def tokenColumns? (tokens : List Token) : Option (List ColumnUse) := do
  let (uses, reader) ← ColumnReader.run {} tokens
  if reader.calls = [] then return uses ++ (← reader.settled) else none

/-- The columns that an expression names, in order. -/
def columns? (text : String) : Option (List ColumnUse) :=
  (tokens? text).bind tokenColumns?

/-! ## Reading on -/

variable {reader next last : ColumnReader} {first second gap tokens : List Token}
  {uses later : List ColumnUse}

namespace ColumnReader

theorem run_cons {token : Token} (hstep : reader.step token = some (uses, next))
    (hrest : run next second = some (later, last)) :
    run reader (token :: second) = some (uses ++ later, last) := by
  rw [run, hstep]
  change (run next second >>= fun result ↦ some (uses ++ result.1, result.2)) = _
  rw [hrest]
  rfl

theorem run_append (hfirst : run reader first = some (uses, next))
    (hsecond : run next second = some (later, last)) :
    run reader (first ++ second) = some (uses ++ later, last) := by
  induction first generalizing reader uses with
  | nil =>
    obtain ⟨rfl, rfl⟩ : [] = uses ∧ reader = next := by simpa [run] using hfirst
    exact hsecond
  | cons token rest ih =>
    simp only [run, Option.bind_eq_bind, Option.bind_eq_some_iff] at hfirst
    obtain ⟨⟨read, middle⟩, hstep, ⟨remaining, end'⟩, hrest, hresult⟩ := hfirst
    obtain ⟨rfl, rfl⟩ : read ++ remaining = uses ∧ end' = next := by simpa using hresult
    rw [List.cons_append, List.append_assoc]
    exact run_cons hstep (ih hrest)

/-- The token ends the name of a column. -/
def endsName (token : Token) : Bool := token ≠ .symbol '.' && token ≠ .symbol '('

/-- A pending name is that of a column where something else than a point or a parenthesis
follows. -/
theorem step_of_settled (hsettled : reader.settled = some uses) {token : Token}
    (hends : endsName token) :
    reader.step token = (start reader.calls token).map fun next ↦ (uses, next) := by
  obtain ⟨hpoint, hopen⟩ : token ≠ .symbol '.' ∧ token ≠ .symbol '(' := by
    simpa [endsName] using hends
  have hdefault : reader.step token = (do
      let read ← reader.settled
      let next ← start reader.calls token
      return (read, next)) := by
    unfold step
    unfold settled at hsettled ⊢
    split <;> simp_all
  rw [hdefault, hsettled]
  cases start reader.calls token <;> rfl

/-! ## Inside parentheses -/

/-- Parentheses that belong to no aggregate, around those that are open. -/
def within (reader : ColumnReader) (outer : List Bool) : ColumnReader :=
  { reader with calls := reader.calls ++ outer }

variable {outer : List Bool}

theorem settled_within (houter : outer.any id = false) :
    (reader.within outer).settled = reader.settled := by
  obtain ⟨mode, calls⟩ := reader
  cases mode <;> simp [settled, within, use, houter]

theorem start_within {calls : List Bool} {token : Token} (h : start calls token = some next) :
    start (calls ++ outer) token = some (next.within outer) := by
  unfold start at h ⊢
  split at h
  case h_4 =>
    cases calls with
    | nil => simp at h
    | cons call calls =>
      obtain rfl : (⟨.ready, calls⟩ : ColumnReader) = next := by simpa using h
      rfl
  all_goals
    obtain rfl := Option.some.inj h
    simp_all [within]

theorem step_within (houter : outer.any id = false) {token : Token}
    (h : reader.step token = some (uses, next)) :
    (reader.within outer).step token = some (uses, next.within outer) := by
  unfold step at h ⊢
  have hmode : (reader.within outer).mode = reader.mode := rfl
  rw [hmode]
  split at h
  case h_9 =>
    simp only [Option.bind_eq_bind, Option.bind_eq_some_iff] at h
    obtain ⟨read, hsettled, started, hstart, hresult⟩ := h
    obtain ⟨rfl, rfl⟩ : read = uses ∧ started = next := by simpa using hresult
    have hstarted : start (reader.calls ++ outer) _ = some (started.within outer) :=
      start_within hstart
    have hread := (settled_within houter).trans hsettled
    rw [hread]
    change (start (reader.calls ++ outer) _ >>= fun result ↦ some (read, result)) = _
    rw [hstarted]
    rfl
  all_goals
    obtain ⟨huses, hnext⟩ := Prod.mk.inj (Option.some.inj h)
    subst huses hnext
    simp_all [within, use]

/-- Parentheses that belong to no aggregate make no difference to what they enclose. -/
theorem run_within (houter : outer.any id = false) (h : run reader tokens = some (uses, last)) :
    run (reader.within outer) tokens = some (uses, last.within outer) := by
  induction tokens generalizing reader uses with
  | nil =>
    obtain ⟨rfl, rfl⟩ : [] = uses ∧ reader = last := by simpa [run] using h
    rfl
  | cons token rest ih =>
    simp only [run, Option.bind_eq_bind, Option.bind_eq_some_iff] at h
    obtain ⟨⟨read, middle⟩, hstep, ⟨remaining, end'⟩, hrest, hresult⟩ := h
    obtain ⟨rfl, rfl⟩ : read ++ remaining = uses ∧ end' = last := by simpa using hresult
    exact run_cons (step_within houter hstep) (ih hrest)

end ColumnReader

/-! ## Names in pieces of expressions -/

/-- The tokens are an expression that names the columns. -/
def Names (tokens : List Token) (uses : List ColumnUse) : Prop := tokenColumns? tokens = some uses

/-- The tokens name the columns, whatever follows them. -/
def Passes (tokens : List Token) (uses : List ColumnUse) : Prop :=
  ColumnReader.run {} tokens = some (uses, {})

instance (tokens : List Token) (uses : List ColumnUse) : Decidable (Names tokens uses) :=
  inferInstanceAs (Decidable (tokenColumns? tokens = some uses))

instance (tokens : List Token) (uses : List ColumnUse) : Decidable (Passes tokens uses) :=
  inferInstanceAs (Decidable (ColumnReader.run {} tokens = some (uses, {})))

theorem names_iff : Names tokens uses ↔ ∃ read mode last,
    ColumnReader.run {} tokens = some (read, ⟨mode, []⟩) ∧
      ColumnReader.settled ⟨mode, []⟩ = some last ∧ uses = read ++ last := by
  simp only [Names, tokenColumns?, Option.bind_eq_bind, Option.bind_eq_some_iff]
  constructor
  · rintro ⟨⟨read, ⟨mode, calls⟩⟩, hrun, h⟩
    split at h
    · next hcalls =>
      obtain rfl : calls = [] := hcalls
      obtain ⟨last, hlast, hresult⟩ := Option.bind_eq_some_iff.1 h
      exact ⟨read, mode, last, hrun, hlast, (Option.some.inj hresult).symm⟩
    · cases h
  · rintro ⟨read, mode, last, hrun, hlast, rfl⟩
    refine ⟨⟨read, ⟨mode, []⟩⟩, hrun, ?_⟩
    simp [hlast]

theorem Passes.names (h : Passes tokens uses) : Names tokens uses :=
  names_iff.2 ⟨uses, .ready, [], h, rfl, (List.append_nil uses).symm⟩

theorem Passes.append_names (hfirst : Passes first uses) (hsecond : Names second later) :
    Names (first ++ second) (uses ++ later) := by
  obtain ⟨read, mode, last, hrun, hlast, rfl⟩ := names_iff.1 hsecond
  refine names_iff.2 ⟨uses ++ read, mode, last, ColumnReader.run_append hfirst hrun, hlast, ?_⟩
  rw [List.append_assoc]

/-- The tokens end a name, name no column themselves, and leave open what follows. -/
structure IsGap (tokens : List Token) : Prop where
  head : tokens.head?.any ColumnReader.endsName
  passes : Passes tokens []

instance (tokens : List Token) : Decidable (IsGap tokens) :=
  decidable_of_iff (tokens.head?.any ColumnReader.endsName ∧ Passes tokens [])
    ⟨fun ⟨head, passes⟩ ↦ ⟨head, passes⟩, fun h ↦ ⟨h.head, h.passes⟩⟩

theorem Names.append_gap (h : Names tokens uses) (hgap : IsGap gap) :
    Passes (tokens ++ gap) uses := by
  obtain ⟨read, mode, last, hrun, hlast, rfl⟩ := names_iff.1 h
  apply ColumnReader.run_append hrun
  obtain ⟨token, rest, rfl⟩ : ∃ token rest, gap = token :: rest := by
    cases gap with
    | nil => exact absurd hgap.head (by simp)
    | cons token rest => exact ⟨token, rest, rfl⟩
  have hends : ColumnReader.endsName token := by simpa using hgap.head
  have hpasses := hgap.passes
  -- What the first token of the gap does, it does where nothing is pending.
  rw [Passes, ColumnReader.run, ColumnReader.step_of_settled rfl hends] at hpasses
  simp only [Option.bind_eq_bind, Option.bind_eq_some_iff, Option.map_eq_some_iff] at hpasses
  obtain ⟨-, ⟨next, hstart, rfl⟩, ⟨later, last'⟩, hrest, hresult⟩ := hpasses
  obtain ⟨rfl, rfl⟩ : later = [] ∧ last' = {} := by simpa using hresult
  have hstep : ColumnReader.step ⟨mode, []⟩ token = some (last, next) := by
    rw [ColumnReader.step_of_settled hlast hends]
    exact Option.map_eq_some_iff.2 ⟨next, hstart, rfl⟩
  simpa using ColumnReader.run_cons hstep hrest

/-- Two expressions with a gap between them. -/
theorem Names.glue (hfirst : Names first uses) (hgap : IsGap gap) (hsecond : Names second later) :
    Names (first ++ gap ++ second) (uses ++ later) :=
  (hfirst.append_gap hgap).append_names hsecond

theorem Names.parenthesized (h : Names tokens uses) :
    Passes (Token.parenthesized tokens) uses := by
  obtain ⟨read, mode, last, hrun, hlast, rfl⟩ := names_iff.1 h
  have hinside : ColumnReader.run (ColumnReader.within {} [false]) tokens =
      some (read, ColumnReader.within ⟨mode, []⟩ [false]) := ColumnReader.run_within rfl hrun
  have hclose : ColumnReader.step (ColumnReader.within ⟨mode, []⟩ [false]) (.symbol ')') =
      some (last, {}) := by
    rw [ColumnReader.step_of_settled ((ColumnReader.settled_within rfl).trans hlast) rfl]
    rfl
  have hclosed := ColumnReader.run_cons hclose
    (rfl : ColumnReader.run {} [] = some ([], {}))
  rw [List.append_nil] at hclosed
  have hopen : ColumnReader.step {} (.symbol '(') = some ([], ColumnReader.within {} [false]) := rfl
  have hwhole := ColumnReader.run_cons hopen (ColumnReader.run_append hinside hclosed)
  exact hwhole

/-- Any number of expressions with gaps between them. -/
theorem Names.intercalate (hgap : IsGap gap) {tokenLists : List (List Token)}
    {usesLists : List (List ColumnUse)} (h : List.Forall₂ Names tokenLists usesLists) :
    Names (gap.intercalate tokenLists) usesLists.flatten := by
  induction h with
  | nil => rfl
  | @cons tokens uses tokenLists usesLists hhead htail ih =>
    cases htail with
    | nil => simpa using hhead
    | cons hsecond htail =>
      rw [List.intercalate_cons_cons, List.flatten_cons]
      exact hhead.glue hgap ih

/-- The columns of a text are those of its tokens. -/
theorem Names.columns? {text : String} (h : Names tokens uses) (hlexes : Lexes text tokens) :
    columns? text = some uses := by
  rw [Sql.columns?, hlexes.tokens?, Option.bind_some, h]

end StagedQuery.Sql
