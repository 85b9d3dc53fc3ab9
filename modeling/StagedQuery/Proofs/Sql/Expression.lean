import StagedQuery.Proofs.Sql.Token
import StagedQuery.Proofs.Truth
import Mathlib.Data.List.DropRight
import Mathlib.Logic.Function.Iterate

/-!
# Boolean Expressions

A text of the query language is read as a boolean expression over atomic conditions.  NOT binds
tighter than AND, and AND tighter than OR.  An atomic condition goes on over parentheses that it
opens itself and over the AND that belongs to its BETWEEN; quoted literals are single tokens, so
nothing inside them is read.  These four keywords are read in upper case, as the texts of conditions
have them.

The reader takes one token at a time.  It keeps a frame for every open parenthesis, in which the
operands before the current one are already joined as their precedence says.
-/

namespace StagedQuery.Sql

/-! ## Expressions -/

inductive Expression where
  | atom (text : String)
  | not (operand : Expression)
  | join (combinator : Combinator) (operands : List Expression)

namespace Expression

/-- Operands joined by a combinator; a single operand stands for itself. -/
def joined (combinator : Combinator) : List Expression → Expression
  | [operand] => operand
  | operands => .join combinator operands

/-- A group of operands, which may be negated as a whole. -/
def ofGroup (combinator : Combinator) (negated : Bool) (operands : List Expression) : Expression :=
  if negated then .not (joined combinator operands) else joined combinator operands

mutual

/-- The atomic conditions from left to right. -/
def atoms : Expression → List String
  | .atom text => [text]
  | .not operand => operand.atoms
  | .join _ operands => atomsOfAll operands

def atomsOfAll : List Expression → List String
  | [] => []
  | operand :: rest => operand.atoms ++ atomsOfAll rest

end

mutual

/-- The value of an expression, given the values of the atomic conditions. -/
def evaluate (assignment : String → Truth) : Expression → Truth
  | .atom text => assignment text
  | .not operand => (operand.evaluate assignment).not
  | .join combinator operands => Truth.join combinator (evaluateAll assignment operands)

def evaluateAll (assignment : String → Truth) : List Expression → List Truth
  | [] => []
  | operand :: rest => operand.evaluate assignment :: evaluateAll assignment rest

end

theorem atomsOfAll_eq (operands : List Expression) :
    atomsOfAll operands = operands.flatMap atoms := by
  induction operands with
  | nil => rfl
  | cons operand rest ih => rw [atomsOfAll, ih, List.flatMap_cons]

theorem evaluateAll_eq (assignment : String → Truth) (operands : List Expression) :
    evaluateAll assignment operands = operands.map (evaluate assignment) := by
  induction operands with
  | nil => rfl
  | cons operand rest ih => rw [evaluateAll, ih, List.map_cons]

@[simp]
theorem atoms_ofGroup (combinator : Combinator) (negated : Bool) (operands : List Expression) :
    (ofGroup combinator negated operands).atoms = operands.flatMap atoms := by
  have hjoined : (joined combinator operands).atoms = operands.flatMap atoms := by
    unfold joined
    split
    · simp
    · rw [atoms, atomsOfAll_eq]
  cases negated with
  | false => exact hjoined
  | true => exact hjoined

@[simp]
theorem evaluate_ofGroup (assignment : String → Truth) (combinator : Combinator) (negated : Bool)
    (operands : List Expression) : (ofGroup combinator negated operands).evaluate assignment =
      Truth.ofGroup combinator negated (operands.map (evaluate assignment)) := by
  have hjoined : (joined combinator operands).evaluate assignment =
      Truth.join combinator (operands.map (evaluate assignment)) := by
    unfold joined
    split
    · simp
    · rw [evaluate, evaluateAll_eq]
  cases negated with
  | false => exact hjoined
  | true =>
    change ((joined combinator operands).evaluate assignment).not = _
    rw [hjoined]
    rfl

end Expression

/-! ## The reader -/

/-- What a token means to the reader. -/
inductive Role where
  | blank
  | not
  | and
  | or
  | between
  | opening
  | closing
  | other
deriving DecidableEq

/-- The keywords have no other case than the upper one: `and` is a word like any other. -/
def Token.role : Token → Role
  | .blank _ => .blank
  | .word text =>
    if text = "NOT".toList then .not
    else if text = "AND".toList then .and
    else if text = "OR".toList then .or
    else if text = "BETWEEN".toList then .between
    else .other
  | .symbol character =>
    if character = '(' then .opening else if character = ')' then .closing else .other
  | _ => .other

/-- An open parenthesis, or the whole text: the disjuncts before the current one, the conjuncts of
the current one, and how many times the next operand is negated. -/
structure Frame where
  disjuncts : List Expression := []
  conjuncts : List Expression := []
  negations : Nat := 0

namespace Frame

def push (frame : Frame) (operand : Expression) : Frame where
  disjuncts := frame.disjuncts
  conjuncts := frame.conjuncts ++ [Expression.not^[frame.negations] operand]

def negate (frame : Frame) : Frame :=
  { frame with negations := frame.negations + 1 }

/-- The conjuncts are complete, and another disjunct follows. -/
def nextDisjunct (frame : Frame) : Frame where
  disjuncts := frame.disjuncts ++ [.joined .and frame.conjuncts]

def expression (frame : Frame) : Expression :=
  .joined .or (frame.disjuncts ++ [.joined .and frame.conjuncts])

end Frame

inductive Position where
  /-- Before an operand. -/
  | operand
  /-- Inside an atomic condition, with the number of its open parentheses, and whether the AND of a
  BETWEEN is still to come. -/
  | atom (tokens : List Token) (depth : Nat) (between : Bool)
  /-- After an operand in parentheses. -/
  | complete

structure Reader where
  frame : Frame := {}
  /-- The frames around the current one, the innermost first. -/
  outer : List Frame := []
  position : Position := .operand

/-- The atomic condition that tokens make up; blanks at its end do not belong to it. -/
def atomOf (tokens : List Token) : Expression :=
  .atom (String.ofList ((tokens.rdropWhile Token.isBlank).flatMap Token.text))

/-- How an atomic condition goes on over a token, if it does. -/
def continueAtom : Nat × Bool → Role → Option (Nat × Bool)
  | (depth, between), .opening => some (depth + 1, between)
  | (depth + 1, between), .closing => some (depth, between)
  | (0, _), .between => some (0, true)
  | (0, true), .and => some (0, false)
  | (0, _), .closing | (0, false), .and | (0, _), .or => none
  | state, _ => some state

namespace Reader

/-- The frame and those around it, where an operand may end. -/
def settled : Reader → Option (Frame × List Frame)
  | ⟨frame, outer, .complete⟩ => some (frame, outer)
  | ⟨frame, outer, .atom tokens 0 false⟩ => some (frame.push (atomOf tokens), outer)
  | _ => none

/-- Goes on after an operand. -/
def connect (frame : Frame) (outer : List Frame) : Role → Option Reader
  | .and => some ⟨frame, outer, .operand⟩
  | .or => some ⟨frame.nextDisjunct, outer, .operand⟩
  | .closing =>
    match outer with
    | [] => none
    | enclosing :: outer => some ⟨enclosing.push frame.expression, outer, .complete⟩
  | _ => none

/-- Goes on before an operand. -/
def begin (frame : Frame) (outer : List Frame) (token : Token) : Option Reader :=
  match token.role with
  | .blank => some ⟨frame, outer, .operand⟩
  | .not => some ⟨frame.negate, outer, .operand⟩
  | .opening => some ⟨{}, frame :: outer, .operand⟩
  | .other => some ⟨frame, outer, .atom [token] 0 false⟩
  | _ => none

def step (reader : Reader) (token : Token) : Option Reader :=
  match reader.position with
  | .operand => begin reader.frame reader.outer token
  | .atom tokens depth between =>
    match continueAtom (depth, between) token.role with
    | some (depth, between) =>
      some { reader with position := .atom (tokens ++ [token]) depth between }
    | none => do
      let (frame, outer) ← reader.settled
      connect frame outer token.role
  | .complete =>
    if token.role = .blank then some reader else connect reader.frame reader.outer token.role

/-- The expression that has been read, if nothing is open. -/
def finish (reader : Reader) : Option Expression :=
  match reader.settled with
  | some (frame, []) => some frame.expression
  | _ => none

def run (reader : Reader) (tokens : List Token) : Option Reader := tokens.foldlM step reader

end Reader

/-- Reads a boolean expression from a text. -/
def Expression.ofText? (text : String) : Option Expression := do
  let tokens ← tokens? text
  let reader ← Reader.run {} tokens
  reader.finish

end StagedQuery.Sql
