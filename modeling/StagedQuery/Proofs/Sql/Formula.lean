import StagedQuery.Numeral
import StagedQuery.Proofs.Sql.Token
import Mathlib.Algebra.Order.Field.Rat
import Mathlib.Data.Rat.Floor

/-!
# Arithmetic Expressions

An arithmetic expression of the query language is read from its tokens: products and quotients from
left to right, the functions FLOOR and AVG, and the cast to an integer.  The reader takes one token
at a time.  It keeps a level for every open parenthesis, with what the operand after it goes to.

Expressions have exact rational values.  Outside of an average a column has the value of one row;
an average is taken over the rows of a group.
-/

namespace StagedQuery

/-- The number that a decimal denotes. -/
def Decimal.toRat (value : Decimal) : ℚ := value.coefficient * 10 ^ value.exponent

namespace Sql

inductive Formula where
  | number (value : Decimal)
  | column (name : String)
  | multiply (first second : Formula)
  | divide (first second : Formula)
  | floor (operand : Formula)
  | average (operand : Formula)
  /-- The cast to an integer, which leaves out what is behind the point. -/
  | toInt (operand : Formula)
deriving DecidableEq

/-! ## The reader -/

/-- What an open parenthesis belongs to. -/
inductive Call where
  | parentheses
  | floor
  | average
  | cast
deriving DecidableEq

namespace Call

def ofName? (name : String) : Option Call :=
  if name = "FLOOR" then some .floor
  else if name = "AVG" then some .average
  else if name = "CAST" then some .cast
  else none

/-- The value of a call. -/
def apply (operand : Formula) : Call → Formula
  | .parentheses => operand
  | .floor => .floor operand
  | .average => .average operand
  | .cast => .toInt operand

end Call

/-- An open parenthesis, or the whole text, and what its next operand is combined with. -/
structure Level where
  call : Call
  pending : Formula → Formula := id

inductive FormulaMode where
  | operand
  /-- After a word, which names a column unless a parenthesis follows. -/
  | name (text : String)
  | complete (value : Formula)
  /-- Before the type of a cast. -/
  | type (value : Formula)
  /-- Behind the type of a cast. -/
  | typed (value : Formula)

structure FormulaReader where
  level : Level := ⟨.parentheses, id⟩
  outer : List Level := []
  mode : FormulaMode := .operand

namespace FormulaReader

/-- The value of the level, where its last operand may end. -/
def settled (reader : FormulaReader) : Option Formula :=
  match reader.mode with
  | .name text => some (reader.level.pending (.column text))
  | .complete value => some value
  | .operand | .type _ | .typed _ => none

def enter (reader : FormulaReader) (call : Call) : FormulaReader :=
  ⟨⟨call, id⟩, reader.level :: reader.outer, .operand⟩

/-- Closes a parenthesis around a value. -/
def leave (reader : FormulaReader) (value : Formula) : Option FormulaReader :=
  match reader.outer with
  | [] => none
  | level :: outer => some ⟨level, outer, .complete (level.pending (reader.level.call.apply value))⟩

/-- Reads on behind an operator. -/
def combine (reader : FormulaReader) (operation : Formula → Formula → Formula) :
    Option FormulaReader :=
  reader.settled.map fun value ↦
    { reader with level := ⟨reader.level.call, operation value⟩, mode := .operand }

def step (reader : FormulaReader) (token : Token) : Option FormulaReader :=
  match reader.mode, token with
  | _, .blank _ => some reader
  | .operand, .number text =>
    match Numeral.ofText? text with
    | some numeral =>
      if numeral.negative then none
      else some { reader with mode := .complete (reader.level.pending (.number numeral.decimal)) }
    | none => none
  | .operand, .word text => some { reader with mode := .name (String.ofList text) }
  | .operand, .symbol '(' => some (reader.enter .parentheses)
  | .name text, .symbol '(' => (Call.ofName? text).map reader.enter
  | _, .symbol '*' => reader.combine .multiply
  | _, .symbol '/' => reader.combine .divide
  | .type value, .word ['i', 'n', 't'] => some { reader with mode := .typed value }
  | .typed value, .symbol ')' => if reader.level.call = .cast then reader.leave value else none
  | _, .word ['A', 'S'] =>
    if reader.level.call = .cast then
      reader.settled.map fun value ↦ { reader with mode := .type value }
    else none
  | _, .symbol ')' =>
    if reader.level.call = .cast then none else reader.settled.bind reader.leave
  | _, _ => none

end FormulaReader

/-- The arithmetic expression that a text writes. -/
def formula? (text : String) : Option Formula := do
  let reader ← (← tokens? text).foldlM FormulaReader.step {}
  if reader.outer.isEmpty then reader.settled else none

/-! ## Values -/

namespace Formula

/-- A number without what is behind the point. -/
def truncate (value : ℚ) : ℤ := if 0 ≤ value then ⌊value⌋ else ⌈value⌉

/-- The average of numbers, if there are any. -/
def mean? (values : List ℚ) : Option ℚ :=
  if values = [] then none else some (values.sum / values.length)

/-- The value of an expression, given those of columns and of averages.  A quotient by zero has no
value. -/
def value? (column : String → Option ℚ) (average : Formula → Option ℚ) : Formula → Option ℚ
  | .number value => some value.toRat
  | .column name => column name
  | .multiply first second => do
    return (← first.value? column average) * (← second.value? column average)
  | .divide first second => do
    let divisor ← second.value? column average
    if divisor = 0 then none else return (← first.value? column average) / divisor
  | .floor operand => do return ⌊← operand.value? column average⌋
  | .average operand => average operand
  | .toInt operand => do return truncate (← operand.value? column average)

/-- The value in one row, given those of the columns that have one. -/
def inRow? (formula : Formula) (row : String → Option ℚ) : Option ℚ :=
  formula.value? row fun _ ↦ none

/-- The value in a group of rows.  An average is taken over the rows in which its operand has a
value. -/
def inGroup? (formula : Formula) (rows : List (String → Option ℚ)) : Option ℚ :=
  formula.value? (fun _ ↦ none) fun operand ↦ mean? (rows.filterMap operand.inRow?)

theorem truncate_natCast (value : ℕ) : truncate value = value := by
  simp [truncate]

theorem mean?_singleton (value : ℚ) : mean? [value] = some value := by
  simp [mean?]

end Formula

end Sql

end StagedQuery
