import StagedQuery.Binary64.Rounding

/-!
# JSON Values

A JSON number is an exact integer when it is written as one and fits 64 bits, signed or unsigned,
and otherwise a double.  Which double a numeral is read as is left open: readers of JSON need not
agree in the last digit.  The members of an object are kept by increasing key, and a key that is
written again replaces the member before it.
-/

namespace StagedQuery

namespace Json

/-- A reading of doubles from numerals, unless they overflow. -/
class DoubleReader where
  read? : Numeral → Option Binary64.Finite

/-- The reader that always finds the nearest double. -/
@[reducible]
def DoubleReader.nearest : DoubleReader := ⟨Binary64.Finite.ofNumeral?⟩

inductive Number where
  | integer (value : Int) (fits : -Nat.pow 2 63 ≤ value ∧ value < Nat.pow 2 64)
  | double (value : Binary64.Finite)
deriving DecidableEq

namespace Number

/-- The double nearest to a number. -/
def toDouble : Number → Binary64.Finite
  | .integer value fits =>
    have hword : value.natAbs ≤ Nat.pow 2 64 := by
      simp only [Nat.pow_eq] at fits ⊢
      omega
    ⟨decide (value < 0), .ofWord value.natAbs hword⟩
  | .double value => value

/-- The number that a numeral is read as, unless it overflows.  A negative zero is a double, since
no integer has its sign. -/
def ofNumeral? [DoubleReader] (numeral : Numeral) : Option Number :=
  let value : Int := if numeral.negative then -numeral.wholeValue else numeral.wholeValue
  if fits : numeral.isInteger ∧ ¬(numeral.negative ∧ value = 0) ∧
      -Nat.pow 2 63 ≤ value ∧ value < Nat.pow 2 64 then
    some (.integer value fits.2.2)
  else
    (DoubleReader.read? numeral).map .double

end Number

end Json

inductive Json where
  | null
  | bool (value : Bool)
  | number (value : Json.Number)
  | string (value : String)
  | array (items : List Json)
  | object (members : List (String × Json))

namespace Json

/-- Puts a member at its place among members ordered by key, in place of one with the same key. -/
def insertMember (key : String) (value : Json) : List (String × Json) → List (String × Json)
  | [] => [(key, value)]
  | member :: rest =>
    if key < member.1 then (key, value) :: member :: rest
    else if key = member.1 then (key, value) :: rest
    else member :: insertMember key value rest

/-- The object with the given members, of which the later ones win. -/
def ofMembers (members : List (String × Json)) : Json :=
  .object (members.foldl (fun ordered member ↦ insertMember member.1 member.2 ordered) [])

end Json

end StagedQuery
