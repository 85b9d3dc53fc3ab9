import StagedQuery.Binary64.Rounding
import StagedQuery.Binary64.Shortest

/-!
# Texts of Doubles

Two written forms of a double.  The plain form is always positional and writes whole numbers
without a point.  The marked form always shows that it is not an integer, by a point or by an
exponent, and switches to the exponent for very large and very small values.  Both hold the
shortest digits.
-/

namespace StagedQuery

namespace Decimal

def digits (value : Decimal) : List Char :=
  Nat.toDigits 10 value.coefficient

/-- The digits with the point at its place, padded by zeros where the point lies outside them. -/
def positional (value : Decimal) : List Char :=
  let digits := value.digits
  let point := digits.length + value.exponent
  if 0 ≤ value.exponent then digits ++ List.replicate value.exponent.toNat '0'
  else if 0 < point then digits.take point.toNat ++ '.' :: digits.drop point.toNat
  else '0' :: '.' :: List.replicate (-point).toNat '0' ++ digits

/-- The first digit, the other digits after a point, and the power of ten that restores the value,
which always has a sign. -/
def scientific (value : Decimal) : List Char :=
  let digits := value.digits
  let power := digits.length + value.exponent - 1
  let mantissa := match digits with
    | first :: second :: rest => first :: '.' :: second :: rest
    | short => short
  let sign := if power < 0 then '-' else '+'
  mantissa ++ 'e' :: sign :: Nat.toDigits 10 power.natAbs

/-- Positional when at most 16 digits stand before the point and at most four zeros directly after
it, and scientific otherwise.  A positional whole number ends in `.0`. -/
def marked (value : Decimal) : List Char :=
  let point := value.digits.length + value.exponent
  if -5 < point && point ≤ 16 then
    if 0 ≤ value.exponent then value.positional ++ ['.', '0'] else value.positional
  else value.scientific

end Decimal

namespace Binary64

namespace Finite

/-- A text after the sign of the double. -/
def signed (value : Finite) (text : List Char) : String :=
  String.ofList (if value.negative then '-' :: text else text)

/-- The plain form; of two nearest shortest decimals it shows the larger one. -/
def plain (value : Finite) : String :=
  value.signed (value.magnitude.shortest .up).positional

/-- The marked form; of two nearest shortest decimals it shows the even one. -/
def marked (value : Finite) : String :=
  value.signed (value.magnitude.shortest .even).marked

/-- Reads a double from a numeral that fills the text; a numeral that overflows is refused. -/
def ofText? (text : List Char) : Option Finite :=
  (Numeral.ofText? text).bind ofNumeral?

end Finite

/-- The plain form of any double. -/
def plain : Binary64 → String
  | .finite value => value.plain
  | .infinite false => "inf"
  | .infinite true => "-inf"
  | .nan => "NaN"

end Binary64

end StagedQuery
