import StagedQuery.Numeral
import StagedQuery.Binary64.Basic

/-!
# Shortest Decimals

The shortest decimal of a double is the one with the fewest digits among those that round to it.
Counted in units of `10 ^ (-places)`, a double and the ends of the interval that rounds to it are
whole or half numbers, so doubling makes all of them natural numbers.  The search goes through the
decimal grids from the coarsest to the finest, and on each grid only the two points beside the
double need a look: if any point of the grid lies in the interval, one of these does.
-/

namespace StagedQuery.Binary64

/-- Which of two equally near decimals is chosen. -/
inductive Tie where
  | up
  | even
deriving DecidableEq

/-- The reals that round to a double, in half units of `10 ^ (-places)`. -/
structure RoundingInterval where
  lower : Nat
  center : Nat
  upper : Nat
  /-- Whether the ends themselves round to the double. -/
  closed : Bool

namespace RoundingInterval

/-- The ends lie half way to the neighbouring ranks, and belong to the double with the even
significand. -/
def ofRank (rank : Nat) : RoundingInterval where
  lower := (steps (rank - 1) + steps rank) * Nat.pow 5 places
  center := 2 * steps rank * Nat.pow 5 places
  upper := (steps rank + steps (rank + 1)) * Nat.pow 5 places
  closed := rank % 2 = 0

def contains (interval : RoundingInterval) (point : Nat) : Bool :=
  if interval.closed then interval.lower ≤ point && point ≤ interval.upper
  else interval.lower < point && point < interval.upper

/-- The multiple of `unit` that is nearest to the center among those in the interval, divided by
`unit`. -/
def nearestMultiple? (interval : RoundingInterval) (tie : Tie) (unit : Nat) : Option Nat :=
  let below := interval.center / unit
  let downward := interval.contains (below * unit)
  let upward := interval.contains ((below + 1) * unit)
  let remainder := interval.center % unit
  if downward && upward then
    if 2 * remainder < unit then some below
    else if unit < 2 * remainder then some (below + 1)
    else match tie with
      | .up => some (below + 1)
      | .even => some (below + below % 2)
  else if downward then some below
  else if upward then some (below + 1)
  else none

/-- The first hit on the grids from `10 ^ place` down to one unit, which always holds the center.
-/
def coarsest (interval : RoundingInterval) (tie : Tie) : Nat → Nat × Nat
  | 0 => (interval.center / 2, 0)
  | place + 1 =>
    match interval.nearestMultiple? tie (2 * Nat.pow 10 (place + 1)) with
    | some coefficient => (coefficient, place + 1)
    | none => interval.coarsest tie place

end RoundingInterval

/-- The shortest decimal that rounds to a magnitude. -/
def Magnitude.shortest (magnitude : Magnitude) (tie : Tie) : Decimal :=
  if magnitude.rank = 0 then ⟨0, 0⟩
  else
    let interval := RoundingInterval.ofRank magnitude.rank
    let (coefficient, place) := interval.coarsest tie (interval.center.log2 / 3 + 1)
    ⟨coefficient, place - places⟩

end StagedQuery.Binary64
