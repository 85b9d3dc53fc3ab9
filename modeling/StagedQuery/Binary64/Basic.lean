/-!
# Double-Precision Numbers

The non-negative finite doubles form a chain: counted upwards from zero, each one is determined by
its rank, and its neighbours are the ranks beside it.  A magnitude is such a rank.  The value of
rank `r` is a whole number of steps of size `2 ^ (-1074)`, so every comparison and every rounding
of doubles is exact arithmetic on natural numbers.  Powers are written with `Nat.pow`, which means
the same whatever algebra is imported.
-/

namespace StagedQuery

namespace Binary64

/-- The number of non-negative finite doubles. -/
def rankCount : Nat := 2047 * Nat.pow 2 52

/-- The significand at a rank.  The first `2 ^ 53` ranks are their own significands; after them
every block of `2 ^ 52` ranks runs through the significands from `2 ^ 52` upwards. -/
def significand (rank : Nat) : Nat :=
  if rank < Nat.pow 2 53 then rank else Nat.pow 2 52 + rank % Nat.pow 2 52

/-- The power of two that scales the significand at a rank. -/
def scale (rank : Nat) : Nat :=
  rank / Nat.pow 2 52 - 1

/-- The value at a rank, counted in steps. -/
def steps (rank : Nat) : Nat :=
  significand rank * Nat.pow 2 (scale rank)

/-- The binary places of a step: a step is `2 ^ (-places)`. -/
def places : Nat := 1074

/-- A non-negative finite double. -/
structure Magnitude where
  rank : Nat
  rank_lt : rank < rankCount
deriving DecidableEq

/-- A finite double.  Zero has two signs. -/
structure Finite where
  negative : Bool
  magnitude : Magnitude
deriving DecidableEq

namespace Magnitude

def zero : Magnitude := ⟨0, by decide⟩

/-- The magnitude at a rank, unless the rank lies beyond the finite doubles. -/
def ofRank? (rank : Nat) : Option Magnitude :=
  if rank_lt : rank < rankCount then some ⟨rank, rank_lt⟩ else none

end Magnitude

end Binary64

/-- A double: a finite one, an infinity of either sign, or not a number. -/
inductive Binary64 where
  | finite (value : Binary64.Finite)
  | infinite (negative : Bool)
  | nan
deriving DecidableEq

end StagedQuery
