import StagedQuery.Binary64.Basic
import Mathlib.Algebra.Order.Field.Rat
import Mathlib.Tactic.Positivity

/-!
# Values of Doubles

A finite double denotes a rational number.  It is positive exactly if it has no sign and does not
have the rank of zero.
-/

namespace StagedQuery.Binary64

/-- The number that a double denotes, if it is finite. -/
def value? : Binary64 → Option ℚ
  | .finite ⟨negative, magnitude⟩ =>
    let value := (steps magnitude.rank : ℚ) / 2 ^ places
    some (if negative then -value else value)
  | .infinite _ | .nan => none

/-- The double is finite and greater than zero. -/
def isPositive (double : Binary64) : Bool :=
  double.value?.any fun value ↦ 0 < value

theorem steps_pos_iff {rank : Nat} : 0 < steps rank ↔ 0 < rank := by
  constructor
  · intro hsteps
    by_contra hrank
    obtain rfl : rank = 0 := by omega
    exact absurd hsteps (by decide)
  · intro hrank
    have hsignificand : 0 < significand rank := by
      unfold significand
      split
      · exact hrank
      · exact Nat.add_pos_left (Nat.pow_pos Nat.two_pos) _
    exact Nat.mul_pos hsignificand (Nat.pow_pos Nat.two_pos)

theorem isPositive_finite (negative : Bool) (magnitude : Magnitude) :
    isPositive (.finite ⟨negative, magnitude⟩) = (!negative && decide (0 < magnitude.rank)) := by
  have hpower : (0 : ℚ) < 2 ^ places := pow_pos two_pos places
  cases negative with
  | true =>
    have hnonneg : 0 ≤ (steps magnitude.rank : ℚ) / 2 ^ places :=
      div_nonneg (Nat.cast_nonneg _) hpower.le
    simpa [isPositive, value?] using hnonneg
  | false =>
    have hpositive : 0 < (steps magnitude.rank : ℚ) / 2 ^ places ↔ 0 < magnitude.rank := by
      rw [div_pos_iff_of_pos_right hpower, Nat.cast_pos, steps_pos_iff]
    simp [isPositive, value?, hpositive]

end StagedQuery.Binary64
