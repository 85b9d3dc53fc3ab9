import StagedQuery.Numeral
import StagedQuery.Binary64.Basic

/-!
# Rounding to the Nearest Double

A quotient of natural numbers is rounded to the nearest double, a tie going to the even
significand.  The significand has at most 53 bits, so the quotient is first scaled down by the
power of two that leaves that many; rounding up past the last significand of a block gives the
first rank of the next block, which is what the plain sum of scale and significand says.
-/

namespace StagedQuery.Binary64

/-- The quotient rounded to the nearest natural number, a tie to the even one. -/
def roundedQuotient (numerator denominator : Nat) : Nat :=
  let quotient := numerator / denominator
  let remainder := numerator % denominator
  if 2 * remainder < denominator then quotient
  else if denominator < 2 * remainder then quotient + 1
  else quotient + quotient % 2

/-- The rank nearest to a quotient; it may lie beyond the finite doubles. -/
def nearestRank (numerator denominator : Nat) : Nat :=
  let scaled := numerator * Nat.pow 2 places
  let scale := (scaled / denominator).log2 - 52
  scale * Nat.pow 2 52 + roundedQuotient scaled (denominator * Nat.pow 2 scale)

theorem roundedQuotient_le (numerator denominator : Nat) :
    roundedQuotient numerator denominator ≤ numerator / denominator + 1 := by
  unfold roundedQuotient
  dsimp only
  split
  · omega
  · split <;> omega

theorem log2_mul_two_pow_lt {value : Nat} (exponent : Nat) (h : value ≤ Nat.pow 2 64) :
    (value * Nat.pow 2 exponent).log2 < 65 + exponent := by
  have hbound : value * Nat.pow 2 exponent < 2 ^ (65 + exponent) := by
    refine Nat.lt_of_le_of_lt (Nat.mul_le_mul_right _ h) ?_
    simp only [Nat.pow_eq]
    rw [← Nat.pow_add]
    exact Nat.pow_lt_pow_right (by decide) (by omega)
  by_cases hzero : value * Nat.pow 2 exponent = 0
  · rw [hzero, Nat.log2_zero]
    omega
  · exact (Nat.log2_lt hzero).2 hbound

/-- A natural number of at most 64 bits does not overflow. -/
theorem nearestRank_lt_rankCount {value : Nat} (h : value ≤ Nat.pow 2 64) :
    nearestRank value 1 < rankCount := by
  simp only [nearestRank, Nat.div_one, Nat.one_mul]
  have hlog := log2_mul_two_pow_lt places h
  generalize value * Nat.pow 2 places = scaled at hlog ⊢
  have hquotient : scaled / Nat.pow 2 (scaled.log2 - 52) < Nat.pow 2 53 := by
    simp only [Nat.pow_eq]
    rw [Nat.div_lt_iff_lt_mul (Nat.two_pow_pos _), ← Nat.pow_add]
    exact Nat.lt_of_lt_of_le Nat.lt_log2_self (Nat.pow_le_pow_right (by decide) (by omega))
  have hrounded := roundedQuotient_le scaled (Nat.pow 2 (scaled.log2 - 52))
  unfold rankCount
  unfold places at hlog
  simp only [Nat.pow_eq] at hquotient hrounded ⊢
  omega

namespace Magnitude

/-- The magnitude nearest to a quotient, unless it overflows. -/
def ofQuotient? (numerator denominator : Nat) : Option Magnitude :=
  ofRank? (nearestRank numerator denominator)

/-- The magnitude nearest to a natural number of at most 64 bits. -/
def ofWord (value : Nat) (h : value ≤ Nat.pow 2 64) : Magnitude :=
  ⟨nearestRank value 1, nearestRank_lt_rankCount h⟩

/-- The magnitude nearest to a decimal, unless it overflows.  The place of the leading digit
settles the outcome when it lies above `10 ^ 309` or below `10 ^ (-330)`, so no power of ten with
an extreme exponent is ever computed. -/
def ofDecimal? (value : Decimal) : Option Magnitude :=
  if value.coefficient = 0 then some zero
  else
    let leading := value.exponent + (Nat.toDigits 10 value.coefficient).length
    if 310 < leading then none
    else if leading < -330 then some zero
    else ofQuotient? (value.coefficient * Nat.pow 10 value.exponent.toNat)
      (Nat.pow 10 (-value.exponent).toNat)

end Magnitude

/-- The finite double nearest to a numeral, unless it overflows.  A minus is kept on a zero. -/
def Finite.ofNumeral? (numeral : Numeral) : Option Finite :=
  (Magnitude.ofDecimal? numeral.decimal).map fun magnitude ↦ ⟨numeral.negative, magnitude⟩

end StagedQuery.Binary64
