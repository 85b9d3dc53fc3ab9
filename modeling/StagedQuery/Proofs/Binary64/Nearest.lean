import StagedQuery.Binary64.Rounding
import Mathlib.Algebra.Order.Ring.Nat
import Mathlib.Tactic.Ring

/-!
# Rounding into an Interval

The reals that are nearest to a rank lie between the midpoints to its neighbours.  A quotient in
there is rounded to that rank; a midpoint itself belongs to the even rank.  All comparisons are made
in half steps, so that midpoints are natural numbers.
-/

namespace StagedQuery.Binary64

variable {rank scaled denominator : Nat}

/-! ## The chain of values -/

theorem eq_scale_add_significand (rank : Nat) :
    rank = scale rank * 2 ^ 52 + significand rank := by
  unfold scale significand
  simp only [Nat.pow_eq]
  split <;> omega

theorem significand_lt (rank : Nat) : significand rank < 2 ^ 53 := by
  unfold significand
  simp only [Nat.pow_eq]
  split <;> omega

theorem le_significand (h : 0 < scale rank) : 2 ^ 52 ≤ significand rank := by
  unfold scale at h
  unfold significand
  simp only [Nat.pow_eq] at h ⊢
  split <;> omega

/-- The next rank has the next significand, or is the first one of the next block. -/
theorem succ_cases (rank : Nat) :
    (scale (rank + 1) = scale rank ∧ significand (rank + 1) = significand rank + 1) ∨
      (scale (rank + 1) = scale rank + 1 ∧ significand (rank + 1) = 2 ^ 52 ∧
        significand rank + 1 = 2 ^ 53) := by
  unfold scale significand
  simp only [Nat.pow_eq]
  split <;> split <;> omega

theorem steps_eq (rank : Nat) : steps rank = significand rank * 2 ^ scale rank := rfl

theorem steps_succ (rank : Nat) : steps (rank + 1) = (significand rank + 1) * 2 ^ scale rank := by
  obtain ⟨hscale, hsignificand⟩ | ⟨hscale, hsignificand, hlast⟩ := succ_cases rank
  · rw [steps_eq, hscale, hsignificand]
  · rw [steps_eq, hscale, hsignificand, hlast]
    ring

theorem steps_lt_succ (rank : Nat) : steps rank < steps (rank + 1) := by
  rw [steps_succ, steps_eq]
  exact Nat.mul_lt_mul_of_pos_right (Nat.lt_succ_self _) (Nat.two_pow_pos _)

theorem steps_strictMono : StrictMono steps := strictMono_nat_of_lt_succ steps_lt_succ

/-- The midpoint between a rank and the next one, in half steps. -/
def midpoint (rank : Nat) : Nat := steps rank + steps (rank + 1)

theorem midpoint_mul (rank denominator : Nat) : midpoint rank * denominator =
    2 * (significand rank * (2 ^ scale rank * denominator)) + 2 ^ scale rank * denominator := by
  rw [midpoint, steps_succ, steps_eq]
  ring

/-! ## Rounding to a natural number -/

/-- A quotient at most one half away from a natural number is rounded to it. -/
theorem roundedQuotient_eq {nearest : Nat} (hpositive : 0 < denominator)
    (hlower : 2 * (nearest * denominator) ≤ 2 * scaled + denominator)
    (hupper : 2 * scaled ≤ 2 * (nearest * denominator) + denominator)
    (hodd : nearest % 2 = 1 → 2 * (nearest * denominator) ≠ 2 * scaled + denominator ∧
      2 * scaled ≠ 2 * (nearest * denominator) + denominator) :
    roundedQuotient scaled denominator = nearest := by
  have hscaled : scaled / denominator * denominator + scaled % denominator = scaled :=
    Nat.div_add_mod' scaled denominator
  have hremainder : scaled % denominator < denominator := Nat.mod_lt _ hpositive
  unfold roundedQuotient
  generalize scaled / denominator = quotient at hscaled ⊢
  generalize scaled % denominator = remainder at hscaled hremainder ⊢
  have hle : quotient ≤ nearest := by
    by_contra h
    have hmul := Nat.mul_le_mul_right denominator (show nearest + 1 ≤ quotient by omega)
    rw [Nat.add_mul] at hmul
    omega
  have hge : nearest ≤ quotient + 1 := by
    by_contra h
    have hmul := Nat.mul_le_mul_right denominator (show quotient + 2 ≤ nearest by omega)
    rw [Nat.add_mul] at hmul
    omega
  obtain rfl | rfl : nearest = quotient ∨ nearest = quotient + 1 := by omega
  · dsimp only
    split
    · rfl
    · split <;> omega
  · rw [Nat.add_mul] at hlower hupper hodd
    dsimp only
    split
    · omega
    · split <;> omega

/-! ## Rounding to a rank -/

/-- The quotient lies between the midpoints beside a rank, and on a midpoint only if the rank is
even. -/
structure IsNearest (rank scaled denominator : Nat) : Prop where
  lower : midpoint (rank - 1) * denominator ≤ 2 * scaled
  upper : 2 * scaled ≤ midpoint rank * denominator
  odd : rank % 2 = 1 →
    midpoint (rank - 1) * denominator ≠ 2 * scaled ∧ 2 * scaled ≠ midpoint rank * denominator

/-- A quotient is scaled down until it has at most 53 bits, and not any further. -/
structure IsScale (scaled denominator places : Nat) : Prop where
  lt : scaled < 2 ^ 53 * (2 ^ places * denominator)
  le : 0 < places → 2 ^ 52 * (2 ^ places * denominator) ≤ scaled

theorem isScale_log2 (scaled : Nat) (hpositive : 0 < denominator) :
    IsScale scaled denominator ((scaled / denominator).log2 - 52) := by
  have hscaled : scaled / denominator * denominator + scaled % denominator = scaled :=
    Nat.div_add_mod' scaled denominator
  have hremainder : scaled % denominator < denominator := Nat.mod_lt _ hpositive
  generalize scaled / denominator = quotient at hscaled ⊢
  constructor
  · have hquotient : quotient < 2 ^ (53 + (quotient.log2 - 52)) :=
      Nat.lt_of_lt_of_le Nat.lt_log2_self (Nat.pow_le_pow_right (by decide) (by omega))
    calc scaled < (quotient + 1) * denominator := by rw [Nat.add_mul]; omega
      _ ≤ 2 ^ (53 + (quotient.log2 - 52)) * denominator := Nat.mul_le_mul_right _ hquotient
      _ = 2 ^ 53 * (2 ^ (quotient.log2 - 52) * denominator) := by rw [Nat.pow_add, Nat.mul_assoc]
  · intro hshift
    have hnonzero : quotient ≠ 0 := by
      rintro rfl
      exact absurd hshift (by decide)
    have hlog : 52 + (quotient.log2 - 52) = quotient.log2 := by omega
    calc 2 ^ 52 * (2 ^ (quotient.log2 - 52) * denominator) = 2 ^ quotient.log2 * denominator := by
          rw [← Nat.mul_assoc, ← Nat.pow_add, hlog]
      _ ≤ quotient * denominator := Nat.mul_le_mul_right _ (Nat.log2_self_le hnonzero)
      _ ≤ scaled := by omega

/-- A larger scale leaves a larger unit. -/
theorem unit_lt_unit {below above : Nat} (h : below < above) (hpositive : 0 < denominator) :
    2 * (2 ^ below * denominator) ≤ 2 ^ above * denominator ∧ 0 < 2 ^ below * denominator := by
  constructor
  · rw [← Nat.mul_assoc, ← Nat.pow_succ']
    exact Nat.mul_le_mul_right _ (Nat.pow_le_pow_right (by decide) h)
  · exact Nat.mul_pos (Nat.two_pow_pos _) hpositive

/-- The scale for rounding is that of the rank or, below the first rank of a block, that of the
block before it. -/
theorem IsScale.cases {places : Nat} (hscale : IsScale scaled denominator places)
    (h : IsNearest (rank + 1) scaled denominator) (hpositive : 0 < denominator) :
    places = scale (rank + 1) ∨ places = scale rank ∧ scale (rank + 1) = scale rank + 1 := by
  obtain ⟨hlower, hupper, -⟩ := h
  rw [Nat.add_sub_cancel, midpoint_mul] at hlower
  rw [midpoint_mul] at hupper
  have hle : places ≤ scale (rank + 1) := by
    by_contra hlarge
    obtain ⟨hunit, hunitPositive⟩ := unit_lt_unit (Nat.lt_of_not_le hlarge) hpositive
    have hsignificand := Nat.mul_le_mul_right (2 ^ scale (rank + 1) * denominator)
      (Nat.le_of_lt_succ (significand_lt (rank + 1)))
    have hscaled := hscale.le (by omega)
    omega
  have hge : scale rank ≤ places := by
    by_contra hsmall
    obtain ⟨hunit, hunitPositive⟩ := unit_lt_unit (Nat.lt_of_not_le hsmall) hpositive
    have hsignificand := Nat.mul_le_mul_right (2 ^ scale rank * denominator)
      (le_significand (show 0 < scale rank by omega))
    have hscaled := hscale.lt
    omega
  obtain ⟨hsame, -⟩ | ⟨hnext, -, -⟩ := succ_cases rank <;> omega

/-- The significand that a quotient nearest to a rank is rounded to, at the scale of the rank. -/
theorem roundedQuotient_scale (h : IsNearest (rank + 1) scaled denominator)
    (hpositive : 0 < denominator) :
    roundedQuotient scaled (2 ^ scale (rank + 1) * denominator) = significand (rank + 1) := by
  obtain ⟨hlower, hupper, hodd⟩ := h
  simp only [Nat.add_sub_cancel, midpoint_mul] at hlower hupper hodd
  have hrank := eq_scale_add_significand (rank + 1)
  apply roundedQuotient_eq (Nat.mul_pos (Nat.two_pow_pos _) hpositive)
  · obtain ⟨hscale, hsignificand⟩ | ⟨hscale, hsignificand, hlast⟩ := succ_cases rank
    · rw [hscale, hsignificand, Nat.add_mul]
      omega
    · have hunit : 2 ^ scale (rank + 1) * denominator = 2 * (2 ^ scale rank * denominator) := by
        rw [hscale, Nat.pow_succ', Nat.mul_assoc]
      have hpredecessor : significand rank = 2 ^ 53 - 1 := by omega
      rw [hpredecessor] at hlower
      rw [hsignificand, hunit]
      omega
  · exact hupper
  · intro hsignificandOdd
    obtain ⟨hscale, hsignificand⟩ | ⟨hscale, hsignificand, hlast⟩ := succ_cases rank
    · have hends := hodd (by omega)
      rw [hscale, hsignificand, Nat.add_mul] at hends ⊢
      omega
    · omega

/-- Below the first rank of a block, at the scale of the block before it, the quotient is rounded to
one more than the last significand. -/
theorem roundedQuotient_previousScale (hscale : IsScale scaled denominator (scale rank))
    (h : IsNearest (rank + 1) scaled denominator) (hpositive : 0 < denominator)
    (hnext : significand rank + 1 = 2 ^ 53) :
    roundedQuotient scaled (2 ^ scale rank * denominator) = 2 ^ 53 := by
  have hlower := h.lower
  rw [Nat.add_sub_cancel, midpoint_mul] at hlower
  have hlast : significand rank = 2 ^ 53 - 1 := by omega
  rw [hlast] at hlower
  have hupper := hscale.lt
  apply roundedQuotient_eq (Nat.mul_pos (Nat.two_pow_pos _) hpositive) <;> omega

/-- A quotient is rounded to the rank that it is nearest to. -/
theorem nearestRank_eq {numerator : Nat} (hpositive : 0 < denominator)
    (h : IsNearest (rank + 1) (numerator * 2 ^ places) denominator) :
    nearestRank numerator denominator = rank + 1 := by
  have hscale := isScale_log2 (numerator * 2 ^ places) hpositive
  simp only [nearestRank, Nat.pow_eq]
  generalize numerator * 2 ^ places = scaled at h hscale ⊢
  generalize (scaled / denominator).log2 - 52 = shift at hscale ⊢
  have hrank := eq_scale_add_significand (rank + 1)
  rw [Nat.mul_comm denominator]
  obtain rfl | ⟨rfl, hnext⟩ := hscale.cases h hpositive
  · rw [roundedQuotient_scale h hpositive, ← hrank]
  · obtain ⟨hsame, -⟩ | ⟨-, hfirst, hlast⟩ := succ_cases rank
    · omega
    · rw [roundedQuotient_previousScale hscale h hpositive hlast]
      omega

end StagedQuery.Binary64
