import StagedQuery.Binary64.Shortest
import StagedQuery.Proofs.Binary64.Nearest

/-!
# Shortest Decimals Read Back

The search for a shortest decimal returns one that lies in the interval of the double, and every
decimal in there is read as the double.  Powers of ten are compared after everything has been
brought to one denominator, so this is again arithmetic on natural numbers.
-/

namespace StagedQuery

/-! ## Decimals as quotients -/

namespace Decimal

/-- The numerator of the quotient as which a decimal is read. -/
def numerator (value : Decimal) : Nat := value.coefficient * 10 ^ value.exponent.toNat

/-- The denominator of the quotient as which a decimal is read. -/
def denominator (value : Decimal) : Nat := 10 ^ (-value.exponent).toNat

theorem denominator_pos (value : Decimal) : 0 < value.denominator := Nat.pow_pos (by decide)

/-- Two decimals are the same number. -/
def SameValue (value other : Decimal) : Prop :=
  value.numerator * other.denominator = other.numerator * value.denominator

end Decimal

namespace Binary64

open Decimal (denominator_pos)

namespace RoundingInterval

/-- The decimal lies in the interval. -/
def ContainsDecimal (interval : RoundingInterval) (value : Decimal) : Prop :=
  ∃ point, interval.contains point ∧
    2 * value.numerator * 10 ^ places = point * value.denominator

/-- Equal decimals lie in the same intervals. -/
theorem ContainsDecimal.congr {interval : RoundingInterval} {value other : Decimal}
    (h : interval.ContainsDecimal value)
    (hsame : value.SameValue other) : interval.ContainsDecimal other := by
  obtain ⟨point, hpoint, hvalue⟩ := h
  refine ⟨point, hpoint, Nat.eq_of_mul_eq_mul_right value.denominator_pos ?_⟩
  calc 2 * other.numerator * 10 ^ places * value.denominator
      = 2 * 10 ^ places * (other.numerator * value.denominator) := by ring
    _ = 2 * value.numerator * 10 ^ places * other.denominator := by
      rw [← show value.numerator * other.denominator = _ from hsame]
      ring
    _ = point * other.denominator * value.denominator := by rw [hvalue]; ring

/-! ## The interval of a rank -/

variable {rank point numerator denominator : Nat}

theorem contains_ofRank_iff : (ofRank (rank + 1)).contains point ↔
    midpoint rank * 5 ^ places ≤ point ∧ point ≤ midpoint (rank + 1) * 5 ^ places ∧
      ((rank + 1) % 2 = 1 →
        midpoint rank * 5 ^ places ≠ point ∧ point ≠ midpoint (rank + 1) * 5 ^ places) := by
  simp only [contains, ofRank, midpoint, Nat.add_sub_cancel, Nat.pow_eq, decide_eq_true_eq]
  split
  · simp only [Bool.and_eq_true, decide_eq_true_eq]
    omega
  · simp only [Bool.and_eq_true, decide_eq_true_eq]
    omega

/-- A quotient in the interval of a rank is nearest to it. -/
theorem isNearest_of_contains (hpositive : 0 < denominator)
    (hpoint : 2 * numerator * 10 ^ places = point * denominator)
    (h : (ofRank (rank + 1)).contains point) :
    IsNearest (rank + 1) (numerator * 2 ^ places) denominator := by
  have hten : 2 * (numerator * 2 ^ places) * 5 ^ places = point * denominator := by
    rw [← hpoint, show 10 = 2 * 5 from rfl, Nat.mul_pow]
    ring
  have hfive : 0 < 5 ^ places := Nat.pow_pos (by decide)
  have hle (bound : Nat) : bound * 5 ^ places ≤ point ↔
      bound * denominator ≤ 2 * (numerator * 2 ^ places) := by
    rw [← Nat.mul_le_mul_right_iff hpositive, ← hten, Nat.mul_right_comm bound,
      Nat.mul_le_mul_right_iff hfive]
  have hge (bound : Nat) : point ≤ bound * 5 ^ places ↔
      2 * (numerator * 2 ^ places) ≤ bound * denominator := by
    rw [← Nat.mul_le_mul_right_iff hpositive, ← hten, Nat.mul_right_comm bound,
      Nat.mul_le_mul_right_iff hfive]
  have heq {bound : Nat} (hbound : bound * denominator = 2 * (numerator * 2 ^ places)) :
      bound * 5 ^ places = point :=
    Nat.le_antisymm ((hle bound).2 hbound.le) ((hge bound).2 hbound.ge)
  obtain ⟨hlower, hupper, hodd⟩ := contains_ofRank_iff.1 h
  exact {
    lower := (hle _).1 hlower
    upper := (hge _).1 hupper
    odd := fun hrank ↦ ⟨fun hbound ↦ (hodd hrank).1 (heq hbound),
      fun hbound ↦ (hodd hrank).2 (heq hbound.symm).symm⟩ }

/-! ## The search -/

theorem center_ofRank (rank : Nat) : (ofRank rank).center = 2 * steps rank * 5 ^ places := by
  simp only [ofRank, Nat.pow_eq]

theorem center_even (rank : Nat) : (ofRank rank).center % 2 = 0 := by
  rw [center_ofRank, Nat.mul_assoc, Nat.mul_mod_right]

theorem contains_center (rank : Nat) : (ofRank (rank + 1)).contains (ofRank (rank + 1)).center := by
  have hfive : 0 < 5 ^ places := Nat.pow_pos (by decide)
  have hbelow := steps_lt_succ rank
  have habove := steps_lt_succ (rank + 1)
  have hlower : midpoint rank * 5 ^ places < 2 * steps (rank + 1) * 5 ^ places :=
    Nat.mul_lt_mul_of_pos_right (by rw [midpoint]; omega) hfive
  have hupper : 2 * steps (rank + 1) * 5 ^ places < midpoint (rank + 1) * 5 ^ places :=
    Nat.mul_lt_mul_of_pos_right (by rw [midpoint]; omega) hfive
  rw [contains_ofRank_iff, center_ofRank]
  exact ⟨hlower.le, hupper.le, fun _ ↦ ⟨hlower.ne, hupper.ne⟩⟩

theorem contains_of_nearestMultiple? {interval : RoundingInterval} {tie : Tie}
    {unit coefficient : Nat} (h : interval.nearestMultiple? tie unit = some coefficient) :
    interval.contains (coefficient * unit) := by
  unfold nearestMultiple? at h
  dsimp only at h
  generalize interval.center / unit = below at h
  split at h
  · next hboth =>
    obtain ⟨hbelow, habove⟩ := (Bool.and_eq_true _ _).mp hboth
    obtain hcoefficient | hcoefficient : coefficient = below ∨ coefficient = below + 1 := by
      split at h
      · exact .inl (Option.some.inj h).symm
      · split at h
        · exact .inr (Option.some.inj h).symm
        · cases tie with
          | up => exact .inr (Option.some.inj h).symm
          | even =>
            have hcoefficient := Option.some.inj h
            omega
    · rw [hcoefficient]
      exact hbelow
    · rw [hcoefficient]
      exact habove
  · split at h
    · next hbelow =>
      cases h
      exact hbelow
    · split at h
      · next habove =>
        cases h
        exact habove
      · cases h

/-- Every hit of the search lies in the interval. -/
theorem contains_coarsest {interval : RoundingInterval}
    (hcenter : interval.contains interval.center) (heven : interval.center % 2 = 0) (tie : Tie)
    (place : Nat) :
    interval.contains ((interval.coarsest tie place).1 *
      (2 * 10 ^ (interval.coarsest tie place).2)) := by
  induction place with
  | zero =>
    have hdouble : interval.center / 2 * (2 * 10 ^ 0) = interval.center := by omega
    rw [coarsest, hdouble]
    exact hcenter
  | succ place ih =>
    rw [coarsest]
    split
    · next coefficient h => exact contains_of_nearestMultiple? h
    · exact ih

end RoundingInterval

open RoundingInterval

/-- The shortest decimal of a double that is not zero is a hit of the search. -/
theorem Magnitude.shortest_eq {magnitude : Magnitude} (h : 0 < magnitude.rank) (tie : Tie) :
    ∃ place, place = (ofRank magnitude.rank).center.log2 / 3 + 1 ∧ magnitude.shortest tie =
      ⟨((ofRank magnitude.rank).coarsest tie place).1,
        ((ofRank magnitude.rank).coarsest tie place).2 - places⟩ := by
  refine ⟨_, rfl, ?_⟩
  rewrite [shortest, if_neg h.ne']
  extract_lets interval
  generalize interval.coarsest tie _ = hit
  cases hit
  rfl

/-- The shortest decimal of a double lies in its interval. -/
theorem Magnitude.containsDecimal_shortest {magnitude : Magnitude} (h : 0 < magnitude.rank)
    (tie : Tie) : (ofRank magnitude.rank).ContainsDecimal (magnitude.shortest tie) := by
  obtain ⟨rank, hrank⟩ := Nat.exists_eq_succ_of_ne_zero h.ne'
  have hcenter : (ofRank magnitude.rank).contains (ofRank magnitude.rank).center := by
    rw [hrank]
    exact contains_center rank
  obtain ⟨steps, -, hshortest⟩ := shortest_eq h tie
  have hhit := contains_coarsest hcenter (center_even _) tie steps
  rw [hshortest]
  generalize (ofRank magnitude.rank).coarsest tie steps = hit at hhit ⊢
  refine ⟨_, hhit, ?_⟩
  have hpowers : 10 ^ ((hit.2 : Int) - places).toNat * 10 ^ places =
      10 ^ hit.2 * 10 ^ (-((hit.2 : Int) - places)).toNat := by
    rw [← Nat.pow_add, ← Nat.pow_add]
    congr 1
    omega
  calc 2 * (hit.1 * 10 ^ ((hit.2 : Int) - places).toNat) * 10 ^ places
      = 2 * hit.1 * (10 ^ ((hit.2 : Int) - places).toNat * 10 ^ places) := by ring
    _ = hit.1 * (2 * 10 ^ hit.2) * 10 ^ (-((hit.2 : Int) - places)).toNat := by
      rw [hpowers]
      ring

/-! ## Orders of magnitude -/

section Leading

variable {rank : Nat} {value : Decimal}

theorem midpoint_pos (rank : Nat) : 0 < midpoint rank :=
  Nat.lt_of_lt_of_le (Nat.zero_lt_of_lt (steps_lt_succ rank)) (Nat.le_add_left _ _)

/-- The midpoint after the last finite double is not above `2 ^ 1024`. -/
theorem midpoint_le (h : rank < rankCount) : midpoint rank ≤ 2 * (2 ^ 1024 * 2 ^ places) := by
  have hcount : steps rankCount = 2 ^ 1024 * 2 ^ places := by decide +kernel
  have hrank := steps_strictMono.monotone h.le
  have hsucc := steps_strictMono.monotone (Nat.succ_le_of_lt h)
  rw [hcount] at hrank hsucc
  rw [midpoint, Nat.two_mul]
  exact Nat.add_le_add hrank hsucc

theorem numerator_lt (hrank : rank < rankCount)
    (h : IsNearest rank (value.numerator * 2 ^ places) value.denominator) :
    value.numerator < 10 ^ 309 * value.denominator := by
  have hbound : 2 ^ 1024 < 10 ^ 309 := by decide +kernel
  have hscaled : 2 * (value.numerator * 2 ^ places) ≤
      2 * (2 ^ 1024 * value.denominator * 2 ^ places) :=
    calc 2 * (value.numerator * 2 ^ places) ≤ midpoint rank * value.denominator := h.upper
      _ ≤ 2 * (2 ^ 1024 * 2 ^ places) * value.denominator :=
        Nat.mul_le_mul_right _ (midpoint_le hrank)
      _ = 2 * (2 ^ 1024 * value.denominator * 2 ^ places) := by
        rw [Nat.mul_assoc, Nat.mul_right_comm (2 ^ 1024)]
  have hnumerator : value.numerator ≤ 2 ^ 1024 * value.denominator :=
    Nat.le_of_mul_le_mul_right (Nat.le_of_mul_le_mul_left hscaled Nat.two_pos)
      (Nat.two_pow_pos places)
  refine Nat.lt_of_le_of_lt hnumerator ?_
  rw [Nat.mul_lt_mul_right value.denominator_pos]
  exact hbound

theorem denominator_le (h : IsNearest rank (value.numerator * 2 ^ places) value.denominator) :
    value.denominator ≤ value.numerator * 10 ^ 324 := by
  have hbound : 2 * 2 ^ places ≤ 10 ^ 324 := by decide +kernel
  calc value.denominator ≤ midpoint (rank - 1) * value.denominator :=
        Nat.le_mul_of_pos_left _ (midpoint_pos _)
    _ ≤ 2 * (value.numerator * 2 ^ places) := h.lower
    _ = value.numerator * (2 * 2 ^ places) := by ring
    _ ≤ value.numerator * 10 ^ 324 := Nat.mul_le_mul_left _ hbound

theorem coefficient_lt (value : Decimal) :
    value.coefficient < 10 ^ (Nat.toDigits 10 value.coefficient).length :=
  (Nat.length_toDigits_le_iff (by decide) (List.length_pos_iff.2 Nat.toDigits_ne_nil)).1 le_rfl

theorem le_coefficient (h : value.coefficient ≠ 0) :
    10 ^ ((Nat.toDigits 10 value.coefficient).length - 1) ≤ value.coefficient := by
  by_cases hlength : 0 < (Nat.toDigits 10 value.coefficient).length - 1
  · by_contra hsmall
    have hshorter := (Nat.length_toDigits_le_iff (by decide) hlength).2 (Nat.lt_of_not_le hsmall)
    omega
  · rw [Nat.eq_zero_of_not_pos hlength]
    exact Nat.one_le_iff_ne_zero.2 h

/-- A decimal near a finite double has its leading digit where the double can have it. -/
theorem leading_bounds (hrank : rank < rankCount) (hcoefficient : value.coefficient ≠ 0)
    (h : IsNearest rank (value.numerator * 2 ^ places) value.denominator) :
    value.exponent + (Nat.toDigits 10 value.coefficient).length ≤ 309 ∧
      -324 < value.exponent + (Nat.toDigits 10 value.coefficient).length := by
  have habove := numerator_lt hrank h
  have hbelow := denominator_le h
  have hlower := le_coefficient hcoefficient
  have hupper := coefficient_lt value
  rw [Decimal.numerator, Decimal.denominator] at habove hbelow
  generalize (Nat.toDigits 10 value.coefficient).length = length at hlower hupper ⊢
  constructor
  · have hpower : 10 ^ (length - 1 + value.exponent.toNat) <
        10 ^ (309 + (-value.exponent).toNat) :=
      calc 10 ^ (length - 1 + value.exponent.toNat)
          = 10 ^ (length - 1) * 10 ^ value.exponent.toNat := Nat.pow_add _ _ _
        _ ≤ value.coefficient * 10 ^ value.exponent.toNat := Nat.mul_le_mul_right _ hlower
        _ < 10 ^ 309 * 10 ^ (-value.exponent).toNat := habove
        _ = 10 ^ (309 + (-value.exponent).toNat) := by rw [Nat.pow_add 10 309]
    have hexponent := (Nat.pow_lt_pow_iff_right (by decide)).1 hpower
    omega
  · have hpower : 10 ^ (-value.exponent).toNat < 10 ^ (length + value.exponent.toNat + 324) :=
      calc 10 ^ (-value.exponent).toNat
          ≤ value.coefficient * 10 ^ value.exponent.toNat * 10 ^ 324 := hbelow
        _ < 10 ^ length * 10 ^ value.exponent.toNat * 10 ^ 324 := by
          rw [Nat.mul_lt_mul_right (Nat.pow_pos (by decide)),
            Nat.mul_lt_mul_right (Nat.pow_pos (by decide))]
          exact hupper
        _ = 10 ^ (length + value.exponent.toNat + 324) := by rw [Nat.pow_add, Nat.pow_add]
    have hexponent := (Nat.pow_lt_pow_iff_right (by decide)).1 hpower
    omega

end Leading

/-! ## Reading -/

/-- A decimal in the interval of a double is read as the double. -/
theorem Magnitude.ofDecimal?_eq {magnitude : Magnitude} {value : Decimal} (h : 0 < magnitude.rank)
    (hvalue : (ofRank magnitude.rank).ContainsDecimal value) :
    Magnitude.ofDecimal? value = some magnitude := by
  obtain ⟨point, hcontains, hpoint⟩ := hvalue
  obtain ⟨rank, hlast⟩ := magnitude
  cases rank with
  | zero => exact absurd h (Nat.lt_irrefl 0)
  | succ rank =>
    have hnearest := isNearest_of_contains value.denominator_pos hpoint hcontains
    have hcoefficient : value.coefficient ≠ 0 := by
      intro hzero
      have hlower := hnearest.lower
      rw [Decimal.numerator, hzero, Nat.zero_mul, Nat.zero_mul, Nat.mul_zero] at hlower
      have hpositive := Nat.mul_pos (midpoint_pos (rank + 1 - 1)) value.denominator_pos
      omega
    have hleading := leading_bounds hlast hcoefficient hnearest
    have hquotient := nearestRank_eq value.denominator_pos hnearest
    rw [Decimal.numerator, Decimal.denominator] at hquotient
    simp only [ofDecimal?, ofQuotient?, Nat.pow_eq]
    rw [if_neg hcoefficient, if_neg (by omega), if_neg (by omega), hquotient, ofRank?,
      dif_pos hlast]

end Binary64

end StagedQuery
