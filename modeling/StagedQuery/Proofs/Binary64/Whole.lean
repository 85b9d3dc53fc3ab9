import StagedQuery.Proofs.Binary64.Marked

/-!
# Whole Numbers

The double nearest to a natural number is whole as well.  Its plain form is the digits of a natural
number for which the same double is the nearest one.  Up to `2 ^ 53` every natural number is a
double itself, and its plain form is its own digits; beyond, the last digits may be those of another
number.
-/

namespace StagedQuery

namespace Binary64

variable {rank value whole : Nat}

/-! ## Natural numbers as doubles -/

theorem roundedQuotient_mul (value : Nat) {denominator : Nat} (hpositive : 0 < denominator) :
    roundedQuotient (value * denominator) denominator = value := by
  apply roundedQuotient_eq hpositive <;> omega

/-- A scale and a significand of 53 bits, or one more than the last of these, make up the rank of
their product. -/
theorem steps_of_quotient {shift quotient : Nat} (hle : quotient ≤ 2 ^ 53)
    (hshift : 0 < shift → 2 ^ 52 ≤ quotient) :
    steps (shift * 2 ^ 52 + quotient) = quotient * 2 ^ shift := by
  obtain hlast | hlt := Nat.eq_or_lt_of_le hle
  · have hscale : scale (shift * 2 ^ 52 + quotient) = shift + 1 := by
      simp only [scale, Nat.pow_eq]
      omega
    have hsignificand : significand (shift * 2 ^ 52 + quotient) = 2 ^ 52 := by
      simp only [significand, Nat.pow_eq]
      split <;> omega
    rw [steps_eq, hscale, hsignificand, hlast]
    ring
  · have hscale : scale (shift * 2 ^ 52 + quotient) = shift := by
      simp only [scale, Nat.pow_eq]
      omega
    have hsignificand : significand (shift * 2 ^ 52 + quotient) = quotient := by
      simp only [significand, Nat.pow_eq]
      split <;> omega
    rw [steps_eq, hscale, hsignificand]

theorem le_roundedQuotient (numerator denominator : Nat) :
    numerator / denominator ≤ roundedQuotient numerator denominator := by
  unfold roundedQuotient
  dsimp only
  split
  · exact le_rfl
  · split <;> omega

/-- A natural number is rounded to a multiple of the power of two that leaves 53 bits of it. -/
theorem exists_steps_nearestRank (value : Nat) : ∃ shift,
    IsScale (value * 2 ^ places) 1 shift ∧ steps (nearestRank value 1) =
      roundedQuotient (value * 2 ^ places) (2 ^ shift) * 2 ^ shift := by
  have hscale := isScale_log2 (value * 2 ^ places) Nat.one_pos
  rw [Nat.div_one] at hscale
  refine ⟨_, hscale, ?_⟩
  simp only [nearestRank, Nat.pow_eq, Nat.div_one, Nat.one_mul]
  generalize value * 2 ^ places = scaled at hscale ⊢
  generalize scaled.log2 - 52 = shift at hscale ⊢
  have hpositive : 0 < 2 ^ shift := Nat.two_pow_pos shift
  obtain ⟨hlt, hle⟩ := hscale
  rw [Nat.mul_one] at hlt hle
  apply steps_of_quotient
  · have hquotient : scaled / 2 ^ shift < 2 ^ 53 := (Nat.div_lt_iff_lt_mul hpositive).2 hlt
    have hrounded := roundedQuotient_le scaled (2 ^ shift)
    omega
  · intro hshift
    have hquotient : 2 ^ 52 ≤ scaled / 2 ^ shift := (Nat.le_div_iff_mul_le hpositive).2 (hle hshift)
    exact hquotient.trans (le_roundedQuotient scaled (2 ^ shift))

theorem steps_nearestRank_of_le {shift : Nat} (hshift : shift ≤ places) (value : Nat) :
    roundedQuotient (value * 2 ^ places) (2 ^ shift) * 2 ^ shift = value * 2 ^ places := by
  have hsplit : 2 ^ places = 2 ^ (places - shift) * 2 ^ shift := by
    rw [← Nat.pow_add, Nat.sub_add_cancel hshift]
  rw [hsplit, ← Nat.mul_assoc, roundedQuotient_mul _ (Nat.two_pow_pos shift)]

/-- The double nearest to a natural number is whole. -/
theorem exists_whole (value : Nat) : ∃ whole, steps (nearestRank value 1) = whole * 2 ^ places := by
  obtain ⟨shift, -, hsteps⟩ := exists_steps_nearestRank value
  rw [hsteps]
  obtain hlt | hle := Nat.lt_or_ge places shift
  · have hsplit : 2 ^ shift = 2 ^ (shift - places) * 2 ^ places := by
      rw [← Nat.pow_add, Nat.sub_add_cancel hlt.le]
    refine ⟨roundedQuotient (value * 2 ^ places) (2 ^ shift) * 2 ^ (shift - places), ?_⟩
    rw [hsplit]
    ring
  · exact ⟨value, steps_nearestRank_of_le hle value⟩

/-- A natural number of at most 53 bits is a double. -/
theorem steps_nearestRank (h : value < 2 ^ 53) :
    steps (nearestRank value 1) = value * 2 ^ places := by
  obtain ⟨shift, ⟨-, hscale⟩, hsteps⟩ := exists_steps_nearestRank value
  rw [hsteps]
  apply steps_nearestRank_of_le
  by_contra hshift
  have hpower : 2 ^ 53 * 2 ^ places ≤ 2 ^ 52 * 2 ^ shift := by
    rw [← Nat.pow_add, ← Nat.pow_add]
    exact Nat.pow_le_pow_right Nat.two_pos (by omega)
  have hlower := hscale (by omega)
  have hupper := Nat.mul_lt_mul_of_pos_right h (Nat.two_pow_pos places)
  omega

/-! ## Whole numbers near a double -/

/-- Only the number itself is nearest to a double of at most 53 bits. -/
theorem eq_of_isNearest {shown : Nat} (hsteps : steps (rank + 1) = value * 2 ^ places)
    (hvalue : value < 2 ^ 53) (h : IsNearest (rank + 1) (shown * 2 ^ places) 1) :
    shown = value := by
  have hscale : scale (rank + 1) ≤ places := by
    by_contra hlarge
    have hsignificand := Nat.mul_le_mul_right (2 ^ scale (rank + 1))
      (le_significand (show 0 < scale (rank + 1) by omega))
    have hpower : 2 ^ 53 * 2 ^ places ≤ 2 ^ 52 * 2 ^ scale (rank + 1) := by
      rw [← Nat.pow_add, ← Nat.pow_add]
      exact Nat.pow_le_pow_right Nat.two_pos (by omega)
    have hupper := Nat.mul_lt_mul_of_pos_right hvalue (Nat.two_pow_pos places)
    rw [← steps_eq] at hsignificand
    omega
  have hunit {lower : Nat} (hlower : scale lower ≤ scale (rank + 1)) :
      2 ^ scale lower ≤ 2 ^ places :=
    Nat.pow_le_pow_right Nat.two_pos (hlower.trans hscale)
  have hbelow : scale rank ≤ scale (rank + 1) := by
    obtain ⟨hsame, -⟩ | ⟨hnext, -, -⟩ := succ_cases rank <;> omega
  obtain ⟨hlower, hupper, -⟩ := h
  have hrank : steps (rank + 1) = steps rank + 2 ^ scale rank := by rw [steps_succ, steps_eq]; ring
  have hnext : steps (rank + 2) = steps (rank + 1) + 2 ^ scale (rank + 1) := by
    rw [steps_succ (rank + 1), steps_eq (rank + 1)]
    ring
  simp only [midpoint, Nat.add_sub_cancel, Nat.mul_one] at hlower hupper
  have hunitBelow := hunit hbelow
  have hunitAbove := hunit le_rfl
  rw [hnext, hsteps] at hupper
  rw [hrank] at hsteps
  have hupper : shown * 2 ^ places < (value + 1) * 2 ^ places := by
    have hpositive := Nat.two_pow_pos places
    rw [Nat.add_mul]
    omega
  have hlower : value * 2 ^ places < (shown + 1) * 2 ^ places := by
    have hpositive := Nat.two_pow_pos places
    rw [Nat.add_mul]
    omega
  have hle := (Nat.mul_lt_mul_right (Nat.two_pow_pos places)).1 hupper
  have hge := (Nat.mul_lt_mul_right (Nat.two_pow_pos places)).1 hlower
  omega

/-! ## Shortest decimals -/

namespace RoundingInterval

variable {interval : RoundingInterval}

/-- The grid of whole numbers holds the center of a whole double. -/
theorem nearestMultiple?_isSome (tie : Tie) {unit : Nat}
    (hcenter : interval.center = whole * unit) (hcontains : interval.contains interval.center)
    (hunit : 0 < unit) : (interval.nearestMultiple? tie unit).isSome := by
  have hbelow : interval.contains (interval.center / unit * unit) := by
    rwa [hcenter, Nat.mul_div_cancel _ hunit, ← hcenter]
  unfold nearestMultiple?
  dsimp only
  rw [hbelow]
  split
  · split
    · rfl
    · split
      · rfl
      · cases tie <;> rfl
  · rfl

/-- The search for the decimal of a whole double ends on the grid of whole numbers or before. -/
theorem le_coarsest (tie : Tie) (hcenter : interval.center = whole * (2 * 10 ^ places))
    (hcontains : interval.contains interval.center) {place : Nat} (hplace : places ≤ place) :
    places ≤ (interval.coarsest tie place).2 := by
  induction place, hplace using Nat.le_induction with
  | base =>
    have hunit : 0 < 2 * 10 ^ places := Nat.mul_pos Nat.two_pos (Nat.pow_pos (by decide))
    have hsome := nearestMultiple?_isSome tie hcenter hcontains hunit
    obtain ⟨coefficient, hcoefficient⟩ := Option.isSome_iff_exists.1 hsome
    obtain ⟨last, hlast⟩ : ∃ last, places = last + 1 := ⟨1073, rfl⟩
    rw [hlast] at hcoefficient ⊢
    rw [coarsest, Nat.pow_eq, hcoefficient]
  | succ place hplace ih =>
    rw [coarsest]
    split
    · exact hplace.trans (Nat.le_succ place)
    · exact ih

end RoundingInterval

open RoundingInterval

theorem two_pow_le_mul_ten_pow (h : 0 < whole) (exponent : Nat) :
    2 ^ (3 * exponent) ≤ whole * (2 * 10 ^ exponent) :=
  calc 2 ^ (3 * exponent) = (2 ^ 3) ^ exponent := Nat.pow_mul _ _ _
    _ ≤ 10 ^ exponent := Nat.pow_le_pow_left (by decide) exponent
    _ ≤ 2 * 10 ^ exponent := Nat.le_mul_of_pos_left _ Nat.two_pos
    _ ≤ whole * (2 * 10 ^ exponent) := Nat.le_mul_of_pos_left _ h

/-- The shortest decimal of a whole double is whole. -/
theorem Magnitude.exponent_shortest_nonneg {magnitude : Magnitude} (tie : Tie)
    (hwhole : steps magnitude.rank = whole * 2 ^ places) :
    0 ≤ (magnitude.shortest tie).exponent := by
  obtain hzero | hpositive := Nat.eq_zero_or_pos magnitude.rank
  · rw [shortest, if_pos hzero]
  · obtain ⟨rank, hrank⟩ := Nat.exists_eq_succ_of_ne_zero hpositive.ne'
    have hcenter : (ofRank magnitude.rank).center = whole * (2 * 10 ^ places) := by
      rw [center_ofRank, hwhole, show 10 = 2 * 5 from rfl, Nat.mul_pow]
      ring
    have hcontains : (ofRank magnitude.rank).contains (ofRank magnitude.rank).center := by
      rw [hrank]
      exact contains_center rank
    obtain ⟨place, hplace, hshortest⟩ := shortest_eq hpositive tie
    have hle : places ≤ place := by
      have hnonzero : 0 < whole := by
        apply Nat.pos_of_ne_zero
        rintro rfl
        rw [Nat.zero_mul, hrank] at hwhole
        exact Nat.not_lt_zero (steps rank) (hwhole ▸ steps_lt_succ rank)
      have hlarge := two_pow_le_mul_ten_pow hnonzero places
      rw [← hcenter] at hlarge
      have hscaled := Nat.pos_iff_ne_zero.1 ((Nat.two_pow_pos _).trans_le hlarge)
      have hlog := (Nat.le_log2 hscaled).2 hlarge
      omega
    have hhit := le_coarsest tie hcenter hcontains hle
    rw [hshortest]
    exact Int.sub_nonneg.2 (Int.ofNat_le.2 hhit)

end Binary64

/-- The plain digits of a whole decimal are those of the natural number. -/
theorem Decimal.positional_of_nonneg {value : Decimal} (hexponent : 0 ≤ value.exponent)
    (hzero : value.coefficient = 0 → value.exponent = 0) :
    value.positional = Nat.toDigits 10 value.numerator := by
  have hzeros (places : Nat) (hplaces : value.coefficient = 0 → places = 0) :
      value.digits ++ List.replicate places '0' =
        Nat.toDigits 10 (value.coefficient * 10 ^ places) := by
    induction places with
    | zero => simp [digits]
    | succ places ih =>
      have hpositive : 0 < value.coefficient :=
        Nat.pos_of_ne_zero fun hcoefficient ↦ by simpa using hplaces hcoefficient
      have hlarge : 10 ≤ value.coefficient * 10 ^ (places + 1) := by
        rw [Nat.pow_succ, ← Nat.mul_assoc]
        exact Nat.le_mul_of_pos_left 10 (Nat.mul_pos hpositive (Nat.pow_pos (by decide)))
      rw [Nat.toDigits_of_base_le (by decide) hlarge, Nat.pow_succ, ← Nat.mul_assoc,
        Nat.mul_div_cancel _ (by decide), Nat.mul_mod_left, ← ih (by omega), List.replicate_succ',
        List.append_assoc]
      rfl
  rw [positional, if_pos hexponent, numerator]
  exact hzeros _ (by omega)

/-! ## Plain forms -/

namespace Binary64

open RoundingInterval

namespace Magnitude

variable {magnitude : Magnitude} {whole : Nat}

/-- The shortest decimal of a whole double is a natural number to which the double is nearest. -/
theorem isNearest_numerator (tie : Tie) (hwhole : steps magnitude.rank = whole * 2 ^ places)
    {rank : Nat} (hrank : magnitude.rank = rank + 1) :
    IsNearest (rank + 1) ((magnitude.shortest tie).numerator * 2 ^ places) 1 := by
  have hexponent := exponent_shortest_nonneg tie hwhole
  have hdenominator : (magnitude.shortest tie).denominator = 1 := by
    rw [Decimal.denominator, Int.toNat_eq_zero.2 (by omega), Nat.pow_zero]
  obtain ⟨point, hcontains, hpoint⟩ :=
    containsDecimal_shortest (show 0 < magnitude.rank by omega) tie
  rw [hrank] at hcontains
  rw [hdenominator] at hpoint
  exact isNearest_of_contains Nat.one_pos hpoint hcontains

/-- The plain digits of a whole double are those of a natural number with the same nearest
double. -/
theorem nearestRank_numerator (tie : Tie) (hwhole : steps magnitude.rank = whole * 2 ^ places) :
    nearestRank (magnitude.shortest tie).numerator 1 = magnitude.rank := by
  obtain hzero | hpositive := Nat.eq_zero_or_pos magnitude.rank
  · rw [shortest, if_pos hzero, hzero]
    decide +kernel
  · obtain ⟨rank, hrank⟩ := Nat.exists_eq_succ_of_ne_zero hpositive.ne'
    rw [nearestRank_eq Nat.one_pos (isNearest_numerator tie hwhole hrank), hrank]

theorem numerator_shortest_of_lt (tie : Tie) {value : Nat}
    (hvalue : steps magnitude.rank = value * 2 ^ places) (hlt : value < 2 ^ 53) :
    (magnitude.shortest tie).numerator = value := by
  obtain hzero | hpositive := Nat.eq_zero_or_pos magnitude.rank
  · have hproduct : value * 2 ^ places = 0 := by
      rw [← hvalue, hzero]
      rfl
    obtain rfl : value = 0 :=
      (Nat.mul_eq_zero.1 hproduct).resolve_right (Nat.two_pow_pos places).ne'
    rw [shortest, if_pos hzero]
    rfl
  · obtain ⟨rank, hrank⟩ := Nat.exists_eq_succ_of_ne_zero hpositive.ne'
    have hnearest := isNearest_numerator tie hvalue hrank
    rw [hrank] at hvalue
    exact eq_of_isNearest hvalue hlt hnearest

/-- The last number before which no natural number is skipped. -/
theorem numerator_shortest_last :
    ((ofWord (2 ^ 53) (by decide)).shortest .up).numerator = 2 ^ 53 := by
  decide +kernel

end Magnitude

/-- The plain form of the double nearest to a natural number is a sign and the digits of a natural
number with the same nearest double.  Up to `2 ^ 53` this is the number itself. -/
theorem Finite.exists_plain_eq (negative : Bool) {value : Nat} (h : value ≤ Nat.pow 2 64) :
    ∃ shown, (Finite.mk negative (.ofWord value h)).plain.toList =
        (if negative then ['-'] else []) ++ Nat.toDigits 10 shown ∧
      nearestRank shown 1 = nearestRank value 1 ∧ (value ≤ 2 ^ 53 → shown = value) := by
  obtain ⟨whole, hwhole⟩ := exists_whole value
  have hrank : (Magnitude.ofWord value h).rank = nearestRank value 1 := rfl
  rw [← hrank] at hwhole
  have hpositional := Decimal.positional_of_nonneg
    (Magnitude.exponent_shortest_nonneg .up hwhole) (Magnitude.shortest_exponent _ .up)
  refine ⟨_, ?_, Magnitude.nearestRank_numerator .up hwhole, fun hle ↦ ?_⟩
  · rw [plain, signed, String.toList_ofList, hpositional]
    cases negative with
    | true => rw [if_pos rfl, if_pos rfl, List.singleton_append]
    | false => rw [if_neg Bool.false_ne_true, if_neg Bool.false_ne_true, List.nil_append]
  · obtain rfl | hlt := Nat.eq_or_lt_of_le hle
    · exact Magnitude.numerator_shortest_last
    · exact Magnitude.numerator_shortest_of_lt .up (steps_nearestRank hlt) hlt

end Binary64

/-! ## Integers -/

theorem Binary64.nearestRank_pos {value : Nat} (h : 0 < value) : 0 < nearestRank value 1 := by
  have hscaled : value * 2 ^ places ≠ 0 := (Nat.mul_pos h (Nat.two_pow_pos places)).ne'
  simp only [nearestRank, Nat.pow_eq, Nat.div_one, Nat.one_mul]
  generalize value * 2 ^ places = scaled at hscaled ⊢
  have hle : 2 ^ (scaled.log2 - 52) ≤ scaled :=
    (Nat.pow_le_pow_right Nat.two_pos (Nat.sub_le _ _)).trans (Nat.log2_self_le hscaled)
  have hquotient := Nat.div_pos hle (Nat.two_pow_pos _)
  have hrounded := le_roundedQuotient scaled (2 ^ (scaled.log2 - 52))
  omega

/-- The sign and the rank of the double nearest to an integer. -/
def Binary64.nearestToInt (value : Int) : Bool × Nat :=
  (decide (value < 0), nearestRank value.natAbs 1)

open Binary64 in
/-- The plain form of the double nearest to an integer is that of an integer with the same nearest
double.  Up to `2 ^ 53` on either side of zero this is the integer itself. -/
theorem Json.Number.exists_plain_eq {value : Int}
    (fits : -Nat.pow 2 63 ≤ value ∧ value < Nat.pow 2 64) :
    ∃ shown : Int, (integer value fits).toDouble.plain = toString shown ∧
      nearestToInt shown = nearestToInt value ∧ (value.natAbs ≤ 2 ^ 53 → shown = value) := by
  have hword : value.natAbs ≤ Nat.pow 2 64 := by
    simp only [Nat.pow_eq] at fits ⊢
    omega
  obtain ⟨shown, hplain, hnearest, hexact⟩ :=
    Finite.exists_plain_eq (decide (value < 0)) hword
  have hsign : shown = 0 → value = 0 := by
    rintro rfl
    by_contra hvalue
    have hpositive := nearestRank_pos (Int.natAbs_pos.2 hvalue)
    rw [← hnearest] at hpositive
    exact absurd hpositive (by decide +kernel)
  obtain ⟨signed, habs, hnegative⟩ :
      ∃ signed : Int, signed.natAbs = shown ∧ decide (signed < 0) = decide (value < 0) := by
    by_cases hvalue : value < 0
    · exact ⟨-shown, by omega, decide_eq_decide.2 (by omega)⟩
    · exact ⟨shown, by omega, decide_eq_decide.2 (by omega)⟩
  refine ⟨signed, String.toList_inj.1 ?_, ?_, fun hle ↦ ?_⟩
  · rw [toList_toString_int, hnegative, habs]
    exact hplain
  · rw [nearestToInt, nearestToInt, hnegative, habs, hnearest]
  · have hsame := hexact hle
    have hsigns := decide_eq_decide.1 hnegative
    omega

end StagedQuery
