import StagedQuery.Proofs.Binary64.Plain
import StagedQuery.Proofs.Binary64.Shortest
import StagedQuery.Proofs.Json.Numerals

/-!
# Marked Numbers Read Back

The marked form of a double is a numeral with a point or an exponent, so it is not taken for an
integer, and the decimal of that numeral is the shortest decimal of the double.
-/

namespace StagedQuery

namespace Decimal

/-- The numeral has the value of the decimal and is what the text shows, after a sign. -/
structure IsShownAs (value : Decimal) (text : List Char) (numeral : Numeral) : Prop where
  writable : numeral.Writable
  text : text = numeral.whole ++ (numeral.fractionText ++ numeral.exponentText)
  sameValue : value.SameValue numeral.decimal

/-- The numeral is what the marked form of the decimal shows, after a sign. -/
structure IsMarkedAs (value : Decimal) (numeral : Numeral) : Prop
    extends value.IsShownAs value.marked numeral where
  isInteger : numeral.isInteger = false

variable {value : Decimal} (negative : Bool)

theorem isWhole_digits (value : Decimal) : Numeral.IsWhole value.digits :=
  Numeral.isWhole_toDigits value.coefficient

theorem ofDigitChars_digits (value : Decimal) :
    Nat.ofDigitChars 10 value.digits 0 = value.coefficient :=
  Nat.ofDigitChars_ten_toDigits

/-- The first digit is only zero if there is no other digit. -/
theorem exists_digit_ne_zero (hcoefficient : value.coefficient ≠ 0) :
    ∃ c ∈ value.digits, c ≠ '0' := by
  obtain ⟨first, rest, hdigits⟩ := List.exists_cons_of_ne_nil value.digits_ne_nil
  refine ⟨first, by simp [hdigits], ?_⟩
  rintro rfl
  have hzero := value.isWhole_digits.leading (by simp [hdigits])
  apply hcoefficient
  rw [← ofDigitChars_digits, hzero]
  rfl

theorem sameValue_of_eq {numeral : Numeral}
    (hcoefficient : Nat.ofDigitChars 10 (numeral.whole ++ numeral.fraction.getD []) 0 =
      value.coefficient)
    (hexponent : numeral.exponent.getD 0 - (numeral.fraction.getD []).length = value.exponent) :
    value.SameValue numeral.decimal := by
  have hdecimal : numeral.decimal = value := by
    rw [Numeral.decimal, hcoefficient, hexponent]
  rw [hdecimal]
  exact rfl

/-! ## Positional forms -/

theorem isWhole_append_zeros (hzero : value.coefficient = 0 → value.exponent = 0) :
    Numeral.IsWhole (value.digits ++ List.replicate value.exponent.toNat '0') := by
  refine ⟨List.append_ne_nil_of_left_ne_nil value.digits_ne_nil _, ?_, ?_⟩
  · intro c hc
    exact (List.mem_append.1 hc).elim isDigit_of_mem_digits isDigit_of_mem_zeros
  · intro hhead
    rw [List.head?_append_of_ne_nil _ value.digits_ne_nil] at hhead
    have hdigits := value.isWhole_digits.leading hhead
    have hcoefficient : value.coefficient = 0 := by
      rw [← ofDigitChars_digits, hdigits]
      rfl
    rw [hdigits, hzero hcoefficient]
    rfl

theorem ofDigitChars_append_zeros (value : Decimal) :
    Nat.ofDigitChars 10 (value.digits ++ List.replicate value.exponent.toNat '0') 0 =
      value.numerator := by
  rw [Nat.ofDigitChars_append, ofDigitChars_digits, Nat.ofDigitChars_replicate_zero]
  exact Nat.mul_comm _ _

/-- A whole number. -/
theorem isShownAs_whole (hexponent : 0 ≤ value.exponent)
    (hzero : value.coefficient = 0 → value.exponent = 0) :
    value.IsShownAs value.positional
      ⟨negative, value.digits ++ List.replicate value.exponent.toNat '0', none, none⟩ where
  writable := ⟨isWhole_append_zeros hzero, by simp⟩
  text := by
    rw [positional, if_pos hexponent]
    simp [Numeral.fractionText, Numeral.exponentText]
  sameValue := by
    have hdenominator : (-value.exponent).toNat = 0 := by omega
    change value.numerator * 10 ^ 0 =
      Nat.ofDigitChars 10 (value.digits ++ List.replicate value.exponent.toNat '0' ++ []) 0 *
        10 ^ 0 * 10 ^ (-value.exponent).toNat
    rw [List.append_nil, ofDigitChars_append_zeros, hdenominator, Nat.pow_zero, Nat.mul_one,
      Nat.mul_one]

/-- A whole number, with `.0` after it. -/
theorem isMarkedAs_whole (hexponent : 0 ≤ value.exponent)
    (hzero : value.coefficient = 0 → value.exponent = 0)
    (hmarked : value.marked = value.positional ++ ['.', '0']) :
    value.IsMarkedAs ⟨negative, value.digits ++ List.replicate value.exponent.toNat '0',
      some ['0'], none⟩ where
  writable := by
    refine ⟨isWhole_append_zeros hzero, ?_⟩
    rintro digits hdigits
    cases hdigits
    refine ⟨List.cons_ne_nil _ _, fun c hc ↦ ?_⟩
    obtain rfl := List.mem_singleton.1 hc
    decide
  text := by
    rw [hmarked, positional, if_pos hexponent]
    simp [Numeral.fractionText, Numeral.exponentText]
  isInteger := rfl
  sameValue := by
    have hcoefficient : Nat.ofDigitChars 10
        (value.digits ++ List.replicate value.exponent.toNat '0' ++ ['0']) 0 =
          value.numerator * 10 := by
      rw [Nat.ofDigitChars_append, ofDigitChars_append_zeros]
      exact Nat.mul_comm _ _
    have hdenominator : (-value.exponent).toNat = 0 := by omega
    change value.numerator * 10 ^ 1 =
      Nat.ofDigitChars 10 (value.digits ++ List.replicate value.exponent.toNat '0' ++ ['0']) 0 *
        10 ^ 0 * 10 ^ (-value.exponent).toNat
    rw [hcoefficient, hdenominator, Nat.pow_one, Nat.pow_zero, Nat.mul_one, Nat.mul_one]

/-- A number with a point inside its digits. -/
theorem isShownAs_point (hexponent : value.exponent < 0)
    (hpoint : 0 < value.digits.length + value.exponent) :
    value.IsShownAs value.positional
      ⟨negative, value.digits.take (value.digits.length + value.exponent).toNat,
        some (value.digits.drop (value.digits.length + value.exponent).toNat), none⟩ where
  writable := by
    refine ⟨⟨?_, fun c hc ↦ isDigit_of_mem_digits (List.mem_of_mem_take hc), ?_⟩, ?_⟩
    · exact List.ne_nil_of_length_pos (by rw [List.length_take]; omega)
    · intro hhead
      rw [List.head?_take, if_neg (by omega)] at hhead
      have hdigits := value.isWhole_digits.leading hhead
      rw [hdigits, List.length_singleton] at hpoint
      omega
    · rintro digits hdigits
      cases hdigits
      exact ⟨List.ne_nil_of_length_pos (by rw [List.length_drop]; omega),
        fun c hc ↦ isDigit_of_mem_digits (List.mem_of_mem_drop hc)⟩
  text := by
    rw [positional, if_neg (by omega), if_pos hpoint]
    simp [Numeral.fractionText, Numeral.exponentText]
  sameValue := by
    apply sameValue_of_eq
    · simp only [Option.getD_some, List.take_append_drop, ofDigitChars_digits]
    · simp only [Option.getD_none, Option.getD_some, List.length_drop]
      omega

/-- A number below one. -/
theorem isShownAs_small (hpoint : value.digits.length + value.exponent ≤ 0) :
    value.IsShownAs value.positional ⟨negative, ['0'],
      some (List.replicate (-(value.digits.length + value.exponent)).toNat '0' ++ value.digits),
      none⟩ where
  writable := by
    refine ⟨⟨List.cons_ne_nil _ _, fun c hc ↦ ?_, fun _ ↦ rfl⟩, ?_⟩
    · obtain rfl := List.mem_singleton.1 hc
      decide
    rintro digits hdigits
    cases hdigits
    refine ⟨List.append_ne_nil_of_right_ne_nil _ value.digits_ne_nil, fun c hc ↦ ?_⟩
    exact (List.mem_append.1 hc).elim isDigit_of_mem_zeros isDigit_of_mem_digits
  text := by
    have hlength := List.length_pos_iff.2 value.digits_ne_nil
    rw [positional, if_neg (by omega), if_neg (by omega)]
    simp [Numeral.fractionText, Numeral.exponentText]
  sameValue := by
    apply sameValue_of_eq
    · have hzeros (count : Nat) :
          Nat.ofDigitChars 10 (['0'] ++ List.replicate count '0') 0 = 0 := by
        rw [Nat.ofDigitChars_append, Nat.ofDigitChars_replicate_zero]
        exact Nat.mul_zero _
      simp only [Option.getD_some, ← List.append_assoc]
      rw [Nat.ofDigitChars_append, hzeros, ofDigitChars_digits]
    · simp only [Option.getD_none, Option.getD_some, List.length_append, List.length_replicate]
      omega

/-- A decimal that is no whole number has a positional numeral with a point. -/
theorem exists_isShownAs_fraction (hexponent : value.exponent < 0) :
    ∃ numeral : Numeral, numeral.negative = negative ∧ numeral.isInteger = false ∧
      value.IsShownAs value.positional numeral := by
  by_cases hpoint : 0 < value.digits.length + value.exponent
  · exact ⟨_, rfl, rfl, isShownAs_point negative hexponent hpoint⟩
  · exact ⟨_, rfl, rfl, isShownAs_small negative (Int.not_lt.1 hpoint)⟩

/-- Every decimal has a positional numeral of the same value, unless it is a zero with a power of
ten. -/
theorem exists_isShownAs (hzero : value.coefficient = 0 → value.exponent = 0) :
    ∃ numeral : Numeral, numeral.negative = negative ∧
      value.IsShownAs value.positional numeral := by
  by_cases hexponent : 0 ≤ value.exponent
  · exact ⟨_, rfl, isShownAs_whole negative hexponent hzero⟩
  · obtain ⟨numeral, hnegative, -, hshown⟩ :=
      exists_isShownAs_fraction negative (Int.not_le.1 hexponent)
    exact ⟨numeral, hnegative, hshown⟩

/-! ## Scientific forms -/

/-- One digit before the point, the others after it if there are any, and a power of ten. -/
theorem isMarkedAs_scientific (hmarked : value.marked = value.scientific) :
    ∃ fraction, value.IsMarkedAs ⟨negative, value.digits.take 1, fraction,
      some (value.digits.length + value.exponent - 1)⟩ := by
  have hdigit : ∀ c ∈ value.digits, c.isDigit := fun c hc ↦ isDigit_of_mem_digits hc
  have hvalue := value.ofDigitChars_digits
  obtain ⟨first, rest, hdigits⟩ := List.exists_cons_of_ne_nil value.digits_ne_nil
  rw [hdigits] at hdigit hvalue ⊢
  obtain ⟨hfirst, hrest⟩ := List.forall_mem_cons.1 hdigit
  have hwhole : Numeral.IsWhole [first] := by
    refine ⟨List.cons_ne_nil _ _, fun c hc ↦ List.mem_singleton.1 hc ▸ hfirst, fun hhead ↦ ?_⟩
    rw [Option.some.inj hhead]
  rw [scientific, hdigits] at hmarked
  cases rest with
  | nil =>
    refine ⟨none, ⟨⟨hwhole, by simp⟩, hmarked, sameValue_of_eq hvalue ?_⟩, rfl⟩
    simp
  | cons second rest =>
    refine ⟨some (second :: rest), ⟨⟨hwhole, ?_⟩, hmarked, sameValue_of_eq hvalue ?_⟩, rfl⟩
    · rintro digits hsome
      cases hsome
      exact ⟨List.cons_ne_nil _ _, hrest⟩
    · simp only [Option.getD_some, List.length_cons]
      omega

/-! ## All forms -/

/-- Every decimal is marked by a numeral of the same value, unless it is a zero with a power of
ten. -/
theorem exists_isMarkedAs (hzero : value.coefficient = 0 → value.exponent = 0) :
    ∃ numeral : Numeral, numeral.negative = negative ∧ value.IsMarkedAs numeral := by
  by_cases hplain : -5 < value.digits.length + value.exponent ∧
      value.digits.length + value.exponent ≤ 16
  · have hguard : (-5 < value.digits.length + value.exponent &&
        value.digits.length + value.exponent ≤ 16) = true := by
      simpa using hplain
    by_cases hwhole : 0 ≤ value.exponent
    · have hmarked : value.marked = value.positional ++ ['.', '0'] := by
        rw [marked, if_pos hguard, if_pos hwhole]
      exact ⟨_, rfl, isMarkedAs_whole negative hwhole hzero hmarked⟩
    · have hmarked : value.marked = value.positional := by
        rw [marked, if_pos hguard, if_neg hwhole]
      obtain ⟨numeral, hnegative, hinteger, hshown⟩ :=
        exists_isShownAs_fraction negative (Int.not_le.1 hwhole)
      rw [← hmarked] at hshown
      exact ⟨numeral, hnegative, hshown, hinteger⟩
  · have hmarked : value.marked = value.scientific := by
      rw [marked, if_neg (by simpa using hplain)]
    obtain ⟨fraction, hscientific⟩ := isMarkedAs_scientific negative hmarked
    exact ⟨_, rfl, hscientific⟩

end Decimal

/-! ## Doubles -/

namespace Binary64.Magnitude

variable {magnitude : Magnitude} {tie : Tie} {value : Decimal}

theorem ofDecimal?_shortest_pos (h : 0 < magnitude.rank)
    (hvalue : (magnitude.shortest tie).SameValue value) : ofDecimal? value = some magnitude :=
  ofDecimal?_eq h ((containsDecimal_shortest h tie).congr hvalue)

/-- The shortest decimal of a double, however it is written, is read as the double. -/
theorem ofDecimal?_shortest (hvalue : (magnitude.shortest tie).SameValue value) :
    ofDecimal? value = some magnitude := by
  by_cases h : 0 < magnitude.rank
  · exact ofDecimal?_shortest_pos h hvalue
  · have hrank : magnitude.rank = 0 := Nat.eq_zero_of_not_pos h
    rw [shortest, if_pos hrank] at hvalue
    have hnumerator : value.numerator = 0 := by
      simpa [Decimal.SameValue, Decimal.numerator, Decimal.denominator] using hvalue.symm
    have hcoefficient : value.coefficient = 0 :=
      (Nat.mul_eq_zero.1 hnumerator).resolve_right (Nat.pow_pos (by decide)).ne'
    rw [ofDecimal?, if_pos hcoefficient]
    obtain ⟨rank, hlast⟩ := magnitude
    cases hrank
    rfl

theorem coefficient_shortest_ne_zero (h : 0 < magnitude.rank) (tie : Tie) :
    (magnitude.shortest tie).coefficient ≠ 0 := by
  intro hzero
  have hread : ofDecimal? (magnitude.shortest tie) = some magnitude :=
    ofDecimal?_shortest_pos h rfl
  rw [ofDecimal?, if_pos hzero] at hread
  exact absurd h (Option.some.inj hread ▸ Nat.lt_irrefl 0)

/-- A shortest decimal is zero only in one form. -/
theorem shortest_exponent (magnitude : Magnitude) (tie : Tie)
    (hzero : (magnitude.shortest tie).coefficient = 0) : (magnitude.shortest tie).exponent = 0 := by
  by_cases h : 0 < magnitude.rank
  · exact absurd hzero (coefficient_shortest_ne_zero h tie)
  · rw [shortest, if_pos (Nat.eq_zero_of_not_pos h)]

end Binary64.Magnitude

/-- A double is written as a numeral that is not an integer, and to which it is the nearest one. -/
theorem Binary64.Finite.exists_numeral (value : Finite) : ∃ numeral : Numeral, numeral.Writable ∧
    value.marked.toList = numeral.text ∧ numeral.isInteger = false ∧
      ofNumeral? numeral = some value := by
  obtain ⟨numeral, hnegative, hmarked⟩ := Decimal.exists_isMarkedAs value.negative
    (value.magnitude.shortest_exponent .even)
  refine ⟨numeral, hmarked.writable, ?_, hmarked.isInteger, ?_⟩
  · change (value.signed (value.magnitude.shortest .even).marked).toList = numeral.text
    rw [signed, String.toList_ofList, hmarked.text, Numeral.text, Numeral.signText, hnegative]
    cases value.negative <;> rfl
  · rw [ofNumeral?, Magnitude.ofDecimal?_shortest hmarked.sameValue, hnegative]
    rfl

/-! ## Readers of doubles -/

namespace Json

/-- The double is read from the numeral that is written for it. -/
def DoubleReader.Recovers [DoubleReader] (value : Binary64.Finite) : Prop :=
  ∃ numeral, Token.scanNumeral value.marked.toList = some (numeral, []) ∧ read? numeral = some value

/-- The nearest double of what is written for a double is the double itself. -/
theorem DoubleReader.nearest_recovers (value : Binary64.Finite) : @Recovers .nearest value := by
  obtain ⟨numeral, hwritable, htext, -, hnearest⟩ := value.exists_numeral
  exact ⟨numeral, htext ▸ Token.scanNumeral_text hwritable, hnearest⟩

theorem Number.exists_double_isWrittenAs [DoubleReader] {value : Binary64.Finite}
    (h : DoubleReader.Recovers value) : ∃ numeral, (double value).IsWrittenAs numeral := by
  obtain ⟨numeral, hwritable, htext, hinteger, -⟩ := value.exists_numeral
  obtain ⟨scanned, hscanned, hread⟩ := h
  rw [htext, Token.scanNumeral_text hwritable] at hscanned
  obtain rfl : numeral = scanned := congrArg Prod.fst (Option.some.inj hscanned)
  refine ⟨numeral, hwritable, htext, ?_⟩
  rw [ofNumeral?, dif_neg (by simp [hinteger]), hread]
  rfl

end Json

end StagedQuery
