import StagedQuery.Proofs.Binary64.Marked
import StagedQuery.Proofs.Binary64.Value

/-!
# Plain Numbers Read Back

The plain form of a finite double is a numeral, perhaps with a point, and the decimal of that
numeral is the shortest decimal of the double.  The other doubles have names, which are no numerals.
So no two doubles have the same plain form.
-/

namespace StagedQuery

/-- The text of a numeral is read as the numeral. -/
theorem Numeral.ofText?_text {numeral : Numeral} (h : numeral.Writable) :
    ofText? numeral.text = some numeral := by
  have hsign : takeSign numeral.text =
      (numeral.negative, numeral.whole ++ (numeral.fractionText ++ numeral.exponentText)) := by
    unfold Numeral.text signText
    obtain ⟨first, digits, hwhole⟩ := List.exists_cons_of_ne_nil h.whole.nonempty
    have hfirst : first.isDigit := h.whole.isDigit first (hwhole ▸ List.mem_cons_self)
    cases numeral.negative with
    | true => rfl
    | false =>
      rw [hwhole]
      change takeSign (first :: (digits ++ (numeral.fractionText ++ numeral.exponentText))) = _
      unfold takeSign
      split
      · next hminus =>
        rw [(List.cons.inj hminus).1] at hfirst
        exact absurd hfirst (by decide)
      · next hplus =>
        rw [(List.cons.inj hplus).1] at hfirst
        exact absurd hfirst (by decide)
      · rfl
  simp only [ofText?, hsign, takeDigits_of_isDigit h.whole.isDigit numeral.isDigit_head_rest,
    takeFraction_text h, takeExponent_text]
  exact if_neg fun hempty ↦ h.whole.nonempty hempty.1

theorem IsPositional.newline_notMem {text : List Char} (h : IsPositional text) : '\n' ∉ text := by
  have hdigits {digits : List Char} (h : ∀ c ∈ digits, c.isDigit) : '\n' ∉ digits :=
    fun hmem ↦ absurd (h _ hmem) (by decide)
  cases h with
  | whole nonempty isDigit => exact hdigits isDigit
  | point nonempty isDigit fraction_nonempty fraction_isDigit =>
    simp [hdigits isDigit, hdigits fraction_isDigit]

namespace Binary64

theorem Finite.ofText?_plain (value : Finite) : ofText? value.plain.toList = some value := by
  obtain ⟨numeral, hnegative, hshown⟩ := Decimal.exists_isShownAs value.negative
    (value.magnitude.shortest_exponent .up)
  have htext : value.plain.toList = numeral.text := by
    rw [plain, signed, String.toList_ofList, hshown.text, Numeral.text, Numeral.signText, hnegative]
    cases value.negative <;> rfl
  rw [ofText?, htext, Numeral.ofText?_text hshown.writable, Option.bind_some, ofNumeral?,
    Magnitude.ofDecimal?_shortest hshown.sameValue, hnegative]
  rfl

/-- Reads a double from its plain form. -/
def ofPlain? (text : List Char) : Option Binary64 :=
  if text = "inf".toList then some (.infinite false)
  else if text = "-inf".toList then some (.infinite true)
  else if text = "NaN".toList then some .nan
  else (Finite.ofText? text).map .finite

theorem ofPlain?_plain (value : Binary64) : ofPlain? value.plain.toList = some value := by
  cases value with
  | finite value =>
    have hread := value.ofText?_plain
    have hname {name : String} (hname : Finite.ofText? name.toList = none) :
        value.plain.toList ≠ name.toList := by
      intro heq
      rw [heq, hname] at hread
      cases hread
    rw [plain, ofPlain?, if_neg (hname (by decide +kernel)), if_neg (hname (by decide +kernel)),
      if_neg (hname (by decide +kernel)), hread, Option.map_some]
  | infinite negative => cases negative <;> rfl
  | nan => rfl

/-- The text writes a positive number without a sign, by digits that are not all zero and perhaps
with a point, and is read as the double. -/
structure IsShownPositive (value : Binary64) (text : String) : Prop where
  positive : value.isPositive
  positional : IsPositional text.toList
  digit : ∃ c ∈ text.toList, c.isDigit ∧ c ≠ '0'
  read : ofPlain? text.toList = some value

theorem isShownPositive_plain {magnitude : Magnitude} (h : 0 < magnitude.rank) :
    IsShownPositive (.finite ⟨false, magnitude⟩) (Finite.plain ⟨false, magnitude⟩) where
  positive := by
    rw [isPositive_finite]
    simpa using h
  positional := by
    rw [Finite.plain, Finite.signed, String.toList_ofList]
    exact (magnitude.shortest .up).isPositional_positional
  digit := by
    obtain ⟨c, hc, hzero⟩ := Decimal.exists_digit_ne_zero
      (Magnitude.coefficient_shortest_ne_zero h .up)
    rw [Finite.plain, Finite.signed, String.toList_ofList]
    exact ⟨c, Decimal.mem_positional hc, Decimal.isDigit_of_mem_digits hc, hzero⟩
  read := ofPlain?_plain (.finite ⟨false, magnitude⟩)

theorem newline_notMem_plain (value : Binary64) : '\n' ∉ value.plain.toList := by
  cases value with
  | finite value =>
    have hpositional :=
      (value.magnitude.shortest .up).isPositional_positional.newline_notMem
    rw [plain, Finite.plain, Finite.signed, String.toList_ofList]
    split
    · simp [hpositional]
    · exact hpositional
  | infinite negative => cases negative <;> decide
  | nan => decide

end Binary64

end StagedQuery
