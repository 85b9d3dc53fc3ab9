import StagedQuery.Json.Text
import StagedQuery.Proofs.Json.Scanning
import Mathlib.Data.List.Basic

/-!
# Numerals Read Back

The compact text of a numeral has a sign where it is negative, and always one in front of the power
of ten.  If its whole digits have no leading zero, the text is read as the numeral.  An integer of
64 bits is such a numeral, and is read as itself.
-/

namespace StagedQuery

namespace Numeral

/-! ## Texts -/

def signText (numeral : Numeral) : List Char := if numeral.negative then ['-'] else []

def fractionText (numeral : Numeral) : List Char :=
  match numeral.fraction with
  | some digits => '.' :: digits
  | none => []

def exponentText (numeral : Numeral) : List Char :=
  match numeral.exponent with
  | some power => 'e' :: (if power < 0 then '-' else '+') :: Nat.toDigits 10 power.natAbs
  | none => []

/-- The compact text of a numeral. -/
def text (numeral : Numeral) : List Char :=
  numeral.signText ++ (numeral.whole ++ (numeral.fractionText ++ numeral.exponentText))

/-- Digits that are no numeral of fewer digits. -/
structure IsWhole (digits : List Char) : Prop where
  nonempty : digits ≠ []
  isDigit : ∀ c ∈ digits, c.isDigit
  leading : digits.head? = some '0' → digits = ['0']

/-- A numeral that may be written in a JSON text. -/
structure Writable (numeral : Numeral) : Prop where
  whole : IsWhole numeral.whole
  fraction : ∀ digits ∈ numeral.fraction, digits ≠ [] ∧ ∀ c ∈ digits, c.isDigit

/-! ## Digits -/

theorem isDigit_toDigits (value : Nat) : ∀ c ∈ Nat.toDigits 10 value, c.isDigit :=
  fun _ hc ↦ Nat.isDigit_of_mem_toDigits (by decide) (by decide) hc

/-- The digits of a number have no leading zero, unless the number is zero. -/
theorem isWhole_toDigits (value : Nat) : IsWhole (Nat.toDigits 10 value) where
  nonempty := Nat.toDigits_ne_nil
  isDigit := isDigit_toDigits value
  leading := by
    induction value using Nat.strongRecOn with
    | ind value ih =>
      by_cases hsmall : value < 10
      · intro hhead
        rw [Nat.toDigits_of_lt_base hsmall] at hhead ⊢
        rw [Option.some.inj hhead]
      · have hquotient : 0 < value / 10 := Nat.div_pos (by omega) (by decide)
        rw [Nat.toDigits_of_base_le (by decide) (by omega)]
        intro hhead
        rw [List.head?_append_of_ne_nil _ Nat.toDigits_ne_nil] at hhead
        have hzero := ih (value / 10) (Nat.div_lt_self (by omega) (by decide)) hhead
        have hvalue : Nat.ofDigitChars 10 (Nat.toDigits 10 (value / 10)) 0 = value / 10 :=
          Nat.ofDigitChars_ten_toDigits
        rw [hzero] at hvalue
        exact absurd hvalue (Nat.ne_of_lt hquotient)

theorem takeDigits_of_isDigit {digits rest : List Char} (hdigits : ∀ c ∈ digits, c.isDigit)
    (hrest : ∀ c ∈ rest.head?, c.isDigit = false) :
    takeDigits (digits ++ rest) = (digits, rest) := by
  induction digits with
  | nil =>
    cases rest with
    | nil => rfl
    | cons c rest => simp [takeDigits, hrest c rfl]
  | cons c digits ih =>
    obtain ⟨hc, htail⟩ := List.forall_mem_cons.1 hdigits
    have hinner := ih htail
    simp only [takeDigits, Prod.mk.injEq] at hinner
    simp [takeDigits, hc, hinner]

/-! ## Scanning -/

theorem takePower_text (power : Int) :
    takePower ((if power < 0 then '-' else '+') :: Nat.toDigits 10 power.natAbs) =
      some (power, []) := by
  have hsign : takeSign ((if power < 0 then '-' else '+') :: Nat.toDigits 10 power.natAbs) =
      (decide (power < 0), Nat.toDigits 10 power.natAbs) := by
    by_cases h : power < 0 <;> simp [h, takeSign]
  have hdigits : takeDigits (Nat.toDigits 10 power.natAbs) =
      (Nat.toDigits 10 power.natAbs, []) := by
    simpa using takeDigits_of_isDigit (isDigit_toDigits power.natAbs)
      (by simp : ∀ c ∈ ([] : List Char).head?, c.isDigit = false)
  have hvalue : Nat.ofDigitChars 10 (Nat.toDigits 10 power.natAbs) 0 = power.natAbs :=
    Nat.ofDigitChars_ten_toDigits
  rw [takePower, hsign]
  simp only [hdigits]
  split
  · next h => exact absurd (congrArg Prod.fst h) Nat.toDigits_ne_nil
  · next h =>
    cases h
    rw [hvalue]
    by_cases hnegative : power < 0
    · simp only [hnegative, decide_true, if_true]
      congr 2
      omega
    · simp only [hnegative, decide_false, Bool.false_eq_true, if_false]
      congr 2
      omega

theorem takeExponent_text (numeral : Numeral) :
    takeExponent numeral.exponentText = some (numeral.exponent, []) := by
  unfold exponentText
  cases numeral.exponent with
  | none => rfl
  | some power => rw [takeExponent, takePower_text, Option.map_some]

theorem takeFraction_text {numeral : Numeral} (h : numeral.Writable) :
    takeFraction (numeral.fractionText ++ numeral.exponentText) =
      (numeral.fraction, numeral.exponentText) := by
  have hexponent : ∀ c ∈ numeral.exponentText.head?, c = 'e' := by
    unfold exponentText
    cases numeral.exponent <;> simp
  unfold fractionText
  cases hfraction : numeral.fraction with
  | none =>
    rw [List.nil_append]
    cases htext : numeral.exponentText with
    | nil => rfl
    | cons c rest =>
      rw [htext] at hexponent
      simp [takeFraction, hexponent c rfl]
  | some digits =>
    have hdigits := takeDigits_of_isDigit (h.fraction digits hfraction).2
      (fun c hc ↦ by rw [hexponent c hc]; decide)
    rw [List.cons_append, takeFraction, hdigits]

/-- The digits before the point end where anything else begins. -/
theorem isDigit_head_rest (numeral : Numeral) :
    ∀ c ∈ (numeral.fractionText ++ numeral.exponentText).head?, c.isDigit = false := by
  unfold fractionText exponentText
  cases numeral.fraction <;> cases numeral.exponent <;> simp

end Numeral

namespace Json.Token

theorem takeMinus_of_head {first : Char} (h : first ≠ '-') (rest : List Char) :
    takeMinus (first :: rest) = (false, first :: rest) := by
  unfold takeMinus
  split
  · next hminus => exact absurd (List.cons.inj hminus).1 h
  · rfl

open Numeral in
/-- The text of a numeral is read as the numeral. -/
theorem scanNumeral_text {numeral : Numeral} (h : numeral.Writable) :
    scanNumeral numeral.text = some (numeral, []) := by
  have hminus : takeMinus numeral.text =
      (numeral.negative, numeral.whole ++ (numeral.fractionText ++ numeral.exponentText)) := by
    unfold Numeral.text signText
    obtain ⟨first, digits, hwhole⟩ := List.exists_cons_of_ne_nil h.whole.nonempty
    have hfirst : first ≠ '-' := by
      rintro rfl
      exact absurd (h.whole.isDigit '-' (hwhole ▸ List.mem_cons_self)) (by decide)
    cases numeral.negative with
    | true => rfl
    | false =>
      rw [hwhole]
      exact takeMinus_of_head hfirst _
  have hfraction : numeral.fraction ≠ some [] := fun hempty ↦ (h.fraction [] hempty).1 rfl
  simp only [scanNumeral, hminus,
    takeDigits_of_isDigit h.whole.isDigit numeral.isDigit_head_rest, takeFraction_text h,
    takeExponent_text]
  rw [if_neg]
  · rfl
  · rintro (hempty | ⟨hzero, hlong⟩ | hpoint)
    · exact h.whole.nonempty hempty
    · exact hlong (h.whole.leading hzero)
    · exact hfraction hpoint

end Json.Token

/-! ## Numbers -/

namespace Json.Number

/-- The numeral is what is written for the number, and it is read as the number. -/
structure IsWrittenAs [DoubleReader] (number : Number) (numeral : Numeral) : Prop where
  writable : numeral.Writable
  text : number.text.toList = numeral.text
  value : ofNumeral? numeral = some number

/-- A number is one token. -/
theorem IsWrittenAs.scan_text [DoubleReader] {number : Number} {numeral : Numeral}
    (h : number.IsWrittenAs numeral) :
    Token.scan number.text.toList = [.number (some number)] := by
  have hnumeral := Token.scanNumeral_text h.writable
  obtain ⟨first, rest, hcons, hfirst⟩ := Token.head_of_scanNumeral hnumeral
  have hspace : Token.isSpace first = false := by
    rcases hfirst with rfl | hdigit
    · decide
    · simp only [Token.isSpace, Bool.or_eq_false_iff, decide_eq_false_iff_not]
      refine ⟨⟨⟨?_, ?_⟩, ?_⟩, ?_⟩ <;> rintro rfl <;> exact absurd hdigit (by decide)
  have htoken : Token.scanFirst (first :: rest) = some (.number (some number), []) := by
    rw [Token.scanFirst_numeral hfirst, ← hcons, hnumeral, ← h.value]
    rfl
  rw [h.text, hcons, Token.scan_of_scanFirst hspace htoken, Token.scan]

/-! ## Integers -/

/-- An integer is written as a minus, if it is negative, and the digits of its absolute value. -/
theorem toList_toString_int (value : Int) : (toString value).toList =
    (if decide (value < 0) then ['-'] else []) ++ Nat.toDigits 10 value.natAbs := by
  change value.repr.toList = _
  rw [Int.repr_eq_if]
  by_cases hnegative : value < 0
  · have habs : (-value).toNat = value.natAbs := by omega
    rw [if_neg (by omega), if_pos (decide_eq_true hnegative), habs]
    simp [Nat.toList_repr]
  · have habs : value.toNat = value.natAbs := by omega
    rw [if_pos (by omega), if_neg (by simpa using hnegative), habs]
    simp [Nat.toList_repr]

theorem eq_of_toString_int_eq {value other : Int} (h : toString value = toString other) :
    value = other := by
  have hdigits {first second : Nat} (h : Nat.toDigits 10 first = Nat.toDigits 10 second) :
      first = second := by
    have hvalue := congrArg (Nat.ofDigitChars 10 · 0) h
    simpa only [Nat.ofDigitChars_ten_toDigits] using hvalue
  have hminus {digits : List Char} (number : Nat) : '-' :: digits ≠ Nat.toDigits 10 number := by
    intro hcons
    have hdigit := Numeral.isDigit_toDigits number '-' (hcons ▸ List.mem_cons_self)
    exact absurd hdigit (by decide)
  have hlist := congrArg String.toList h
  rw [toList_toString_int, toList_toString_int] at hlist
  by_cases hvalue : value < 0 <;> by_cases hother : other < 0 <;>
    simp only [hvalue, hother, decide_true, decide_false, if_true, Bool.false_eq_true, if_false,
      List.singleton_append, List.nil_append] at hlist
  · have habs := hdigits (List.cons.inj hlist).2
    omega
  · exact absurd hlist (hminus _)
  · exact absurd hlist.symm (hminus _)
  · have habs := hdigits hlist
    omega

/-- The numeral of an integer. -/
def integerNumeral (value : Int) : Numeral :=
  ⟨decide (value < 0), Nat.toDigits 10 value.natAbs, none, none⟩

theorem wholeValue_integerNumeral (value : Int) :
    (integerNumeral value).wholeValue = value.natAbs :=
  Nat.ofDigitChars_ten_toDigits

theorem integer_isWrittenAs [DoubleReader] {value : Int}
    (fits : -Nat.pow 2 63 ≤ value ∧ value < Nat.pow 2 64) :
    (integer value fits).IsWrittenAs (integerNumeral value) where
  writable := ⟨Numeral.isWhole_toDigits _, by simp [integerNumeral]⟩
  text := by
    change (toString value).toList = (if decide (value < 0) then ['-'] else []) ++
      (Nat.toDigits 10 value.natAbs ++ ([] ++ []))
    rw [toList_toString_int, List.append_nil, List.append_nil]
  value := by
    have hvalue : (if (integerNumeral value).negative then
        -((integerNumeral value).wholeValue : Int) else (integerNumeral value).wholeValue) =
          value := by
      rw [wholeValue_integerNumeral]
      by_cases hnegative : value < 0
      · simp only [integerNumeral, hnegative, decide_true, if_true]
        omega
      · simp only [integerNumeral, hnegative, decide_false, Bool.false_eq_true, if_false]
        omega
    have hinteger : (integerNumeral value).isInteger := rfl
    have hzero : ¬((integerNumeral value).negative ∧ value = 0) := by
      simp only [integerNumeral, decide_eq_true_eq]
      omega
    simp only [ofNumeral?, hvalue]
    rw [dif_pos ⟨hinteger, hzero, fits⟩]

end Json.Number

end StagedQuery
