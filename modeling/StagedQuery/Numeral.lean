/-!
# Decimal Numerals

A numeral is the written form of a number: a sign, whole digits, perhaps a point with further
digits, and perhaps a power of ten.  Its decimal is the exact value that the digits denote.  The
scanning functions take a text as a list of characters and return what they did not use.
-/

namespace StagedQuery

/-- A coefficient times a power of ten. -/
structure Decimal where
  coefficient : Nat
  exponent : Int
deriving DecidableEq

/-- The parts of a written number.  `fraction` is present when a point was written, and
`exponent` when a power of ten was. -/
structure Numeral where
  negative : Bool
  whole : List Char
  fraction : Option (List Char)
  exponent : Option Int
deriving DecidableEq

namespace Numeral

/-- A numeral without point and without exponent is written as an integer. -/
def isInteger (numeral : Numeral) : Bool :=
  numeral.fraction.isNone && numeral.exponent.isNone

/-- The absolute value of the whole digits. -/
def wholeValue (numeral : Numeral) : Nat :=
  Nat.ofDigitChars 10 numeral.whole 0

/-- The absolute value of the numeral. -/
def decimal (numeral : Numeral) : Decimal where
  coefficient := Nat.ofDigitChars 10 (numeral.whole ++ numeral.fraction.getD []) 0
  exponent := numeral.exponent.getD 0 - (numeral.fraction.getD []).length

/-! ## Scanning -/

/-- The leading decimal digits of a text, and the text after them. -/
def takeDigits (text : List Char) : List Char × List Char :=
  (text.takeWhile Char.isDigit, text.dropWhile Char.isDigit)

/-- An optional sign, `true` for a minus. -/
def takeSign : List Char → Bool × List Char
  | '-' :: rest => (true, rest)
  | '+' :: rest => (false, rest)
  | rest => (false, rest)

/-- An optional point and the digits after it. -/
def takeFraction : List Char → Option (List Char) × List Char
  | '.' :: rest => ((takeDigits rest).1, (takeDigits rest).2)
  | rest => (none, rest)

/-- The signed digits of a power of ten; at least one digit is required. -/
def takePower (text : List Char) : Option (Int × List Char) :=
  let (negative, text) := takeSign text
  match takeDigits text with
  | ([], _) => none
  | (digits, rest) =>
    let size : Int := Nat.ofDigitChars 10 digits 0
    some (if negative then -size else size, rest)

/-- An optional power of ten, introduced by `e` or `E`. -/
def takeExponent : List Char → Option (Option Int × List Char)
  | 'e' :: rest | 'E' :: rest => (takePower rest).map fun (power, rest) ↦ (some power, rest)
  | rest => some (none, rest)

/-! ## What scanning leaves -/

theorem takeDigits_append (text : List Char) :
    (takeDigits text).1 ++ (takeDigits text).2 = text :=
  List.takeWhile_append_dropWhile

theorem takeDigits_length (text : List Char) :
    (takeDigits text).1.length + (takeDigits text).2.length = text.length := by
  rw [← List.length_append, takeDigits_append]

theorem takeFraction_length_le (text : List Char) :
    (takeFraction text).2.length ≤ text.length := by
  unfold takeFraction
  split
  · have hlength := takeDigits_length ‹_›
    simp only [List.length_cons]
    omega
  · exact Nat.le_refl _

theorem takePower_length_le {text rest : List Char} {power : Int}
    (h : takePower text = some (power, rest)) : rest.length ≤ text.length := by
  have hsign : (takeSign text).2.length ≤ text.length := by
    unfold takeSign
    split <;> simp
  have hlength := takeDigits_length (takeSign text).2
  unfold takePower at h
  dsimp only at h
  split at h
  · exact absurd h (by simp)
  · rename_i digits remaining _ hdigits
    obtain ⟨-, rfl⟩ : _ ∧ remaining = rest := by simpa using h
    rw [hdigits] at hlength
    dsimp only at hlength
    omega

theorem takeExponent_length_le {text rest : List Char} {exponent : Option Int}
    (h : takeExponent text = some (exponent, rest)) : rest.length ≤ text.length := by
  unfold takeExponent at h
  split at h
  case h_3 =>
    obtain ⟨-, rfl⟩ : _ ∧ text = rest := by simpa using h
    exact Nat.le_refl _
  all_goals
    obtain ⟨⟨power, remaining⟩, hpower, hrest⟩ := Option.map_eq_some_iff.1 h
    obtain ⟨-, rfl⟩ : _ ∧ remaining = rest := by simpa using hrest
    have hlength := takePower_length_le hpower
    simp only [List.length_cons]
    omega

/-! ## Whole texts -/

/-- Reads a numeral that fills the whole text.  Either sign may be written, and digits may be
missing on one side of the point. -/
def ofText? (text : List Char) : Option Numeral :=
  let (negative, text) := takeSign text
  let (whole, text) := takeDigits text
  let (fraction, text) := takeFraction text
  if whole = [] ∧ fraction.getD [] = [] then none
  else match takeExponent text with
    | some (exponent, []) => some { negative, whole, fraction, exponent }
    | _ => none

end Numeral

end StagedQuery
