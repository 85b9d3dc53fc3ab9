import StagedQuery.Json.Text
import Mathlib.Data.List.Basic

/-!
# Strings Read Back

Every character is written as itself, as an escape of one letter, or as a numeric escape.  The
scanner turns each of these forms into one piece, and the pieces join to the text again: only codes
below the space are written as numbers, so no two of them can look like a surrogate pair.
-/

namespace StagedQuery.Json.Token

/-- The piece as which a character is read back. -/
def pieceOf (c : Char) : Piece :=
  match c with
  | '"' | '\\' | '\x08' | '\x0c' | '\n' | '\r' | '\t' => .char c
  | _ => if c < ' ' then .unit c.toNat else .char c

theorem toNat_lt_of_control {c : Char} (h : c < ' ') : c.toNat < 32 := by
  have hval : c.val < ' '.val := h
  rw [UInt32.lt_iff_toNat_lt] at hval
  exact hval

/-- A numeric escape has four digits, which give the code again. -/
theorem controlEscape_eq {c : Char} (h : c < ' ') : ∃ high low,
    controlEscape c = ['\\', 'u', '0', '0', high, low] ∧
      hexUnit? ['0', '0', high, low] = some c.toNat := by
  have hall : ∀ code < 32, (controlEscape (Char.ofNat code)).take 4 = ['\\', 'u', '0', '0'] ∧
      ((controlEscape (Char.ofNat code)).drop 4).length = 2 ∧
      hexUnit? ((controlEscape (Char.ofNat code)).drop 2) = some code := by
    decide +kernel
  obtain ⟨hlead, hlength, hunit⟩ := hall c.toNat (toNat_lt_of_control h)
  rw [Char.ofNat_toNat] at hlead hlength hunit
  obtain ⟨high, low, hdigits⟩ := List.length_eq_two.1 hlength
  have hescape : controlEscape c = ['\\', 'u', '0', '0', high, low] := by
    rw [← List.take_append_drop 4 (controlEscape c), hlead, hdigits]
    rfl
  rw [hescape] at hunit
  exact ⟨high, low, hescape, hunit⟩

theorem scanPieces_plain {c : Char} (hquote : c ≠ '"') (hbackslash : c ≠ '\\')
    (hplain : ¬c < ' ') (rest : List Char) :
    scanPieces (c :: rest) =
      (scanPieces rest).bind fun (pieces, remaining) ↦ some (.char c :: pieces, remaining) := by
  rw [scanPieces.eq_def]
  split
  case h_1 h => cases h
  case h_2 h =>
    cases h
    exact absurd rfl hquote
  case h_3 h =>
    cases h
    exact absurd rfl hbackslash
  case h_4 h =>
    cases h
    exact absurd rfl hbackslash
  case h_5 h =>
    cases h
    rw [if_neg (not_or.2 ⟨hplain, hbackslash⟩)]
    rfl

theorem scanPieces_stringChar (c : Char) (rest : List Char) :
    scanPieces (stringChar c ++ rest) =
      (scanPieces rest).map fun (pieces, remaining) ↦ (pieceOf c :: pieces, remaining) := by
  have hbind (piece : Piece) : ((scanPieces rest).bind fun (pieces, remaining) ↦
        some (piece :: pieces, remaining)) =
      (scanPieces rest).map fun (pieces, remaining) ↦ (piece :: pieces, remaining) := by
    cases scanPieces rest <;> rfl
  unfold stringChar
  split
  case h_8 hquote hbackslash _ _ _ _ _ =>
    have hpiece : pieceOf c = if c < ' ' then .unit c.toNat else .char c := by
      unfold pieceOf
      split <;> first | rfl | contradiction
    rw [hpiece]
    split
    · next hcontrol =>
      obtain ⟨high, low, hescape, hunit⟩ := controlEscape_eq hcontrol
      rw [hescape]
      simp only [List.cons_append, List.nil_append, scanPieces, hunit]
      exact hbind _
    · next hplain =>
      rw [List.singleton_append, scanPieces_plain hquote hbackslash hplain]
      exact hbind _
  all_goals exact hbind _

theorem scanPieces_flatMap_stringChar (text rest : List Char) :
    scanPieces (text.flatMap stringChar ++ '"' :: rest) = some (text.map pieceOf, rest) := by
  induction text with
  | nil => rfl
  | cons c text ih =>
    rw [List.flatMap_cons, List.append_assoc, scanPieces_stringChar, ih]
    rfl

/-! ## Joining the pieces -/

theorem joinPieces_unit {unit : Nat} (h : unit < 0xd800) (pieces : List Piece) :
    joinPieces (.unit unit :: pieces) = (joinPieces pieces).map (Char.ofNat unit :: ·) := by
  have hhigh : isHighSurrogate unit = false := by
    simp only [isHighSurrogate, Bool.and_eq_false_iff, decide_eq_false_iff_not]
    omega
  have hlow : isLowSurrogate unit = false := by
    simp only [isLowSurrogate, Bool.and_eq_false_iff, decide_eq_false_iff_not]
    omega
  cases pieces with
  | nil => simp [joinPieces, hhigh, hlow]
  | cons piece rest => cases piece <;> simp [joinPieces, hhigh, hlow]

theorem joinPieces_pieceOf (c : Char) (pieces : List Piece) :
    joinPieces (pieceOf c :: pieces) = (joinPieces pieces).map (c :: ·) := by
  unfold pieceOf
  split
  case h_8 =>
    split
    · next hcontrol =>
      have hcode := toNat_lt_of_control hcontrol
      rw [joinPieces_unit (by omega), Char.ofNat_toNat]
    · rfl
  all_goals rfl

theorem joinPieces_map_pieceOf (text : List Char) :
    joinPieces (text.map pieceOf) = some text := by
  induction text with
  | nil => rfl
  | cons c text ih => rw [List.map_cons, joinPieces_pieceOf, ih, Option.map_some]

/-- A string is one token, which denotes it. -/
theorem scanFirst_stringText [DoubleReader] (text : String) (rest : List Char) :
    scanFirst ((stringText text).toList ++ rest) = some (.string (some text), rest) := by
  have htext : (stringText text).toList ++ rest =
      '"' :: (text.toList.flatMap stringChar ++ '"' :: rest) := by
    simp [stringText]
  rw [htext, scanFirst, scanPieces_flatMap_stringChar, Option.map_some]
  simp only [joinPieces_map_pieceOf, Option.map_some, String.ofList_toList]

end StagedQuery.Json.Token
