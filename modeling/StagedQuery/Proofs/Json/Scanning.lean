import StagedQuery.Json.Token

/-!
# Scanning Texts in Pieces

A comma, a colon or a closing bracket ends every token before it.  A text that can be scanned gives
the same tokens when one of these follows it.
-/

namespace StagedQuery

namespace Json

/-- The characters that end a token and stand between values or after them. -/
def delimiters : List Char := [',', ':', ']', '\x7d']

/-- The text begins with a delimiter, or is empty. -/
def Delimits (text : List Char) : Prop := ∀ c ∈ text.head?, c ∈ delimiters

theorem delimits_cons {c : Char} (h : c ∈ delimiters) (rest : List Char) :
    Delimits (c :: rest) := by
  simpa [Delimits] using h

theorem delimiter_facts : ∀ c ∈ delimiters, c.isDigit = false ∧ c ≠ '-' ∧ c ≠ '+' ∧ c ≠ '.' ∧
    c ≠ 'e' ∧ c ≠ 'E' := by
  intro c hc
  simp only [delimiters, List.mem_cons, List.not_mem_nil, or_false] at hc
  rcases hc with rfl | rfl | rfl | rfl <;> decide

end Json

open Json (Delimits delimiter_facts)

variable {rest : List Char}

/-! ## Numerals -/

namespace Numeral

theorem takeDigits_append_delimits (h : Delimits rest) (text : List Char) :
    takeDigits (text ++ rest) = ((takeDigits text).1, (takeDigits text).2 ++ rest) := by
  induction text with
  | nil =>
    cases rest with
    | nil => rfl
    | cons c rest => simp [takeDigits, (delimiter_facts c (h c rfl)).1]
  | cons c text ih =>
    simp only [takeDigits, Prod.mk.injEq] at ih
    cases hdigit : c.isDigit <;> simp [takeDigits, hdigit, ih]

theorem takeSign_append_delimits (h : Delimits rest) (text : List Char) :
    takeSign (text ++ rest) = ((takeSign text).1, (takeSign text).2 ++ rest) := by
  cases text with
  | nil =>
    cases rest with
    | nil => rfl
    | cons c rest =>
      obtain ⟨-, hminus, hplus, -⟩ := delimiter_facts c (h c rfl)
      simp [takeSign, hminus, hplus]
  | cons c text =>
    rw [List.cons_append]
    unfold takeSign
    split <;> simp_all

theorem takeFraction_append_delimits (h : Delimits rest) (text : List Char) :
    takeFraction (text ++ rest) = ((takeFraction text).1, (takeFraction text).2 ++ rest) := by
  cases text with
  | nil =>
    cases rest with
    | nil => rfl
    | cons c rest =>
      obtain ⟨-, -, -, hpoint, -⟩ := delimiter_facts c (h c rfl)
      simp [takeFraction, hpoint]
  | cons c text =>
    by_cases hpoint : c = '.'
    · subst hpoint
      simp only [List.cons_append, takeFraction, takeDigits_append_delimits h]
    · simp [takeFraction, hpoint]

theorem takePower_append_delimits (h : Delimits rest) (text : List Char) :
    takePower (text ++ rest) =
      (takePower text).map fun (power, remaining) ↦ (power, remaining ++ rest) := by
  simp only [takePower, takeSign_append_delimits h, takeDigits_append_delimits h]
  obtain ⟨digits, remaining⟩ := takeDigits (takeSign text).2
  cases digits <;> rfl

theorem takeExponent_append_delimits (h : Delimits rest) (text : List Char) :
    takeExponent (text ++ rest) =
      (takeExponent text).map fun (exponent, remaining) ↦ (exponent, remaining ++ rest) := by
  cases text with
  | nil =>
    cases rest with
    | nil => rfl
    | cons c rest =>
      obtain ⟨-, -, -, -, hlower, hupper⟩ := delimiter_facts c (h c rfl)
      simp [takeExponent, hlower, hupper]
  | cons c text =>
    by_cases hexponent : c = 'e' ∨ c = 'E'
    · rcases hexponent with rfl | rfl <;>
        simp only [List.cons_append, takeExponent, takePower_append_delimits h, Option.map_map] <;>
        rfl
    · obtain ⟨hlower, hupper⟩ := not_or.1 hexponent
      simp [takeExponent, hlower, hupper]

end Numeral

namespace Json.Token

theorem takeMinus_append_delimits (h : Delimits rest) (text : List Char) :
    takeMinus (text ++ rest) = ((takeMinus text).1, (takeMinus text).2 ++ rest) := by
  cases text with
  | nil =>
    cases rest with
    | nil => rfl
    | cons c rest =>
      obtain ⟨-, hminus, -⟩ := delimiter_facts c (h c rfl)
      simp [takeMinus, hminus]
  | cons c text =>
    by_cases hminus : c = '-'
    · subst hminus
      rfl
    · simp [takeMinus, hminus]

theorem scanNumeral_append_delimits (h : Delimits rest) (text : List Char) :
    scanNumeral (text ++ rest) =
      (scanNumeral text).map fun (numeral, remaining) ↦ (numeral, remaining ++ rest) := by
  simp only [scanNumeral, takeMinus_append_delimits h, Numeral.takeDigits_append_delimits h,
    Numeral.takeFraction_append_delimits h, Numeral.takeExponent_append_delimits h]
  split
  · rfl
  · rw [Option.map_map, Option.map_map]
    rfl

/-- A numeral begins with a minus or a digit. -/
theorem head_of_scanNumeral {text remaining : List Char} {numeral : Numeral}
    (h : scanNumeral text = some (numeral, remaining)) :
    ∃ c tail, text = c :: tail ∧ (c = '-' ∨ c.isDigit) := by
  cases text with
  | nil => cases h
  | cons c tail =>
    refine ⟨c, tail, rfl, Decidable.byContradiction fun hhead ↦ ?_⟩
    obtain ⟨hminus, hdigit⟩ := not_or.1 hhead
    simp [scanNumeral, takeMinus, hminus, Numeral.takeDigits, hdigit] at h

/-! ## Strings -/

/-- The end of a string does not depend on what follows it. -/
theorem scanPieces_append {text remaining : List Char} {pieces : List Piece}
    (h : scanPieces text = some (pieces, remaining)) (rest : List Char) :
    scanPieces (text ++ rest) = some (pieces, remaining ++ rest) := by
  fun_induction scanPieces text generalizing pieces remaining with
  | case1 => cases h
  | case2 =>
    cases h
    rfl
  | case3 a b c d text ih =>
    simp only [bind, Option.bind_eq_some_iff] at h
    obtain ⟨unit, hunit, ⟨found, last⟩, hfound, hresult⟩ := h
    cases hresult
    simp only [List.cons_append, scanPieces, hunit, ih hfound]
    rfl
  | case4 letter text hletter ih =>
    simp only [bind, Option.bind_eq_some_iff] at h
    obtain ⟨char, hchar, ⟨found, last⟩, hfound, hresult⟩ := h
    cases hresult
    have hunit : letter ≠ 'u' := by
      rintro rfl
      cases hchar
    simp [scanPieces, hunit, hchar, ih hfound]
  | case5 => cases h
  | case6 char text _ _ _ hplain ih =>
    simp only [bind, Option.bind_eq_some_iff] at h
    obtain ⟨⟨found, last⟩, hfound, hresult⟩ := h
    cases hresult
    obtain ⟨hcontrol, hescape⟩ := not_or.1 hplain
    simp [scanPieces, hcontrol, hescape, ih hfound]

/-! ## Tokens -/

variable [DoubleReader]

theorem scanFirst_numeral {c : Char} {tail : List Char} (h : c = '-' ∨ c.isDigit) :
    scanFirst (c :: tail) = (scanNumeral (c :: tail)).map fun (numeral, remaining) ↦
      (.number (Number.ofNumeral? numeral), remaining) := by
  have hother : ∀ other ∈ ['[', ']', '\x7b', '\x7d', ',', ':', 'n', 't', 'f', '"'], c ≠ other := by
    rintro other hmem rfl
    have hnone : ['[', ']', '\x7b', '\x7d', ',', ':', 'n', 't', 'f', '"'].all
        fun other ↦ other != '-' && !other.isDigit := by
      decide
    have hplain := List.all_eq_true.1 hnone c hmem
    rcases h with rfl | hdigit <;> simp_all
  unfold scanFirst
  split <;> simp_all

theorem scanFirst_append_delimits (hrest : Delimits rest) {text remaining : List Char}
    {token : Token} (h : scanFirst text = some (token, remaining)) :
    scanFirst (text ++ rest) = some (token, remaining ++ rest) := by
  unfold scanFirst at h
  split at h
  case h_10 text =>
    obtain ⟨⟨pieces, last⟩, hpieces, hresult⟩ := Option.map_eq_some_iff.1 h
    cases hresult
    simp only [List.cons_append, scanFirst, scanPieces_append hpieces]
    rfl
  case h_11 text _ _ _ _ _ _ _ _ _ _ =>
    obtain ⟨⟨numeral, last⟩, hnumeral, hresult⟩ := Option.map_eq_some_iff.1 h
    cases hresult
    obtain ⟨c, tail, rfl, hc⟩ := head_of_scanNumeral hnumeral
    rw [List.cons_append, scanFirst_numeral hc, ← List.cons_append,
      scanNumeral_append_delimits hrest, hnumeral]
    rfl
  all_goals
    cases h
    rfl

theorem scan_of_scanFirst {c : Char} {text remaining : List Char} {token : Token}
    (hspace : isSpace c = false) (h : scanFirst (c :: text) = some (token, remaining)) :
    scan (c :: text) = token :: scan remaining := by
  rw [scan, if_neg (by simp [hspace])]
  split
  · next found last hfound =>
    rw [h] at hfound
    cases hfound
    rfl
  · next hnone =>
    rw [h] at hnone
    cases hnone

/-- A text that is all tokens keeps them in front of a delimiter. -/
theorem scan_append_delimits (hrest : Delimits rest) {text : List Char}
    (h : Token.invalid ∉ scan text) : scan (text ++ rest) = scan text ++ scan rest := by
  fun_induction scan text with
  | case1 => rfl
  | case2 char text hspace ih => rw [List.cons_append, scan, if_pos hspace, ih h]
  | case3 char text hspace token remaining hfirst _ ih =>
    have hstep := scanFirst_append_delimits hrest hfirst
    rw [List.cons_append] at hstep ⊢
    rw [scan_of_scanFirst (by simpa using hspace) hstep,
      ih fun hmem ↦ h (List.mem_cons_of_mem _ hmem), List.cons_append]
  | case4 => exact absurd (List.mem_singleton_self _) h

end Json.Token

end StagedQuery
