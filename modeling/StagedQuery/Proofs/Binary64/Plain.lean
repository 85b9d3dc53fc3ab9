import StagedQuery.Binary64.Text
import StagedQuery.Proofs.Sql.Lexing

/-!
# Plain Numbers

The plain form of a finite double is an optional minus, digits, and perhaps a point with further
digits.  It has no exponent, so a query reads it as one signed number.
-/

namespace StagedQuery

/-- Digits, perhaps followed by a point and further digits. -/
inductive IsPositional : List Char → Prop
  | whole {digits : List Char} (nonempty : digits ≠ []) (isDigit : ∀ c ∈ digits, c.isDigit) :
      IsPositional digits
  | point {digits fraction : List Char} (nonempty : digits ≠ [])
      (isDigit : ∀ c ∈ digits, c.isDigit) (fraction_nonempty : fraction ≠ [])
      (fraction_isDigit : ∀ c ∈ fraction, c.isDigit) : IsPositional (digits ++ '.' :: fraction)

namespace Decimal

theorem digits_ne_nil (value : Decimal) : value.digits ≠ [] := Nat.toDigits_ne_nil

theorem isDigit_of_mem_digits {value : Decimal} {c : Char} (h : c ∈ value.digits) : c.isDigit :=
  Nat.isDigit_of_mem_toDigits (by decide) (by decide) h

theorem isDigit_of_mem_zeros {count : Nat} {c : Char} (h : c ∈ List.replicate count '0') :
    c.isDigit := by
  rw [List.eq_of_mem_replicate h]
  decide

theorem isPositional_positional (value : Decimal) : IsPositional value.positional := by
  have hdigits := value.digits_ne_nil
  unfold positional
  dsimp only
  split
  · apply IsPositional.whole
    · exact List.append_ne_nil_of_left_ne_nil hdigits _
    · intro c hc
      exact (List.mem_append.1 hc).elim isDigit_of_mem_digits isDigit_of_mem_zeros
  · have hlength : 0 < value.digits.length := List.length_pos_iff.2 hdigits
    split
    · apply IsPositional.point
      · exact List.ne_nil_of_length_pos (by rw [List.length_take]; omega)
      · exact fun c hc ↦ isDigit_of_mem_digits (List.mem_of_mem_take hc)
      · exact List.ne_nil_of_length_pos (by rw [List.length_drop]; omega)
      · exact fun c hc ↦ isDigit_of_mem_digits (List.mem_of_mem_drop hc)
    · change IsPositional (['0'] ++ '.' :: (_ ++ _))
      apply IsPositional.point
      · simp
      · intro c hc
        obtain rfl := List.mem_singleton.1 hc
        decide
      · exact List.append_ne_nil_of_right_ne_nil _ hdigits
      · intro c hc
        exact (List.mem_append.1 hc).elim isDigit_of_mem_zeros isDigit_of_mem_digits

/-- No digit of a decimal is left out. -/
theorem mem_positional {value : Decimal} {c : Char} (h : c ∈ value.digits) :
    c ∈ value.positional := by
  unfold positional
  dsimp only
  split
  · exact List.mem_append_left _ h
  · split
    · rw [← value.digits.take_append_drop (value.digits.length + value.exponent).toNat,
        List.mem_append] at h
      simp only [List.mem_append, List.mem_cons]
      exact h.imp_right .inr
    · exact List.mem_append_right _ h

end Decimal

/-! ## Reading numbers -/

namespace Sql

theorem not_startsWord_of_isDigit {c : Char} (h : c.isDigit) : startsWord c = false := by
  simp only [Char.isDigit, Bool.and_eq_true, decide_eq_true_eq, ge_iff_le,
    UInt32.le_iff_toNat_le] at h
  have hnine : '9'.val.toNat = 57 := rfl
  have hupper : 'A'.val.toNat = 65 := rfl
  have hlower : 'a'.val.toNat = 97 := rfl
  have hunderscore : c ≠ '_' := by rintro rfl; exact absurd h (by decide)
  have hat : c ≠ '@' := by rintro rfl; exact absurd h (by decide)
  have halpha : c.isAlpha = false := by
    change (decide ('A'.val ≤ c.val ∧ c.val ≤ 'Z'.val) ||
      decide ('a'.val ≤ c.val) && decide (c.val ≤ 'z'.val)) = false
    simp only [UInt32.le_iff_toNat_le, Bool.or_eq_false_iff, Bool.and_eq_false_iff,
      decide_eq_false_iff_not]
    omega
  simp [startsWord, halpha, hunderscore, hat]

theorem start_of_isDigit {c : Char} (h : c.isDigit) : Mode.start c = some ([], .number [c]) := by
  have hblank : isBlank c = false := by
    simp only [isBlank, Bool.or_eq_false_iff, decide_eq_false_iff_not]
    refine ⟨⟨⟨?_, ?_⟩, ?_⟩, ?_⟩ <;> rintro rfl <;> exact absurd h (by decide)
  simp [Mode.start, hblank, not_startsWord_of_isDigit h, h]

theorem run_digits (text : List Char) {digits : List Char} (h : ∀ c ∈ digits, c.isDigit) :
    run (.number text) digits = some ([], .number (text ++ digits)) := by
  induction digits generalizing text with
  | nil => simp [run]
  | cons c rest ih =>
    have hc : c.isDigit := h c List.mem_cons_self
    have hstep : (Mode.number text).step c = some ([], .number (text ++ [c])) := by
      simp [Mode.step, hc]
    have hrest := ih (text ++ [c]) fun d hd ↦ h d (List.mem_cons_of_mem _ hd)
    rw [List.append_assoc, List.singleton_append] at hrest
    exact run_cons hstep hrest

/-- A positional number continues a number that has no point yet. -/
theorem run_positional (text : List Char) (hpoint : '.' ∉ text) {number : List Char}
    (h : IsPositional number) :
    run (.number text) number = some ([], .number (text ++ number)) := by
  cases h with
  | whole nonempty isDigit => exact run_digits text isDigit
  | @point digits fraction nonempty isDigit fraction_nonempty fraction_isDigit =>
    have hdigits : '.' ∉ digits := fun hmem ↦ absurd (isDigit '.' hmem) (by decide)
    have hstep : (Mode.number (text ++ digits)).step '.' =
        some ([], .number (text ++ digits ++ ['.'])) := by
      simp [Mode.step, hpoint, hdigits]
    have hfraction := run_digits (text ++ digits ++ ['.']) fraction_isDigit
    have hwhole := run_append (run_digits text isDigit) (run_cons hstep hfraction)
    simpa using hwhole

theorem isDigit_head {number : List Char} (h : IsPositional number) :
    ∃ c rest, number = c :: rest ∧ c.isDigit := by
  cases h with
  | whole nonempty isDigit =>
    obtain ⟨c, rest, rfl⟩ := List.exists_cons_of_ne_nil nonempty
    exact ⟨c, rest, rfl, isDigit c List.mem_cons_self⟩
  | @point digits fraction nonempty isDigit fraction_nonempty fraction_isDigit =>
    obtain ⟨c, rest, rfl⟩ := List.exists_cons_of_ne_nil nonempty
    exact ⟨c, rest ++ '.' :: fraction, rfl, isDigit c List.mem_cons_self⟩

theorem run_ready_positional {number : List Char} (h : IsPositional number) :
    run .ready number = some ([], .number number) := by
  obtain ⟨c, rest, rfl, hc⟩ := isDigit_head h
  have hstep : Mode.ready.step c = (Mode.number []).step c := by
    simp [Mode.step, start_of_isDigit hc, hc]
  rw [run, hstep]
  exact run_positional [] (by simp) h

theorem run_ready_minus {number : List Char} (h : IsPositional number) :
    run .ready ('-' :: number) = some ([], .number ('-' :: number)) := by
  have hminus : Mode.ready.step '-' = some ([], .minus) := by decide
  have hnumber : run .minus number = some ([], .number ('-' :: number)) := by
    obtain ⟨c, rest, rfl, hc⟩ := isDigit_head h
    have hne : c ≠ '-' := by rintro rfl; exact absurd hc (by decide)
    have hstep : Mode.minus.step c = (Mode.number ['-']).step c := by
      simp [Mode.step, hc, hne]
    rw [run, hstep]
    exact run_positional ['-'] (by decide) h
  exact run_cons hminus hnumber

/-- A finite double is written as one number. -/
theorem lexes_plain (value : Binary64.Finite) : Lexes value.plain [.number value.plain.toList] := by
  have hpositional := (value.magnitude.shortest .up).isPositional_positional
  have hrun : run .ready value.plain.toList = some ([], .number value.plain.toList) := by
    unfold Binary64.Finite.plain Binary64.Finite.signed
    rw [String.toList_ofList]
    split
    · exact run_ready_minus hpositional
    · exact run_ready_positional hpositional
  exact lexes_iff.2 ⟨[], _, _, hrun, rfl, rfl⟩

end Sql

end StagedQuery
