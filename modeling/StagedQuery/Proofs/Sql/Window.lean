import StagedQuery.Proofs.Sql.Column
import Mathlib.Algebra.Order.Field.Rat
import Mathlib.Data.List.Count
import Mathlib.Data.List.Nodup
import Mathlib.Data.List.Perm.Subperm

/-!
# Percentile Ranks

A window gives every row of a table its percentile rank among the rows of the same partition: how
many of the other rows have a smaller value in the column that orders the window.  Ties count as
equal, and a row that is alone in its partition has rank zero.
-/

namespace StagedQuery.Sql

/-! ## Rows -/

/-- What a column holds in a row.  A text is what the collation of its column makes of it. -/
inductive Value where
  | null
  | number (value : ℚ)
  | text (value : String)
deriving DecidableEq

namespace Value

/-- The order of the values in a column.  Null comes first. -/
def Precedes : Value → Value → Prop
  | .null, .null => False
  | .null, _ => True
  | .number first, .number second => first < second
  | .text first, .text second => first < second
  | _, _ => False

instance : LT Value := ⟨Precedes⟩

instance (first second : Value) : Decidable (first < second) := by
  change Decidable (Precedes first second)
  cases first <;> cases second <;> unfold Precedes <;> infer_instance

theorem irrefl (value : Value) : ¬ value < value := by
  cases value with
  | null => exact not_false
  | number value => exact lt_irrefl value
  | text value => exact String.lt_irrefl value

theorem trans {first second third : Value} (hfirst : first < second) (hsecond : second < third) :
    first < third := by
  cases first <;> cases second <;> cases third
  case null.number.number => trivial
  case null.text.text => trivial
  case number.number.number => exact lt_trans (α := ℚ) hfirst hsecond
  case text.text.text => exact String.lt_trans hfirst hsecond
  -- Values of different kinds are in no order, unless the first one is null.
  all_goals first
    | exact False.elim hfirst
    | exact False.elim hsecond

def number? : Value → Option ℚ
  | .number value => some value
  | .null | .text _ => none

end Value

/-- The values of the columns of a row. -/
abbrev Row := String → Value

/-- The rows that have the same values as a row in some columns. -/
def agreeing (columns : List String) (rows : List Row) (row : Row) : List Row :=
  rows.filter fun other ↦ columns.map other = columns.map row

/-- Among different items there is no other one than a given one exactly if there is one only. -/
theorem length_eq_one_iff {α : Type} {items : List α} (hitems : items.Nodup) {item : α}
    (h : item ∈ items) : items.length = 1 ↔ ∀ other ∈ items, other = item := by
  constructor
  · intro hlength
    obtain ⟨only, rfl⟩ := List.length_eq_one_iff.1 hlength
    intro other hother
    rw [List.mem_singleton.1 hother, List.mem_singleton.1 h]
  · intro hsame
    have hsubset : items ⊆ [item] := fun other hother ↦ List.mem_singleton.2 (hsame other hother)
    have hle := (List.subperm_of_subset hitems hsubset).length_le
    exact Nat.le_antisymm hle (List.length_pos_of_mem h)

/-- Rows are told apart by columns in which no two of them agree. -/
theorem agreeing_eq_singleton {columns : List String} {rows : List Row} {row : Row}
    (hrows : (rows.map fun row ↦ columns.map row).Nodup) (h : row ∈ rows) :
    agreeing columns rows row = [row] := by
  have hself : row ∈ agreeing columns rows row := by simp [agreeing, h]
  have hsame : ∀ other ∈ agreeing columns rows row, other = row := by
    intro other hother
    obtain ⟨hmem, hvalues⟩ := List.mem_filter.1 hother
    exact List.inj_on_of_nodup_map hrows hmem h (of_decide_eq_true hvalues)
  have hnodup : (agreeing columns rows row).Nodup := hrows.of_map.filter _
  obtain ⟨only, honly⟩ := List.length_eq_one_iff.1 ((length_eq_one_iff hnodup hself).2 hsame)
  rw [honly] at hself ⊢
  rw [List.mem_singleton.1 hself]

/-! ## Windows -/

/-- The columns that partition the rows, and the column that orders them. -/
structure Window where
  partition : List String
  order : String
deriving DecidableEq

namespace Window

/-- The tokens of a percentile rank before the columns of its partition, without blanks. -/
def opening : List Token :=
  [.word "PERCENT_RANK".toList, .symbol '(', .symbol ')', .word "OVER".toList, .symbol '(',
    .word "PARTITION".toList, .word "BY".toList]

/-- The window of the percentile rank that a text writes. -/
def ofText? (text : String) : Option Window := do
  let words := (← tokens? text).filter fun token ↦ !token.isBlank
  let inside ← (← words.dropPrefix? opening).dropSuffix? [.symbol ')']
  let (partition, ordered) := inside.span (· ≠ .word "ORDER".toList)
  let order ← ordered.dropPrefix? [.word "ORDER".toList, .word "BY".toList]
  let columns ← tokenColumns? partition
  match ← tokenColumns? order with
  | [column] => return ⟨columns.map ColumnUse.name, column.name⟩
  | _ => none

/-- The rows in the partition of a row. -/
def peers (window : Window) (rows : List Row) (row : Row) : List Row :=
  agreeing window.partition rows row

/-- One more than the number of rows in the partition with smaller values. -/
def rank (window : Window) (rows : List Row) (row : Row) : ℕ :=
  (window.peers rows row).countP (fun other ↦ other window.order < row window.order) + 1

/-- The rank on a scale from zero to one. -/
def percentRank (window : Window) (rows : List Row) (row : Row) : ℚ :=
  let count := (window.peers rows row).length
  if count = 1 then 0 else ((window.rank rows row : ℚ) - 1) / (count - 1)

variable (window : Window) {rows : List Row} {row other : Row}

theorem mem_peers_self (h : row ∈ rows) : row ∈ window.peers rows row := by
  simp [peers, agreeing, h]

theorem peers_congr (h : other ∈ window.peers rows row) :
    window.peers rows other = window.peers rows row := by
  have hkey := of_decide_eq_true (List.mem_filter.1 h).2
  rw [peers, peers, agreeing, agreeing, hkey]

/-- Smaller values have no larger rank. -/
theorem rank_mono (hpeer : other ∈ window.peers rows row)
    (hsmaller : other window.order < row window.order) :
    window.rank rows other ≤ window.rank rows row := by
  rw [rank, rank, window.peers_congr hpeer]
  apply Nat.add_le_add_right
  apply List.countP_mono_left
  intro third _ hthird
  exact decide_eq_true (Value.trans (of_decide_eq_true hthird) hsmaller)

/-- No row is smaller than itself. -/
theorem rank_le_length (h : row ∈ rows) :
    window.rank rows row ≤ (window.peers rows row).length := by
  apply List.countP_lt_length_iff.2
  exact ⟨row, window.mem_peers_self h, by simp [Value.irrefl]⟩

theorem percentRank_eq (h : row ∈ rows) : window.percentRank rows row =
    ((window.rank rows row - 1 : ℕ) : ℚ) / ((window.peers rows row).length - 1 : ℕ) := by
  have hrank : 1 ≤ window.rank rows row := Nat.le_add_left _ _
  have hlength := hrank.trans (window.rank_le_length h)
  rw [percentRank, Nat.cast_sub hrank, Nat.cast_sub hlength]
  split
  · next hone => simp [hone]
  · simp

/-- A row has the last rank exactly if all other rows of its partition are smaller. -/
theorem rank_eq_length_iff (hrows : rows.Nodup) (h : row ∈ rows) :
    window.rank rows row = (window.peers rows row).length ↔
      ∀ other ∈ window.peers rows row, other ≠ row → other window.order < row window.order := by
  let smaller (other : Row) : Bool := other window.order < row window.order
  let others := (window.peers rows row).filter fun other ↦ !smaller other
  have hlength : (window.peers rows row).length =
      (window.peers rows row).countP smaller + others.length := by
    rw [List.countP_eq_length_filter]
    exact List.length_eq_length_filter_add smaller
  have hself : row ∈ others :=
    List.mem_filter.2 ⟨window.mem_peers_self h, by simp [smaller, Value.irrefl]⟩
  calc
    _ ↔ others.length = 1 := by
      change (window.peers rows row).countP smaller + 1 = _ ↔ _
      omega
    _ ↔ ∀ other ∈ others, other = row := length_eq_one_iff ((hrows.filter _).filter _) hself
    _ ↔ _ := by
      simp only [others, smaller, List.mem_filter, Bool.not_eq_true', decide_eq_false_iff_not,
        and_imp]
      exact forall₂_congr fun other _ ↦ not_imp_comm

theorem two_le_length_iff (hrows : rows.Nodup) (h : row ∈ rows) :
    2 ≤ (window.peers rows row).length ↔ ∃ other ∈ window.peers rows row, other ≠ row := by
  have hself : row ∈ window.peers rows row := window.mem_peers_self h
  have hpositive := List.length_pos_of_mem hself
  have hnodup : (window.peers rows row).Nodup := hrows.filter _
  have hone := length_eq_one_iff hnodup hself
  constructor
  · intro htwo
    by_contra hnone
    simp only [not_exists, not_and, not_not] at hnone
    have halone := hone.2 hnone
    omega
  · rintro ⟨other, hother, hne⟩
    have hmany : (window.peers rows row).length ≠ 1 := fun halone ↦ hne (hone.1 halone other hother)
    omega

end Window

end StagedQuery.Sql
