import StagedQuery.Proofs.Sql.Test
import Mathlib.Data.List.Infix

/-!
# Patterns

A pattern of the query language is matched against a whole text.  A percent sign stands for any
run of characters, an underscore for any single one, brackets for one character of a class, and
every other character for itself.  The matcher tries a run at every place of the text.  A pattern
that begins with characters which stand for themselves matches exactly the texts that begin with
them, followed by what the rest of the pattern matches.
-/

namespace StagedQuery.Sql

/-- A piece of a pattern. -/
inductive Piece where
  /-- Any characters, also none. -/
  | run
  /-- Any single character. -/
  | any
  /-- A single character in one of the ranges, or in none of them. -/
  | oneOf (negated : Bool) (ranges : List (Char × Char))
  /-- A character that stands for itself. -/
  | char (character : Char)
deriving DecidableEq

namespace Piece

/-- The characters that do not stand for themselves. -/
def wildcards : List Char := ['%', '_', '[']

/-! ## Reading patterns -/

/-- The ranges that stand between brackets; a single character is a range by itself. -/
def ranges : List Char → List (Char × Char)
  | low :: '-' :: high :: rest => (low, high) :: ranges rest
  | c :: rest => (c, c) :: ranges rest
  | [] => []

def ofClass : List Char → Piece
  | '^' :: text => .oneOf true (ranges text)
  | text => .oneOf false (ranges text)

/-- The pieces of a pattern, perhaps behind an opening bracket and the text after it.  A class that
is not closed has no characters. -/
def ofChars : Option (List Char) → List Char → List Piece
  | none, [] => []
  | some _, [] => [.oneOf false []]
  | none, c :: rest =>
    if c = '%' then .run :: ofChars none rest
    else if c = '_' then .any :: ofChars none rest
    else if c = '[' then ofChars (some []) rest
    else .char c :: ofChars none rest
  | some inside, c :: rest =>
    if c = ']' then ofClass inside :: ofChars none rest else ofChars (some (inside ++ [c])) rest

/-! ## Matching -/

/-- Whether a piece for a single character stands for the given one. -/
def admits : Piece → Char → Bool
  | .run, _ => false
  | .any, _ => true
  | .oneOf negated ranges, c => negated != ranges.any fun (low, high) ↦ low ≤ c && c ≤ high
  | .char character, c => character = c

/-- Whether the pieces match the whole text. -/
def accepts : List Piece → List Char → Bool
  | [], text => text.isEmpty
  | .run :: rest, text => text.tails.any (accepts rest)
  | _ :: _, [] => false
  | piece :: rest, c :: text => piece.admits c && accepts rest text

end Piece

/-- Whether a text is like a pattern. -/
def like (pattern text : String) : Bool :=
  Piece.accepts (Piece.ofChars none pattern.toList) text.toList

/-- What a test of likeness says of a text. -/
def Test.like? (test : Test) (text : String) : Option Bool :=
  match test.operands with
  | [.quoted pattern] =>
    if test.keyword = "LIKE" then some (like pattern text)
    else if test.keyword = "NOT LIKE" then some !(like pattern text)
    else none
  | _ => none

/-! ## Laws -/

namespace Piece

variable {text : List Char} {pieces : List Piece}

theorem accepts_nil : accepts [] text ↔ text = [] := List.isEmpty_iff

/-- A run may end anywhere. -/
theorem accepts_run : accepts (.run :: pieces) text ↔
    ∃ before after, text = before ++ after ∧ accepts pieces after := by
  rw [accepts, List.any_eq_true]
  constructor
  · rintro ⟨after, hafter, haccepts⟩
    obtain ⟨before, rfl⟩ := (List.mem_tails _ _).1 hafter
    exact ⟨before, after, rfl, haccepts⟩
  · rintro ⟨before, after, rfl, haccepts⟩
    exact ⟨after, (List.mem_tails _ _).2 (List.suffix_append before after), haccepts⟩

theorem accepts_run_nil : accepts [.run] text :=
  accepts_run.2 ⟨text, [], (List.append_nil text).symm, accepts_nil.2 rfl⟩

/-- Characters that stand for themselves are at the beginning of the text. -/
theorem accepts_chars (characters : List Char) : accepts (characters.map .char ++ pieces) text ↔
    ∃ after, text = characters ++ after ∧ accepts pieces after := by
  induction characters generalizing text with
  | nil => simp
  | cons c rest ih =>
    cases text with
    | nil => simp [accepts]
    | cons d text =>
      simp only [List.map_cons, List.cons_append, accepts, admits, Bool.and_eq_true,
        decide_eq_true_eq, ih, List.cons.injEq]
      constructor
      · rintro ⟨rfl, after, rfl, haccepts⟩
        exact ⟨after, ⟨rfl, rfl⟩, haccepts⟩
      · rintro ⟨after, ⟨rfl, rfl⟩, haccepts⟩
        exact ⟨rfl, after, rfl, haccepts⟩

theorem ofChars_append {characters : List Char} (h : ∀ c ∈ characters, c ∉ wildcards)
    (rest : List Char) :
    ofChars none (characters ++ rest) = characters.map .char ++ ofChars none rest := by
  induction characters with
  | nil => rfl
  | cons c characters ih =>
    have hc := h c List.mem_cons_self
    simp only [wildcards, List.mem_cons, List.not_mem_nil, or_false, not_or] at hc
    obtain ⟨hrun, hany, hclass⟩ := hc
    have hrest := ih fun d hd ↦ h d (List.mem_cons_of_mem c hd)
    rw [List.cons_append, ofChars, if_neg hrun, if_neg hany, if_neg hclass, hrest]
    rfl

end Piece

end StagedQuery.Sql
