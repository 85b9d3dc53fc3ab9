import StagedQuery.Proofs.Sql.Variable
import StagedQuery.Proofs.Statement.Pieces

/-!
# Variables in Statements

No variable stands between the pieces of a statement.  So the uses of variables in a statement are
allowed if those in every piece are.
-/

namespace StagedQuery

open Sql (Lexes Joins Leads Respects Separates Use)

/-- No variable is put between pieces. -/
theorem assembles_respects (allowed : List Use) : Assembles (Respects allowed) where
  fixed {text} htext := by
    have hfixed : ∀ text ∈ fixedRows,
        Lexes text ((Sql.closedTokens? text).getD []) ∧ '@' ∉ text.toList := by
      decide
    obtain ⟨hlexes, hat⟩ := hfixed text htext
    exact Sql.respects_of_lexes hlexes hat
  lead {lead text} hlead htext := by
    have hleads : ∀ lead ∈ rowLeads, Leads lead ∧ '@' ∉ lead.toList := by decide
    obtain ⟨hsettles, hat⟩ := hleads lead hlead
    exact htext.append_lead hsettles hat
  glue {first separator second} hseparator hfirst hsecond := by
    have hseparators : ∀ separator ∈ rowSeparators, Joins separator ∧ '@' ∉ separator.toList := by
      decide
    obtain ⟨hjoins, hat⟩ := hseparators separator hseparator
    exact hfirst.glue hjoins hat hsecond
  close {text closing} hclosing htext := by
    have hclosings : ∀ closing ∈ rowClosings,
        Separates closing ((Sql.closedTokens? closing).getD []) ∧ '@' ∉ closing.toList := by
      decide
    obtain ⟨hseparates, hat⟩ := hclosings closing hclosing
    exact htext.append_end hseparates hat

/-- The uses of variables in a statement are those in its pieces. -/
theorem Statement.respects_text {allowed : List Use} {statement : Statement}
    (h : statement.Consists (Respects allowed)) : Respects allowed statement.text := by
  have hrows := (assembles_respects allowed).statement_rows h
  have hempty : Respects allowed "" := (assembles_respects allowed).fixed (by decide)
  have hlines : Respects allowed ("\n".intercalate statement.rows) :=
    intercalate_of_glue hempty (fun _ _ hfirst ↦ hfirst.glue (by decide) (by decide)) hrows
  have hend : Separates ";" [.symbol ';'] := by decide
  rw [text_eq_intercalate]
  exact hlines.append_end hend (by decide)

end StagedQuery
