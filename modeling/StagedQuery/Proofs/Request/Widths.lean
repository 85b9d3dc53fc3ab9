import StagedQuery.Proofs.Binary64.Positional
import StagedQuery.Proofs.Pipeline.Widths
import StagedQuery.Proofs.Request.Insertion

/-!
# Bin Widths of Requests

A statement declares the two configured widths of bins before its tables, and no other variable.
Both are positive and finite, are written so that they are read back exactly, and only divide the
average of their own metric.  A request with any other width is refused, whatever else it asks for.
-/

namespace StagedQuery

open Sql (Token)

theorem Sql.IsScript.count_declare {tokens : List Token} (h : IsScript tokens) :
    tokens.count Token.declare = 2 := by
  obtain ⟨first, second, query, rfl, hinner⟩ := h.sections
  have hnone {part : List Token} (hpart : part ⊆ first ++ second ++ query) :
      part.count Token.declare = 0 :=
    List.count_eq_zero.2 fun hmem ↦ (hinner _ (hpart hmem)).2 rfl
  have hfirst : first.count Token.declare = 0 := hnone (by simp)
  have hsecond : second.count Token.declare = 0 := hnone (by simp)
  have hquery : query.count Token.declare = 0 := hnone (by simp)
  have hsemicolon : (Token.semicolon == Token.declare) = false := by decide
  have hnewline : (Token.blank '\n' == Token.declare) = false := by decide
  simp [List.count_cons, hfirst, hsecond, hquery, hsemicolon, hnewline]

/-! ## Accepted widths -/

theorem BinWidth.toDouble_of_ofDouble {setting : String} {value : Binary64} {width : BinWidth}
    (h : ofDouble setting value = .ok width) : width.toDouble = value := by
  unfold ofDouble at h
  split at h
  · split at h
    · cases h
      rfl
    · cases h
  · cases h

theorem BinWidth.isShownPositive (width : BinWidth) :
    width.toDouble.IsShownPositive width.toDouble.plain :=
  Binary64.isShownPositive_plain width.positive

/-- A width that is not positive is a fault, whatever the other settings are. -/
theorem ChartSettings.faults_ne_nil {settings : ChartSettings}
    (h : settings.fitnessBinSize.isPositive = false ∨
      settings.citationCountBinSize.isPositive = false) : settings.faults ≠ [] := by
  have hfault (setting : String) {value : Binary64} (hvalue : value.isPositive = false) :
      widthFaults setting value ≠ [] := by
    simp [widthFaults, hvalue]
  rw [faults, ne_eq, List.append_eq_nil_iff, List.append_eq_nil_iff]
  rintro ⟨⟨-, hfitness⟩, hcitationCount⟩
  rcases h with h | h
  · exact hfault _ h hfitness
  · exact hfault _ h hcitationCount

theorem ReportsFirst.exists_error {ε α : Type} {result : Except ε α} {faults : List ε}
    (h : ReportsFirst result faults) (hfaults : faults ≠ []) : ∃ fault, result = .error fault := by
  obtain ⟨fault, rest, rfl⟩ := List.exists_cons_of_ne_nil hfaults
  exact ⟨fault, h⟩

/-! ## Statements -/

namespace Pipeline

/-- A statement begins with its declarations. -/
theorem exists_statement_text (chart : Chart) (filters : Filters) :
    ∃ rest, (statement chart filters).text =
      "DECLARE @fitness_bin_size float = " ++ chart.fitnessWidth.toDouble.plain ++
        ";\nDECLARE @citation_count_bin_sz float = " ++
        chart.citationCountWidth.toDouble.plain ++ ";\n\nWITH " ++ rest := by
  have hfitness : "DECLARE " ++ ("@" ++ "fitness_bin_size") ++ " " ++ "float" ++ " = " =
      "DECLARE @fitness_bin_size float = " := by rfl
  have hcitationCount : ";" ++ "\n" ++
      ("DECLARE " ++ ("@" ++ "citation_count_bin_sz") ++ " " ++ "float" ++ " = ") =
      ";\nDECLARE @citation_count_bin_sz float = " := by rfl
  have htables : ";" ++ "\n\n" ++ "WITH " = ";\n\nWITH " := by rfl
  rw [statement_text, tablesText, ← hfitness, ← hcitationCount, ← htables]
  refine ⟨",\n".intercalate ((statement chart filters).tables.map NamedTable.text) ++
    ("\n\n" ++ ((chartSelect chart filters).text 0 ++ ";")), ?_⟩
  simp only [Declaration.text, Declaration.reference, Declaration.sqlType, fitnessWidth,
    citationCountWidth, String.append_assoc]

end Pipeline

open Pipeline in
/-- A statement declares two variables before its tables, whose values are the configured widths.
Every variable outside of literals is one of them, and stands where it is declared or where it
divides the average of its own metric.  No statement is made for a width that is not positive. -/
theorem compile_widths (tree : Group Rule) (settings : ChartSettings) :
    (∀ text, compile tree settings = .ok text →
      ∃ fitness citationCount rest tokens,
        text = "DECLARE @fitness_bin_size float = " ++ fitness ++
          ";\nDECLARE @citation_count_bin_sz float = " ++ citationCount ++
          ";\n\nWITH " ++ rest ∧
        settings.fitnessBinSize.IsShownPositive fitness ∧
        settings.citationCountBinSize.IsShownPositive citationCount ∧
        Sql.tokens? text = some tokens ∧ tokens.count Token.declare = 2 ∧
        Sql.Follows widthUses tokens) ∧
      (settings.fitnessBinSize.isPositive = false ∨
          settings.citationCountBinSize.isPositive = false →
        (∃ fault, Chart.ofSettings settings = .error fault) ∧
          ∃ fault, compile tree settings = .error fault) := by
  constructor
  · intro text h
    obtain ⟨chart, hchart, rfl⟩ := compile_eq_ok h
    obtain ⟨-, -, -, -, hfitness, hcitationCount⟩ := Chart.ofSettings_eq_ok_iff.1 hchart
    have hdrawable := Chart.drawable_of_ofSettings hchart
    obtain ⟨rest, htext⟩ := exists_statement_text chart (Filters.ofTree tree)
    obtain ⟨tokens, -, hlexes, -, -, hscript, -⟩ :=
      statement_masked hdrawable.known (Filters.clause?_alike (Eq.refl (tree.map Rule.outline)))
    obtain ⟨others, hothers, hfollows⟩ := respects_statement hdrawable tree
    obtain rfl := Option.some.inj (hlexes.symm.trans hothers)
    rw [← BinWidth.toDouble_of_ofDouble hfitness, ← BinWidth.toDouble_of_ofDouble hcitationCount]
    exact ⟨_, _, rest, tokens, htext, chart.fitnessWidth.isShownPositive,
      chart.citationCountWidth.isShownPositive, hlexes.tokens?, hscript.count_declare, hfollows⟩
  · intro h
    have hfaults := ChartSettings.faults_ne_nil h
    exact ⟨(Chart.ofSettings_reportsFirst settings).exists_error hfaults,
      (compile_reportsFirst tree settings).exists_error
        (List.append_ne_nil_of_right_ne_nil _ hfaults)⟩

theorem compile_widths_initial :
    (∃ text tokens, compile {} .initial = .ok text ∧ Sql.tokens? text = some tokens ∧
      tokens.count Token.declare = 2 ∧ Sql.Follows Pipeline.widthUses tokens) ∧
    ∃ fault, compile {} { ChartSettings.initial with fitnessBinSize := .infinite false } =
      .error fault := by
  constructor
  · have houtcome := compile_reportsFirst {} .initial
    have hfields : ({} : Group Rule).unknownFields = [] := by rfl
    rw [requestFaults, hfields, ChartSettings.faults_initial] at houtcome
    obtain ⟨text, htext⟩ := houtcome
    obtain ⟨-, -, -, tokens, -, -, -, htokens, hcount, hfollows⟩ :=
      (compile_widths {} .initial).1 text htext
    exact ⟨text, tokens, htext, htokens, hcount, hfollows⟩
  · exact ((compile_widths {} { ChartSettings.initial with
      fitnessBinSize := .infinite false }).2 (.inl rfl)).2

end StagedQuery
