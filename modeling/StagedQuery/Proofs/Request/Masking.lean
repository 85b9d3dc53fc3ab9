import StagedQuery.Proofs.Filters.Outline
import StagedQuery.Proofs.Pipeline.Alike
import StagedQuery.Proofs.Request.Outcome

/-!
# Masked Statements

The values in the rules of a request never escape their literals.  Two requests for the same chart
whose conditions have the same outlines give statements with the same tokens, up to the values of
literals and numbers; and each statement consists of two declarations and a query, however the
values are chosen.
-/

namespace StagedQuery

open Sql (Token Alike Lexes Settles Separates Quiet)
open Sql.Token (declare semicolon)

/-! ## Scripts -/

namespace Sql

/-- Two declarations and a query, each of them ended by a semicolon.  There are no other semicolons
and no other declarations, and the parentheses are balanced. -/
structure IsScript (tokens : List Token) : Prop where
  balanced : nesting 0 tokens = some 0
  semicolons : tokens.count semicolon = 3
  sections : ∃ first second query,
    tokens = declare :: first ++ [semicolon] ++ (.blank '\n' :: declare :: second ++ [semicolon]) ++
      (query ++ [semicolon]) ∧
    ∀ token ∈ first ++ second ++ query, token ≠ semicolon ∧ token ≠ declare

theorem nesting_append_balanced {first second : List Token} (hfirst : nesting 0 first = some 0)
    (hsecond : nesting 0 second = some 0) : nesting 0 (first ++ second) = some 0 := by
  rw [nesting_append hfirst, hsecond]

theorem Quiet.count_semicolon {tokens : List Token} (h : Quiet tokens) :
    tokens.count semicolon = 0 :=
  List.count_eq_zero.2 fun hmem ↦ (h.inner semicolon hmem).1 rfl

theorem isScript_of_quiet {first second query : List Token} (hfirst : Quiet first)
    (hsecond : Quiet second) (hquery : Quiet query) :
    IsScript (declare :: first ++ [semicolon] ++
      (.blank '\n' :: declare :: second ++ [semicolon]) ++ (query ++ [semicolon])) where
  balanced := by
    have hend : nesting 0 [semicolon] = some 0 := by decide
    have hdeclare : nesting 0 [declare] = some 0 := by decide
    have hnewline : nesting 0 [.blank '\n', declare] = some 0 := by decide
    have hone := nesting_append_balanced (nesting_append_balanced hdeclare hfirst.balanced) hend
    have htwo := nesting_append_balanced (nesting_append_balanced hnewline hsecond.balanced) hend
    exact nesting_append_balanced (nesting_append_balanced hone htwo)
      (nesting_append_balanced hquery.balanced hend)
  semicolons := by
    have hdeclare : (declare == semicolon) = false := by decide
    have hnewline : (Token.blank '\n' == semicolon) = false := by decide
    simp [List.count_cons, hdeclare, hnewline, hfirst.count_semicolon, hsecond.count_semicolon,
      hquery.count_semicolon]
  sections := by
    refine ⟨first, second, query, rfl, ?_⟩
    exact ((hfirst.append hsecond).append hquery).inner

end Sql

/-! ## Statements -/

namespace Pipeline

/-- The tokens between the keyword of a declaration and its value. -/
def declarationLead (name : String) : List Token :=
  [.blank ' ', .word ('@' :: name.toList), .blank ' ', .word "float".toList, .blank ' ',
    .symbol '=', .blank ' ']

/-- The tokens between the keyword of a declaration and its semicolon. -/
def declarationTokens (name : String) (width : BinWidth) : List Token :=
  declarationLead name ++ [.number (Binary64.Finite.plain ⟨false, width.magnitude⟩).toList]

def widthNames : List String := ["fitness_bin_size", "citation_count_bin_sz"]

theorem declarationLead_facts : ∀ name ∈ widthNames,
    Settles ("DECLARE " ++ ("@" ++ name) ++ " " ++ "float" ++ " = ")
        (declare :: declarationLead name) ∧ Quiet (declarationLead name) := by
  decide +kernel

variable {name : String}

theorem lexes_declaration (hname : name ∈ widthNames) (width : BinWidth) :
    Lexes (Declaration.text ⟨name, width.toDouble⟩)
      (declare :: declarationTokens name width ++ [semicolon]) := by
  have hend : Separates ";" [semicolon] := by decide
  have hlead := (declarationLead_facts name hname).1
  have hvalue := Sql.lexes_plain ⟨false, width.magnitude⟩
  exact ((hlead.append_lexes hvalue).append_separates hend).lexes

theorem quiet_declarationTokens (hname : name ∈ widthNames) (width : BinWidth) :
    Quiet (declarationTokens name width) := by
  have hnumber : Quiet [.number (Binary64.Finite.plain ⟨false, width.magnitude⟩).toList] := by
    rw [← Sql.quiet_map_mask]
    change Quiet [.literal []]
    decide
  exact (declarationLead_facts name hname).2.append hnumber

/-- The tokens of a statement for a chart, given those of its tables and of its selection. -/
def scriptTokens (chart : Chart) (tables query : List Token) : List Token :=
  declare :: declarationTokens "fitness_bin_size" chart.fitnessWidth ++ [semicolon] ++
    (.blank '\n' :: declare ::
      declarationTokens "citation_count_bin_sz" chart.citationCountWidth ++ [semicolon]) ++
    ([.blank '\n', .blank '\n'] ++ tables ++ [.blank '\n', .blank '\n'] ++ query ++ [semicolon])

def tablesText (chart : Chart) (filters : Filters) : String :=
  "WITH " ++ ",\n".intercalate ((statement chart filters).tables.map NamedTable.text)

theorem statement_text (chart : Chart) (filters : Filters) : (statement chart filters).text =
    ((fitnessWidth chart).text ++ "\n" ++ (citationCountWidth chart).text) ++ "\n\n" ++
      (tablesText chart filters ++ "\n\n" ++ ((chartSelect chart filters).text 0 ++ ";")) := by
  change "\n\n".intercalate
    ["\n".intercalate [(fitnessWidth chart).text, (citationCountWidth chart).text],
      tablesText chart filters, (chartSelect chart filters).text 0 ++ ";"] = _
  simp only [String.intercalate_cons_cons, String.intercalate_singleton]

theorem lexes_statement {chart : Chart} {filters : Filters} {tables query : List Token}
    (htables : Lexes (tablesText chart filters) tables)
    (hquery : Lexes ((chartSelect chart filters).text 0) query) :
    Lexes (statement chart filters).text (scriptTokens chart tables query) := by
  have hline : Separates "\n" [.blank '\n'] := by decide
  have hgap : Separates "\n\n" [.blank '\n', .blank '\n'] := by decide
  have hend : Separates ";" [semicolon] := by decide
  have hfitness := lexes_declaration (by decide : "fitness_bin_size" ∈ widthNames)
    chart.fitnessWidth
  have hcitationCount := lexes_declaration (by decide : "citation_count_bin_sz" ∈ widthNames)
    chart.citationCountWidth
  have hbody := (hquery.append_separates hend).lexes
  have hscript := (hfitness.glue hline hcitationCount).glue hgap (htables.glue hgap hbody)
  rw [statement_text]
  simpa [scriptTokens, fitnessWidth, citationCountWidth] using hscript

/-- Alike clauses make alike statements. -/
theorem statement_masked {chart : Chart} (hknown : chart.Known) {first second : Filters}
    (h : ∀ stage, Option.Rel Alike (first.clause? stage) (second.clause? stage)) :
    ∃ firstTokens secondTokens, Lexes (statement chart first).text firstTokens ∧
      Lexes (statement chart second).text secondTokens ∧
      firstTokens.map Token.mask = secondTokens.map Token.mask ∧
      Sql.IsScript firstTokens ∧ Sql.IsScript secondTokens := by
  have htables := (Alike.intercalate (by decide : Sql.Joins ",\n")
    (tables_alike chart h)).append_lead (by decide : Sql.Leads "WITH ")
  obtain ⟨firstTables, secondTables, hfirstTables, hsecondTables, hmaskTables, hquietTables⟩ :=
    htables
  obtain ⟨firstQuery, secondQuery, hfirstQuery, hsecondQuery, hmaskQuery, hquietQuery⟩ :=
    chartSelect_alike hknown h
  have hscript {tables query : List Token} (htables : Quiet tables) (hquery : Quiet query) :
      Sql.IsScript (scriptTokens chart tables query) := by
    have hgap : Quiet [.blank '\n', .blank '\n'] := by decide
    exact Sql.isScript_of_quiet
      (quiet_declarationTokens (by decide : "fitness_bin_size" ∈ widthNames) chart.fitnessWidth)
      (quiet_declarationTokens (by decide : "citation_count_bin_sz" ∈ widthNames)
        chart.citationCountWidth)
      (((hgap.append htables).append hgap).append hquery)
  refine ⟨scriptTokens chart firstTables firstQuery, scriptTokens chart secondTables secondQuery,
    lexes_statement hfirstTables hfirstQuery, lexes_statement hsecondTables hsecondQuery, ?_,
    hscript hquietTables hquietQuery, hscript ?_ ?_⟩
  · simp only [scriptTokens, List.map_append, hmaskTables, hmaskQuery]
  · rw [← Sql.quiet_map_mask, ← hmaskTables, Sql.quiet_map_mask]
    exact hquietTables
  · rw [← Sql.quiet_map_mask, ← hmaskQuery, Sql.quiet_map_mask]
    exact hquietQuery

end Pipeline

/-- Two requests for one chart whose conditions have the same outlines give statements with the same
tokens, up to the values of literals and numbers, and each statement is a script. -/
theorem compile_masked_eq {first second : Group Rule} {settings : ChartSettings}
    {firstText secondText : String} (houtline : first.map Rule.outline = second.map Rule.outline)
    (hfirst : compile first settings = .ok firstText)
    (hsecond : compile second settings = .ok secondText) :
    ∃ firstTokens secondTokens, Sql.tokens? firstText = some firstTokens ∧
      Sql.tokens? secondText = some secondTokens ∧
      firstTokens.map Token.mask = secondTokens.map Token.mask ∧
      Sql.IsScript firstTokens ∧ Sql.IsScript secondTokens := by
  obtain ⟨chart, hchart, rfl⟩ := compile_eq_ok hfirst
  obtain ⟨_, hsame, rfl⟩ := compile_eq_ok hsecond
  obtain rfl := Except.ok.inj (hchart.symm.trans hsame)
  obtain ⟨firstTokens, secondTokens, hfirstTokens, hsecondTokens, hmask, hscripts⟩ :=
    Pipeline.statement_masked (Chart.known_of_ofSettings hchart) (Filters.clause?_alike houtline)
  exact ⟨firstTokens, secondTokens, hfirstTokens.tokens?, hsecondTokens.tokens?, hmask, hscripts⟩

theorem compile_masked_eq_quotes :
    let tree (title year : String) : Group Rule :=
      ⟨.or, true, [.leaf ⟨"cited_title", "contains", .string title⟩,
        .group .and false [.leaf ⟨"cited_pub_year", "in", .array [.string year, .string "]"]⟩]]⟩
    (tree "'); -- /*" "0").map Rule.outline = (tree "a" "(' OR 1=1").map Rule.outline ∧
      ∃ firstText secondText, compile (tree "'); -- /*" "0") .initial = .ok firstText ∧
        compile (tree "a" "(' OR 1=1") .initial = .ok secondText ∧
        ∃ firstTokens secondTokens, Sql.tokens? firstText = some firstTokens ∧
          Sql.tokens? secondText = some secondTokens ∧
          firstTokens.map Token.mask = secondTokens.map Token.mask := by
  intro tree
  have houtline : (tree "'); -- /*" "0").map Rule.outline =
      (tree "a" "(' OR 1=1").map Rule.outline := by rfl
  have hcompiles (title year : String) : ∃ text, compile (tree title year) .initial = .ok text := by
    have houtcome := compile_reportsFirst (tree title year) .initial
    have hfields : (tree title year).unknownFields = [] := by rfl
    rwa [requestFaults, hfields, ChartSettings.faults_initial] at houtcome
  obtain ⟨firstText, hfirst⟩ := hcompiles "'); -- /*" "0"
  obtain ⟨secondText, hsecond⟩ := hcompiles "a" "(' OR 1=1"
  obtain ⟨firstTokens, secondTokens, hfirstTokens, hsecondTokens, hmask, -⟩ :=
    compile_masked_eq houtline hfirst hsecond
  exact ⟨houtline, firstText, secondText, hfirst, hsecond, firstTokens, secondTokens, hfirstTokens,
    hsecondTokens, hmask⟩

end StagedQuery
