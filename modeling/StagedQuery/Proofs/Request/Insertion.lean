import StagedQuery.Proofs.Request.Masking
import StagedQuery.Proofs.Statement.Insertion

/-!
# Insertions into Statements

The clauses of a condition are inserted into the statement that its chart has without a condition,
at three fixed places, and nothing else in the statement depends on the condition.  The chart, in
turn, only fixes the two declared widths and the final selection around its clause.
-/

namespace StagedQuery

namespace Pipeline

/-! ## The pieces of a statement -/

def declarationLine (name : String) (width : BinWidth) : String :=
  "DECLARE @" ++ name ++ " float = " ++ width.toDouble.plain ++ ";"

/-- The declared widths of a chart. -/
def declarationLines (chart : Chart) : String :=
  declarationLine "fitness_bin_size" chart.fitnessWidth ++ "\n" ++
    declarationLine "citation_count_bin_sz" chart.citationCountWidth

/-- The tables of pairs, and the table of articles before its conditions. -/
def tablesOpening : String :=
  "\n\n" ++ "WITH " ++ base.text ++ ",\n" ++ category.text ++ ",\n" ++ fitness.text ++ ",\n" ++
    perPair.text ++ ",\n" ++ "condition AS (\n" ++ (condition noFilters).select.opening 1

/-- The line that groups the pairs of one article. -/
def groupingLine : String :=
  "\n  GROUP BY " ++ ", ".intercalate (Catalog.keyColumns.map ("pp." ++ ·))

/-- The end of the table of articles, and the tables after it. -/
def tablesClosing : String :=
  "\n)" ++ ",\n" ++ percentiles.text ++ ",\n" ++ (aggregation binnedMetrics).text

/-- The final selection before its condition. -/
def chartOpening (chart : Chart) : String :=
  "\n\nSELECT\n" ++ (chartSelect chart noFilters).columnLines 0 ++ "\nFROM aggregation"

/-- The final selection after its condition. -/
def chartClosing (chart : Chart) : String :=
  "\nGROUP BY " ++ ", ".intercalate chart.groupNames ++
    "\nORDER BY " ++ chart.x.name ++ " " ++ chart.direction.keyword ++ ";"

theorem declarationLine_eq (name : String) (width : BinWidth) :
    declarationLine name width = Declaration.text ⟨name, width.toDouble⟩ := by
  have hname : "DECLARE " ++ "@" = "DECLARE @" := by rfl
  have htype : " " ++ ("float" ++ " = ") = " float = " := by rfl
  rw [declarationLine, ← hname, ← htype]
  simp only [Declaration.text, Declaration.reference, Declaration.sqlType, String.append_assoc]

/-! ## Clauses between the pieces -/

theorem lines_singleton (depth : Nat) (keyword clause : String) :
    Select.lines depth [keyword ++ clause] =
      "\n" ++ Select.margin depth ++ keyword ++ clause := by
  simp only [Select.lines, String.append_empty, String.append_assoc]

theorem condition_text (filters : Filters) : (condition filters).text =
    "condition AS (\n" ++ (condition noFilters).select.opening 1 ++
      insertion "\n  WHERE " filters.raw ++ groupingLine ++
      insertion "\n  HAVING " filters.groupCondition ++ "\n)" := by
  have hfilters : (condition filters).select.filters = filters.raw.toList := rfl
  have hgroups : Select.lines 1 (condition filters).select.groupByClause.toList =
      groupingLine := by
    have hclause : (condition filters).select.groupByClause =
        some ("GROUP BY " ++ ", ".intercalate (Catalog.keyColumns.map ("pp." ++ ·))) := rfl
    rw [hclause, Option.toList_some, lines_singleton]
    rfl
  rw [NamedTable.text, Select.text_eq_insertion hfilters, hgroups]
  change "condition AS (\n" ++ ((condition noFilters).select.opening 1 ++
      insertion "\n  WHERE " filters.raw ++ groupingLine ++
      insertion "\n  HAVING " filters.groupCondition ++ "") ++ "\n)" = _
  simp only [String.append_empty, String.append_assoc]

theorem chartSelect_text (chart : Chart) (filters : Filters) :
    "\n\n" ++ ((chartSelect chart filters).text 0 ++ ";") =
      chartOpening chart ++ insertion "\nWHERE " filters.postAggregate ++ chartClosing chart := by
  have hfilters : (chartSelect chart filters).filters = filters.postAggregate.toList := rfl
  have hgroups : Select.lines 0 (chartSelect chart filters).groupByClause.toList =
      "\nGROUP BY " ++ ", ".intercalate chart.groupNames := by
    have hclause : (chartSelect chart filters).groupByClause =
        some ("GROUP BY " ++ ", ".intercalate chart.groupNames) := rfl
    rw [hclause, Option.toList_some, lines_singleton]
    rfl
  have horder : Select.lines 0 (chartSelect chart filters).orderByClause.toList =
      "\nORDER BY " ++ (chart.x.name ++ " " ++ chart.direction.keyword) := by
    have hclause : (chartSelect chart filters).orderByClause =
        some ("ORDER BY " ++ (chart.x.name ++ " " ++ chart.direction.keyword)) := by
      rfl
    rw [hclause, Option.toList_some, lines_singleton]
    rfl
  rw [Select.text_eq_insertion hfilters, hgroups, horder]
  change "\n\n" ++ (("" ++ "SELECT\n" ++ (chartSelect chart noFilters).columnLines 0 ++
      Select.lines 0 ["FROM " ++ "aggregation"]) ++ insertion "\nWHERE " filters.postAggregate ++
        ("\nGROUP BY " ++ ", ".intercalate chart.groupNames) ++ "" ++
        ("\nORDER BY " ++ (chart.x.name ++ " " ++ chart.direction.keyword)) ++ ";") = _
  rw [lines_singleton]
  delta chartOpening chartClosing
  simp only [String.append_empty, String.empty_append, String.append_assoc]
  rfl

theorem tablesText_eq (chart : Chart) (filters : Filters) : "\n\n" ++ tablesText chart filters =
    tablesOpening ++ insertion "\n  WHERE " filters.raw ++ groupingLine ++
      insertion "\n  HAVING " filters.groupCondition ++ tablesClosing := by
  have htables : (statement chart filters).tables.map NamedTable.text =
      [base.text, category.text, fitness.text, perPair.text, (condition filters).text,
        percentiles.text, (aggregation binnedMetrics).text] := rfl
  rw [tablesText, htables, condition_text]
  delta tablesOpening tablesClosing
  simp only [String.intercalate_cons_cons, String.intercalate_singleton, String.append_assoc]

theorem statement_eq_insertion (chart : Chart) (filters : Filters) :
    (statement chart filters).text = declarationLines chart ++ tablesOpening ++
      insertion "\n  WHERE " filters.raw ++ groupingLine ++
      insertion "\n  HAVING " filters.groupCondition ++ tablesClosing ++ chartOpening chart ++
      insertion "\nWHERE " filters.postAggregate ++ chartClosing chart := by
  have hdeclarations : declarationLines chart =
      (fitnessWidth chart).text ++ "\n" ++ (citationCountWidth chart).text := by
    rw [declarationLines, declarationLine_eq, declarationLine_eq]
    rfl
  calc
    _ = declarationLines chart ++ ("\n\n" ++ tablesText chart filters) ++
        ("\n\n" ++ ((chartSelect chart filters).text 0 ++ ";")) := by
      rw [statement_text, hdeclarations]
      simp only [String.append_assoc]
    _ = _ := by
      rw [tablesText_eq, chartSelect_text]
      simp only [String.append_assoc]

end Pipeline

/-! ## Requests -/

theorem unknownField?_of_compile {tree : Group Rule} {settings : ChartSettings} {text : String}
    (h : compile tree settings = .ok text) : tree.unknownField? = none := by
  unfold compile at h
  rw [Filters.ofRules_eq, mapError_okUnless] at h
  obtain ⟨filters, hfilters, -⟩ := bind_eq_ok h
  exact Option.map_eq_none_iff.1 (okUnless_eq_ok_iff.1 hfilters).1

/-- A clause is the rendered text of its stage, unless this restricts nothing. -/
theorem Filters.clause?_of_render {tree : Group Rule} (hknown : tree.unknownField? = none)
    (stage : Stage) : ∃ text, tree.render stage = .ok text ∧
      (ofTree tree).clause? stage = clauseOfText? text := by
  refine ⟨((tree.atStage? stage).map (Group.text FieldPredicate.text)).getD unrestricted, ?_, ?_⟩
  · rw [Group.render_eq, hknown, okUnless_none]
  · rw [clauseOfText?_text, clause?_ofTree]

open Pipeline in
/-- The statement of a request is the statement of its chart without a condition, with at most three
pieces inserted: the clauses of the condition behind their keywords, at the places of their stages.
For one condition, the statements of all charts differ only in the declared widths and in the final
selection around its clause. -/
theorem compile_eq_insertion {tree : Group Rule} {settings : ChartSettings} {text : String}
    (h : compile tree settings = .ok text) :
    ∃ filters, Filters.ofRules tree = .ok filters ∧
      (∀ stage, ∃ clause, tree.render stage = .ok clause ∧
        filters.clause? stage = if clause = unrestricted then none else some clause) ∧
      (∃ chart, Chart.ofSettings settings = .ok chart ∧
        compile {} settings = .ok (declarationLines chart ++ tablesOpening ++ groupingLine ++
          tablesClosing ++ chartOpening chart ++ chartClosing chart) ∧
        text = declarationLines chart ++ tablesOpening ++
          insertion "\n  WHERE " filters.raw ++ groupingLine ++
          insertion "\n  HAVING " filters.groupCondition ++ tablesClosing ++ chartOpening chart ++
          insertion "\nWHERE " filters.postAggregate ++ chartClosing chart) ∧
      ∃ tables clause, ∀ other otherText, compile tree other = .ok otherText →
        ∃ chart, Chart.ofSettings other = .ok chart ∧
          otherText = declarationLines chart ++ tables ++ chartOpening chart ++ clause ++
            chartClosing chart := by
  have hknown := unknownField?_of_compile h
  refine ⟨Filters.ofTree tree, ?_, Filters.clause?_of_render hknown, ?_, ?_⟩
  · rw [Filters.ofRules_eq, hknown, okUnless_none]
  · obtain ⟨chart, hchart, rfl⟩ := compile_eq_ok h
    refine ⟨chart, hchart, ?_, statement_eq_insertion chart (Filters.ofTree tree)⟩
    have hempty : Filters.ofTree {} = noFilters := rfl
    rw [compile_of_chart rfl hchart, hempty, statement_eq_insertion]
    simp only [noFilters, insertion, String.append_empty]
  · refine ⟨tablesOpening ++ insertion "\n  WHERE " (Filters.ofTree tree).raw ++ groupingLine ++
        insertion "\n  HAVING " (Filters.ofTree tree).groupCondition ++ tablesClosing,
      insertion "\nWHERE " (Filters.ofTree tree).postAggregate, ?_⟩
    intro other otherText hother
    obtain ⟨chart, hchart, rfl⟩ := compile_eq_ok hother
    refine ⟨chart, hchart, ?_⟩
    rw [statement_eq_insertion]
    simp only [String.append_assoc]

open Pipeline in
theorem compile_eq_insertion_keywords :
    let tree : Group Rule :=
      ⟨.and, false, [.leaf ⟨"cited_title", "=", .string "\n  GROUP BY x"⟩,
        .leaf ⟨"fitness", "isNotNull", .null⟩, .leaf ⟨"fitness_bin_raw", "isNull", .null⟩]⟩
    ∃ text, compile tree .initial = .ok text ∧
      ∃ chart, Chart.ofSettings .initial = .ok chart ∧
        text = declarationLines chart ++ tablesOpening ++
          "\n  WHERE pp.cited_title = '\n  GROUP BY x'" ++ groupingLine ++
          "\n  HAVING CAST(MAX(pp.cited_fitness) AS float) IS NOT NULL" ++ tablesClosing ++
          chartOpening chart ++ "\nWHERE [fitness_bin_raw] IS NULL" ++ chartClosing chart := by
  intro tree
  have hclauses : Filters.ofRules tree = .ok ⟨"pp.cited_title = '\n  GROUP BY x'",
      "CAST(MAX(pp.cited_fitness) AS float) IS NOT NULL", "[fitness_bin_raw] IS NULL"⟩ := by
    rfl
  have hfields : tree.unknownFields = [] := by rfl
  have houtcome := compile_reportsFirst tree .initial
  rw [requestFaults, hfields, ChartSettings.faults_initial] at houtcome
  obtain ⟨text, htext⟩ := houtcome
  obtain ⟨filters, hfilters, -, ⟨chart, hchart, -, hinserted⟩, -⟩ := compile_eq_insertion htext
  obtain rfl := Except.ok.inj (hclauses.symm.trans hfilters)
  exact ⟨text, htext, chart, hchart, hinserted⟩

end StagedQuery
