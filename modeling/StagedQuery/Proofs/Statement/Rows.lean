import StagedQuery.Proofs.Statement.Insertion

/-!
# Rows of Statements

The text of a statement is a list of rows with line breaks between them and a semicolon at the end.
Every declaration, output column, join and condition is a row of its own.  The rows of a selection
are the same at every depth but for the margin, which only an empty row does not have.
-/

namespace StagedQuery

/-! ## Rows on new lines -/

/-- Rows that follow other ones, each on a new line. -/
def broken : List String → String
  | [] => ""
  | row :: rest => "\n" ++ row ++ broken rest

theorem broken_cons (row : String) (rest : List String) :
    broken (row :: rest) = "\n" ++ row ++ broken rest := rfl

theorem broken_append (first second : List String) :
    broken (first ++ second) = broken first ++ broken second := by
  induction first with
  | nil => rw [List.nil_append, broken, String.empty_append]
  | cons row rest ih => simp only [List.cons_append, broken, ih, String.append_assoc]

theorem intercalate_eq_append_broken (row : String) (rest : List String) :
    "\n".intercalate (row :: rest) = row ++ broken rest := by
  induction rest generalizing row with
  | nil => simp [broken]
  | cons next rest ih => simp only [String.intercalate_cons_cons, ih, broken, String.append_assoc]

/-! ## Selections -/

namespace Select

/-- The rows of output columns; without any there is an empty row. -/
def commaRows : List String → List String
  | [] => [""]
  | [row] => [row]
  | row :: rest => (row ++ ",") :: commaRows rest

theorem commaRows_cons_cons (row next : String) (rest : List String) :
    commaRows (row :: next :: rest) = (row ++ ",") :: commaRows (next :: rest) := rfl

/-- The text of a list behind a keyword, unless the list is empty. -/
def itemTexts (items : List String) : List String :=
  if items = [] then [] else [", ".intercalate items]

/-- The rows of a selection, the rows of each clause behind its keyword. -/
def rows (select : Select) : List String :=
  "SELECT" :: commaRows (select.columns.map fun column ↦ "  " ++ column.text) ++
    [select.source.text].map ("FROM " ++ ·) ++ select.joins.map Join.text ++
    (select.filters.take 1).map ("WHERE " ++ ·) ++ (select.filters.drop 1).map ("  AND " ++ ·) ++
    (itemTexts select.groupBy).map ("GROUP BY " ++ ·) ++
    select.having?.toList.map ("HAVING " ++ ·) ++
    (itemTexts (select.orderBy.map SortKey.text)).map ("ORDER BY " ++ ·)

theorem rows_ne_nil (select : Select) : select.rows ≠ [] := List.cons_ne_nil _ _

/-- A row at the given depth. -/
def indent (depth : Nat) (row : String) : String :=
  if row = "" then "" else margin depth ++ row

theorem append_ne_empty {first : String} (h : first ≠ "") (second : String) :
    first ++ second ≠ "" := fun hempty ↦ h (String.append_eq_empty_iff.1 hempty).1

theorem indent_append (depth : Nat) {first : String} (h : first ≠ "") (second : String) :
    indent depth (first ++ second) = margin depth ++ (first ++ second) :=
  if_neg (append_ne_empty h second)

theorem indent_zero (row : String) : indent 0 row = row := by
  unfold indent
  split
  · next hempty => exact hempty.symm
  · exact String.empty_append

/-- Clauses are rows, unless they are empty. -/
theorem lines_eq_broken (depth : Nat) {clauses : List String}
    (h : ∀ clause ∈ clauses, clause ≠ "") :
    lines depth clauses = broken (clauses.map (indent depth)) := by
  induction clauses with
  | nil => rfl
  | cons clause rest ih =>
    obtain ⟨hclause, hrest⟩ := List.forall_mem_cons.1 h
    rw [lines, ih hrest, List.map_cons, broken, indent, if_neg hclause]
    simp only [String.append_assoc]

theorem lines_keyword (depth : Nat) {keyword : String} (h : keyword ≠ "") (texts : List String) :
    lines depth (texts.map (keyword ++ ·)) =
      broken ((texts.map (keyword ++ ·)).map (indent depth)) := by
  refine lines_eq_broken depth fun clause hclause ↦ ?_
  obtain ⟨text, -, rfl⟩ := List.mem_map.1 hclause
  exact append_ne_empty h text

theorem lines_joins (depth : Nat) (joins : List Join) :
    lines depth (joins.map Join.text) = broken ((joins.map Join.text).map (indent depth)) := by
  refine lines_eq_broken depth fun clause hclause ↦ ?_
  obtain ⟨join, -, rfl⟩ := List.mem_map.1 hclause
  have hkeyword : join.kind.keyword ≠ "" := by cases join.kind <;> decide
  exact append_ne_empty (append_ne_empty (append_ne_empty (append_ne_empty hkeyword _) _) _) _

theorem lines_columns (depth : Nat) (rows : List String) (h : ∀ row ∈ rows, row ≠ "") :
    "\n" ++ ",\n".intercalate (rows.map (margin depth ++ ·)) =
      broken ((commaRows rows).map (indent depth)) := by
  induction rows with
  | nil => rfl
  | cons row rest ih =>
    obtain ⟨hrow, hrest⟩ := List.forall_mem_cons.1 h
    have hindent (tail : String) : indent depth (row ++ tail) = margin depth ++ (row ++ tail) :=
      indent_append depth hrow tail
    cases rest with
    | nil =>
      have hlast := hindent ""
      rw [String.append_empty] at hlast
      simp [commaRows, broken, hlast]
    | cons next rest =>
      have hcomma : ",\n" = "," ++ "\n" := rfl
      have hnext := ih hrest
      rw [List.map_cons] at hnext
      rw [List.map_cons, List.map_cons, String.intercalate_cons_cons, commaRows_cons_cons,
        List.map_cons, broken_cons, ← hnext, hindent, hcomma]
      simp only [String.append_assoc]

theorem lines_filters (depth : Nat) (select : Select) :
    lines depth (select.whereClause depth).toList =
      broken (((select.filters.take 1).map ("WHERE " ++ ·)).map (indent depth)) ++
        broken (((select.filters.drop 1).map ("  AND " ++ ·)).map (indent depth)) := by
  have hlater (filter : String) (rest : List String) :
      ("\n" ++ margin depth ++ "  AND ").intercalate (filter :: rest) =
        filter ++ broken ((rest.map ("  AND " ++ ·)).map (indent depth)) := by
    induction rest generalizing filter with
    | nil => simp [broken]
    | cons next rest ih =>
      rw [String.intercalate_cons_cons, ih, List.map_cons, List.map_cons, broken,
        indent_append depth (by decide)]
      simp only [String.append_assoc]
  cases hfilters : select.filters with
  | nil => simp [whereClause, hfilters, lines, broken]
  | cons filter rest =>
    have hfirst : broken ([filter].map ("WHERE " ++ ·) |>.map (indent depth)) =
        "\n" ++ (margin depth ++ ("WHERE " ++ filter)) := by
      rw [List.map_singleton, List.map_singleton, broken_cons, indent_append depth (by decide),
        broken, String.append_empty]
    rw [whereClause, hfilters, if_neg (List.cons_ne_nil _ _), hlater, List.take_succ_cons,
      List.take_zero, List.drop_succ_cons, List.drop_zero, hfirst]
    simp only [Option.toList_some, lines, String.append_assoc, String.append_empty]

theorem groupByClause_toList (select : Select) :
    select.groupByClause.toList = (itemTexts select.groupBy).map ("GROUP BY " ++ ·) := by
  unfold groupByClause itemTexts
  split <;> rfl

theorem havingClause_toList (select : Select) :
    select.havingClause.toList = select.having?.toList.map ("HAVING " ++ ·) := by
  cases hcondition : select.having? <;> simp [havingClause, hcondition]

theorem orderByClause_toList (select : Select) : select.orderByClause.toList =
    (itemTexts (select.orderBy.map SortKey.text)).map ("ORDER BY " ++ ·) := by
  unfold orderByClause itemTexts
  by_cases hempty : select.orderBy = [] <;> simp [hempty]

/-- A selection is written row by row, whatever its depth. -/
theorem text_eq_intercalate (select : Select) (depth : Nat) :
    select.text depth = "\n".intercalate (select.rows.map (indent depth)) := by
  have hcolumns : "\n" ++ select.columnLines depth =
      broken ((commaRows (select.columns.map fun column ↦ "  " ++ column.text)).map
        (indent depth)) := by
    rw [← lines_columns depth _ (by simp), List.map_map, columnLines]
    simp only [Function.comp_def, String.append_assoc]
  have hselect : indent depth "SELECT" = margin depth ++ "SELECT" := if_neg (by decide)
  have hline : "SELECT\n" = "SELECT" ++ "\n" := rfl
  have hsource : ("FROM " ++ select.source.text) :: select.joins.map Join.text =
      [select.source.text].map ("FROM " ++ ·) ++ select.joins.map Join.text := rfl
  calc
    select.text depth = margin depth ++ "SELECT" ++ ("\n" ++ select.columnLines depth) ++
        lines depth ([select.source.text].map ("FROM " ++ ·) ++ select.joins.map Join.text) ++
        lines depth (select.whereClause depth).toList ++ lines depth select.groupByClause.toList ++
        lines depth select.havingClause.toList ++ lines depth select.orderByClause.toList := by
      rw [text_eq_lines, opening, hline, hsource]
      simp only [String.append_assoc]
    _ = "\n".intercalate (select.rows.map (indent depth)) := by
      rw [hcolumns, lines_append, lines_keyword depth (by decide), lines_joins, lines_filters,
        groupByClause_toList, lines_keyword depth (by decide), havingClause_toList,
        lines_keyword depth (by decide), orderByClause_toList, lines_keyword depth (by decide),
        rows]
      simp only [List.map_append, List.map_cons, List.cons_append, intercalate_eq_append_broken,
        hselect, broken_append, String.append_assoc]

end Select

/-! ## Statements -/

/-- The rows of a named table before the parenthesis that closes it. -/
def NamedTable.block (table : NamedTable) : List String :=
  (table.name ++ " AS (") :: table.select.rows.map (Select.indent 1)

/-- The rows of named tables, but for the keyword before them. -/
def tableRows (tables : List NamedTable) : List String :=
  ["),"].intercalate (tables.map NamedTable.block) ++ [")"]

def withRows (tables : List NamedTable) : List String :=
  if tables = [] then [] else (tableRows tables).modifyHead ("WITH " ++ ·)

/-- The rows of a section with an empty row behind them, unless there are none. -/
def sectionRows (rows : List String) : List String := if rows = [] then [] else rows ++ [""]

def Statement.rows (statement : Statement) : List String :=
  sectionRows (statement.declarations.map Declaration.text) ++
    (sectionRows (withRows statement.tables) ++ statement.body.rows)

theorem NamedTable.text_eq (table : NamedTable) :
    table.text = "\n".intercalate (table.block ++ [")"]) := by
  have hopening : " AS (\n" = " AS (" ++ "\n" := rfl
  have hclosing : "\n)" = "\n" ++ ")" := rfl
  rw [block, List.cons_append, intercalate_eq_append_broken, broken_append, text,
    Select.text_eq_intercalate, hopening, hclosing]
  obtain ⟨first, rest, hrows⟩ := List.exists_cons_of_ne_nil table.select.rows_ne_nil
  rw [hrows, List.map_cons, intercalate_eq_append_broken, broken_cons]
  simp only [broken, String.append_assoc, String.append_empty]

theorem tableRows_cons_cons (table next : NamedTable) (rest : List NamedTable) :
    tableRows (table :: next :: rest) = table.block ++ ")," :: tableRows (next :: rest) := by
  simp [tableRows, List.intercalate_cons_cons]

theorem tableRows_ne_nil (tables : List NamedTable) : tableRows tables ≠ [] :=
  List.concat_ne_nil _ _

theorem intercalate_tableRows {tables : List NamedTable} (h : tables ≠ []) :
    ",\n".intercalate (tables.map NamedTable.text) = "\n".intercalate (tableRows tables) := by
  induction tables with
  | nil => exact absurd rfl h
  | cons table rest ih =>
    cases rest with
    | nil => simp [tableRows, table.text_eq]
    | cons next rest =>
      have hrest := ih (List.cons_ne_nil _ _)
      have hnonempty : table.block ≠ [] := List.cons_ne_nil _ _
      have hcomma : ",\n" = "," ++ "\n" := rfl
      have hlast : ")," = ")" ++ "," := rfl
      rw [List.map_cons] at hrest ⊢
      rw [List.map_cons, String.intercalate_cons_cons, hrest, table.text_eq, tableRows_cons_cons,
        String.intercalate_append_of_ne_nil hnonempty (List.cons_ne_nil _ _),
        String.intercalate_append_of_ne_nil hnonempty (List.cons_ne_nil _ _),
        String.intercalate_cons_of_ne_nil (tableRows_ne_nil _), String.intercalate_singleton,
        hcomma, hlast]
      simp only [String.append_assoc]

theorem intercalate_modifyHead (first : String) {rows : List String} (h : rows ≠ []) :
    "\n".intercalate (rows.modifyHead (first ++ ·)) = first ++ "\n".intercalate rows := by
  obtain ⟨row, rest, rfl⟩ := List.exists_cons_of_ne_nil h
  rw [List.modifyHead_cons, intercalate_eq_append_broken, intercalate_eq_append_broken,
    String.append_assoc]

/-- A section that is not empty is written before the others with an empty row between them. -/
theorem intercalate_section {rows later : List String} {sections : List String} {last : String}
    (hsections : sections ≠ []) (hlater : later ≠ [])
    (h : "\n\n".intercalate sections = "\n".intercalate later ++ last) :
    "\n\n".intercalate ((if rows = [] then none else some ("\n".intercalate rows)).toList ++
      sections) = "\n".intercalate (sectionRows rows ++ later) ++ last := by
  unfold sectionRows
  split
  · exact h
  · next hrows =>
    have hbreak : "\n\n" = "\n" ++ "\n" := rfl
    rw [Option.toList_some, String.intercalate_append_of_ne_nil (List.cons_ne_nil _ _) hsections, h,
      List.append_assoc, List.singleton_append,
      String.intercalate_append_of_ne_nil hrows (List.cons_ne_nil _ _),
      String.intercalate_cons_of_ne_nil hlater, String.intercalate_singleton, hbreak]
    simp only [String.append_assoc, String.empty_append]

namespace Statement

/-- A statement is written row by row, with a semicolon behind the last row. -/
theorem text_eq_intercalate (statement : Statement) :
    statement.text = "\n".intercalate statement.rows ++ ";" := by
  have hbody : "\n\n".intercalate [statement.body.text 0 ++ ";"] =
      "\n".intercalate statement.body.rows ++ ";" := by
    have hindent : Select.indent 0 = id := funext Select.indent_zero
    rw [String.intercalate_singleton, Select.text_eq_intercalate, hindent, List.map_id]
  have htables : statement.tableSection =
      if withRows statement.tables = [] then none
      else some ("\n".intercalate (withRows statement.tables)) := by
    by_cases hempty : statement.tables = []
    · simp [tableSection, withRows, hempty]
    · have hrows : withRows statement.tables ≠ [] := by
        rw [withRows, if_neg hempty]
        simpa using tableRows_ne_nil statement.tables
      rw [if_neg hrows, tableSection, withRows, if_neg hempty, if_neg hempty,
        intercalate_modifyHead _ (tableRows_ne_nil _), intercalate_tableRows hempty]
  have hdeclarations : statement.declarationSection =
      if statement.declarations.map Declaration.text = [] then none
      else some ("\n".intercalate (statement.declarations.map Declaration.text)) := by
    simp only [declarationSection, List.map_eq_nil_iff]
  have hnonempty (rows : List String) : rows ++ statement.body.rows ≠ [] :=
    List.append_ne_nil_of_right_ne_nil _ statement.body.rows_ne_nil
  rw [text, rows, hdeclarations, htables, List.append_assoc]
  exact intercalate_section (List.append_ne_nil_of_right_ne_nil _ (List.cons_ne_nil _ _))
    (hnonempty _) (intercalate_section (List.cons_ne_nil _ _) statement.body.rows_ne_nil hbody)

end Statement

end StagedQuery
