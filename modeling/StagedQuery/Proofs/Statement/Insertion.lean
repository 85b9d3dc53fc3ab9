import StagedQuery.Statement.Text

/-!
# Insertions into Selections

Every clause of a selection is a line of its own.  A selection with at most one condition on rows
therefore has the text of the selection without conditions, with a line for the condition on rows
inserted before the line that groups, and a line for the condition on groups inserted after it.
-/

namespace StagedQuery

/-- What a clause adds to a text: the clause behind its keyword, or nothing. -/
def insertion (keyword : String) : Option String → String
  | some clause => keyword ++ clause
  | none => ""

namespace Select

/-- Clauses that follow other ones, each on a new line. -/
def lines (depth : Nat) : List String → String
  | [] => ""
  | clause :: rest => "\n" ++ margin depth ++ clause ++ lines depth rest

theorem lines_append (depth : Nat) (first second : List String) :
    lines depth (first ++ second) = lines depth first ++ lines depth second := by
  induction first with
  | nil => rw [List.nil_append, lines, String.empty_append]
  | cons clause rest ih =>
    rw [List.cons_append, lines, lines, ih]
    simp only [String.append_assoc]

theorem intercalate_lines (depth : Nat) (clause : String) (rest : List String) :
    "\n".intercalate ((clause :: rest).map (margin depth ++ ·)) =
      margin depth ++ clause ++ lines depth rest := by
  induction rest generalizing clause with
  | nil => simp [lines]
  | cons next rest ih =>
    rw [List.map_cons, List.map_cons, String.intercalate_cons_cons, ← List.map_cons, ih, lines]
    simp only [String.append_assoc]

/-- The text of a selection before its conditions. -/
def opening (select : Select) (depth : Nat) : String :=
  margin depth ++ "SELECT\n" ++ select.columnLines depth ++
    lines depth (("FROM " ++ select.source.text) :: select.joins.map Join.text)

theorem lines_whereClause {select : Select} {filter? : Option String}
    (h : select.filters = filter?.toList) (depth : Nat) :
    lines depth (select.whereClause depth).toList =
      insertion ("\n" ++ margin depth ++ "WHERE ") filter? := by
  cases filter? with
  | none => simp [whereClause, h, lines, insertion]
  | some filter => simp [whereClause, h, lines, insertion, String.append_assoc]

theorem lines_havingClause (select : Select) (depth : Nat) :
    lines depth select.havingClause.toList =
      insertion ("\n" ++ margin depth ++ "HAVING ") select.having? := by
  cases hhaving : select.having? with
  | none => simp [havingClause, hhaving, lines, insertion]
  | some condition => simp [havingClause, hhaving, lines, insertion, String.append_assoc]

/-- Whatever stands behind the joins, one clause on each line. -/
theorem text_eq_lines (select : Select) (depth : Nat) :
    select.text depth = select.opening depth ++ lines depth (select.whereClause depth).toList ++
      lines depth select.groupByClause.toList ++ lines depth select.havingClause.toList ++
      lines depth select.orderByClause.toList := by
  rw [text, clauses, opening]
  simp only [List.cons_append, List.nil_append]
  rw [intercalate_lines]
  simp only [lines, lines_append, String.append_assoc]

/-- The conditions of a selection stand on both sides of the line that groups. -/
theorem text_eq_insertion {select : Select} {filter? : Option String}
    (h : select.filters = filter?.toList) (depth : Nat) :
    select.text depth = select.opening depth ++
      insertion ("\n" ++ margin depth ++ "WHERE ") filter? ++
      lines depth select.groupByClause.toList ++
      insertion ("\n" ++ margin depth ++ "HAVING ") select.having? ++
      lines depth select.orderByClause.toList := by
  rw [text_eq_lines, lines_whereClause h, lines_havingClause]

end Select

end StagedQuery
