import StagedQuery.Binary64.Text
import StagedQuery.Statement.Basic

/-!
# Texts of Statements

Declarations, named tables and the final selection are separated by empty lines.  Every clause of
a selection starts a line, indented by two blanks inside a named table.
-/

namespace StagedQuery

/-- A text, and a name for it where there is one. -/
def withAlias (text connective : String) : Option String → String
  | some name => text ++ connective ++ name
  | none => text

def Declaration.text (declaration : Declaration) : String :=
  "DECLARE " ++ declaration.reference ++ " " ++ sqlType ++ " = " ++ declaration.value.plain ++ ";"

def OutputColumn.text (column : OutputColumn) : String :=
  withAlias column.expression " AS " column.alias?

def Source.text (source : Source) : String :=
  withAlias source.table " " source.alias?

def JoinKind.keyword : JoinKind → String
  | .inner => "JOIN"
  | .left => "LEFT JOIN"

def Join.text (join : Join) : String :=
  join.kind.keyword ++ " " ++ join.source.text ++ " ON " ++ join.condition

def SortKey.text (key : SortKey) : String :=
  key.column ++ " " ++ key.direction.keyword

/-! ## Selections -/

namespace Select

/-- The blanks before each line at the given depth. -/
def margin (depth : Nat) : String :=
  String.ofList (List.replicate (2 * depth) ' ')

/-- The output columns, one on each line. -/
def columnLines (select : Select) (depth : Nat) : String :=
  ",\n".intercalate (select.columns.map fun column ↦ margin depth ++ "  " ++ column.text)

def whereClause (select : Select) (depth : Nat) : Option String :=
  if select.filters = [] then none
  else some ("WHERE " ++ ("\n" ++ margin depth ++ "  AND ").intercalate select.filters)

def groupByClause (select : Select) : Option String :=
  if select.groupBy = [] then none else some ("GROUP BY " ++ ", ".intercalate select.groupBy)

def havingClause (select : Select) : Option String :=
  select.having?.map ("HAVING " ++ ·)

def orderByClause (select : Select) : Option String :=
  if select.orderBy = [] then none
  else some ("ORDER BY " ++ ", ".intercalate (select.orderBy.map SortKey.text))

/-- The clauses of a selection, without the margin before each of them. -/
def clauses (select : Select) (depth : Nat) : List String :=
  ["SELECT\n" ++ select.columnLines depth, "FROM " ++ select.source.text] ++
    select.joins.map Join.text ++ (select.whereClause depth).toList ++
    select.groupByClause.toList ++ select.havingClause.toList ++ select.orderByClause.toList

def text (select : Select) (depth : Nat) : String :=
  "\n".intercalate ((select.clauses depth).map (margin depth ++ ·))

end Select

/-! ## Statements -/

def NamedTable.text (table : NamedTable) : String :=
  table.name ++ " AS (\n" ++ table.select.text 1 ++ "\n)"

namespace Statement

def declarationSection (statement : Statement) : Option String :=
  if statement.declarations = [] then none
  else some ("\n".intercalate (statement.declarations.map Declaration.text))

def tableSection (statement : Statement) : Option String :=
  if statement.tables = [] then none
  else some ("WITH " ++ ",\n".intercalate (statement.tables.map NamedTable.text))

/-- The text of a statement; it ends in a semicolon. -/
def text (statement : Statement) : String :=
  "\n\n".intercalate
    (statement.declarationSection.toList ++ statement.tableSection.toList ++
      [statement.body.text 0 ++ ";"])

end Statement

end StagedQuery
