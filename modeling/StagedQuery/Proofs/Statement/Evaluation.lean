import StagedQuery.Proofs.Sql.Formula
import StagedQuery.Proofs.Sql.Window
import StagedQuery.Proofs.Statement.Scope

/-!
# Rows of Selections

Two kinds of selections over the rows of one table.  A selection of all columns and of windows keeps
every row and adds the percentile rank of each window to it.  A grouped selection shows the values
of arithmetic expressions over the rows that agree in the columns of the grouping.
-/

namespace StagedQuery

open Sql (Row Window)

/-- The selection that defines a table. -/
def Statement.select? (statement : Statement) (name : String) : Option Select :=
  (statement.tables.find? fun table ↦ table.name = name).map NamedTable.select

/-- The name of a column and the window whose percentile rank it holds. -/
def OutputColumn.window? (column : OutputColumn) : Option (String × Window) := do
  return (← column.alias?, ← Window.ofText? column.expression)

/-- A row with the percentile ranks of windows, each under its name. -/
def extended (windows : List (String × Window)) (rows : List Row) (row : Row) : Row := fun name ↦
  match windows.lookup name with
  | some window => .number (window.percentRank rows row)
  | none => row name

namespace Select

/-- The selection takes every row of one table into account. -/
def ReadsAll (select : Select) : Prop :=
  select.joins = [] ∧ select.filters = [] ∧ select.having? = none

instance (select : Select) : Decidable select.ReadsAll :=
  inferInstanceAs (Decidable (_ ∧ _))

/-- The rows of a selection of all columns and of windows. -/
def windowed? (select : Select) (rows : List Row) : Option (List Row) :=
  if select.ReadsAll ∧ select.groupBy = [] then
    match select.columns with
    | [] => none
    | first :: rest =>
      if first.star? = some (select.source.alias?.getD select.source.table) then
        (rest.mapM OutputColumn.window?).map fun windows ↦ rows.map (extended windows rows)
      else none
  else none

/-- The number that a grouped selection shows in a column for the group of a row. -/
def shown? (select : Select) (rows : List Row) (row : Row) (name : String) : Option ℚ :=
  if select.ReadsAll then do
    let column ← select.columns.find? fun column ↦ column.alias? = some name
    let formula ← Sql.formula? column.expression
    let group := Sql.agreeing (select.groupUses.map Sql.ColumnUse.name) rows row
    formula.inGroup? (group.map fun row name ↦ (row name).number?)
  else none

end Select

end StagedQuery
