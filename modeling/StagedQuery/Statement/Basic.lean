import StagedQuery.Binary64.Basic
import StagedQuery.SortDirection

/-!
# Statements

A statement declares variables, defines named tables one after the other, and ends in a selection.
Expressions are kept as texts.
-/

namespace StagedQuery

/-- A variable with its constant value.  Every variable holds a double. -/
structure Declaration where
  name : String
  value : Binary64
deriving DecidableEq

/-- An expression of a selection, perhaps under a name of its own. -/
structure OutputColumn where
  expression : String
  alias? : Option String := none
deriving DecidableEq

/-- A table that is read from, perhaps under a name of its own. -/
structure Source where
  table : String
  alias? : Option String := none
deriving DecidableEq

inductive JoinKind where
  | inner
  | left
deriving DecidableEq

structure Join where
  kind : JoinKind
  source : Source
  condition : String
deriving DecidableEq

structure SortKey where
  column : String
  direction : SortDirection
deriving DecidableEq

structure Select where
  columns : List OutputColumn := []
  source : Source
  joins : List Join := []
  /-- Conditions on rows, all of which are required. -/
  filters : List String := []
  groupBy : List String := []
  /-- A condition on groups. -/
  having? : Option String := none
  orderBy : List SortKey := []
deriving DecidableEq

/-- A table that is defined by a selection. -/
structure NamedTable where
  name : String
  select : Select
deriving DecidableEq

structure Statement where
  declarations : List Declaration := []
  tables : List NamedTable := []
  body : Select
deriving DecidableEq

namespace Declaration

/-- The type of every variable. -/
def sqlType : String := "float"

/-- The name of a variable where it is used. -/
def reference (declaration : Declaration) : String :=
  "@" ++ declaration.name

end Declaration

end StagedQuery
