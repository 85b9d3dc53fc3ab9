import StagedQuery.Proofs.Sql.Column
import StagedQuery.Statement.Basic

/-!
# Scopes of Selections

A selection reads relations: tables outside of the statement, and tables that the statement has
defined before.  It is well scoped if every column that it names belongs to one of its relations, if
what it says about groups uses columns outside of aggregates only where they are grouped by, and if
its output columns have different names.  A statement is well scoped if its selections are, each one
over the tables before it.
-/

namespace StagedQuery

open Sql (ColumnUse)

/-- A relation, by the name under which it is read and the names of its columns. -/
structure Relation where
  name : String
  columns : List String
deriving DecidableEq

/-- The relations that can be read. -/
abbrev Scope := List Relation

namespace Scope

def find? (scope : Scope) (name : String) : Option Relation :=
  List.find? (fun relation ↦ relation.name = name) scope

/-- The column belongs to a relation in scope, and to the named one if a relation is named. -/
def Has (scope : Scope) (use : ColumnUse) : Prop :=
  ∃ relation ∈ scope, (∀ name ∈ use.relation?, relation.name = name) ∧ use.name ∈ relation.columns

instance (scope : Scope) (use : ColumnUse) : Decidable (scope.Has use) :=
  inferInstanceAs (Decidable (∃ relation ∈ scope, _))

/-- The text is an expression over single rows. -/
def ReadsRows (scope : Scope) (text : String) : Prop :=
  ∃ uses ∈ Sql.columns? text, ∀ use ∈ uses, scope.Has use ∧ use.aggregated = false

instance (scope : Scope) (text : String) : Decidable (scope.ReadsRows text) :=
  inferInstanceAs (Decidable (∃ uses ∈ Sql.columns? text, _))

end Scope

/-! ## Output columns -/

namespace OutputColumn

/-- The relation that the column stands for as a whole, as in `b.*`. -/
def star? (column : OutputColumn) : Option String :=
  match Sql.tokens? column.expression with
  | some [.word relation, .symbol '.', .symbol '*'] => some (String.ofList relation)
  | _ => none

/-- The name of a column that is only named. -/
def ownName? (column : OutputColumn) : Option String :=
  match Sql.tokens? column.expression with
  | some [.word name] | some [.word _, .symbol '.', .word name] => some (String.ofList name)
  | _ => none

/-- The columns that an output column uses. -/
def uses? (column : OutputColumn) (scope : Scope) : Option (List ColumnUse) :=
  match column.star? with
  | some name =>
    (scope.find? name).map fun relation ↦ relation.columns.map (⟨some name, ·, false⟩)
  | none => Sql.columns? column.expression

/-- The names of the columns that an output column adds to a table. -/
def names? (column : OutputColumn) (scope : Scope) : Option (List String) :=
  match column.alias?, column.star? with
  | some name, none => some [name]
  | none, none => column.ownName?.map ([·])
  | none, some name => (scope.find? name).map Relation.columns
  | some _, some _ => none

end OutputColumn

/-! ## Selections -/

namespace Select

/-- The relations of a selection under the names that it gives them, if all of them are known. -/
def scope? (select : Select) (known : Scope) : Option Scope :=
  (select.source :: select.joins.map Join.source).mapM fun source ↦
    (known.find? source.table).map fun relation ↦
      ⟨source.alias?.getD source.table, relation.columns⟩

/-- The columns that a selection groups by. -/
def groupUses (select : Select) : List ColumnUse :=
  select.groupBy.flatMap fun key ↦ (Sql.columns? key).getD []

/-- The names of the output columns. -/
def outputNames (select : Select) (scope : Scope) : List String :=
  select.columns.flatMap fun column ↦ (column.names? scope).getD []

/-- The columns are in scope, and grouped by where a group is left with none of its rows. -/
def Allows (select : Select) (scope : Scope) (uses : List ColumnUse) : Prop :=
  ∀ use ∈ uses, scope.Has use ∧
    (select.groupBy ≠ [] → use.aggregated = false → use ∈ select.groupUses)

instance (select : Select) (scope : Scope) (uses : List ColumnUse) :
    Decidable (select.Allows scope uses) :=
  inferInstanceAs (Decidable (∀ use ∈ uses, _))

/-- A selection over the relations that gives a table with the named columns.  A join may only use
the relations up to its own. -/
structure WellScoped (select : Select) (scope : Scope) (names : List String) : Prop where
  distinct : (scope.map Relation.name).Nodup
  columns : ∀ column ∈ select.columns, ∃ uses ∈ column.uses? scope, select.Allows scope uses
  joins : ∀ join ∈ select.joins.zipIdx,
    Scope.ReadsRows (scope.take (join.2 + 2)) join.1.condition
  filters : ∀ filter ∈ select.filters, scope.ReadsRows filter
  groupBy : ∀ key ∈ select.groupBy, scope.ReadsRows key
  having : ∀ condition ∈ select.having?,
    ∃ uses ∈ Sql.columns? condition, select.Allows scope uses
  orderBy : ∀ key ∈ select.orderBy, ∃ uses ∈ Sql.columns? key.column, select.Allows scope uses
  named : ∀ column ∈ select.columns, (column.names? scope).isSome
  names_eq : select.outputNames scope = names
  nodup : names.Nodup

instance (select : Select) (scope : Scope) (names : List String) :
    Decidable (select.WellScoped scope names) :=
  decidable_of_iff
    ((scope.map Relation.name).Nodup ∧
      (∀ column ∈ select.columns, ∃ uses ∈ column.uses? scope, select.Allows scope uses) ∧
      (∀ join ∈ select.joins.zipIdx,
        Scope.ReadsRows (scope.take (join.2 + 2)) join.1.condition) ∧
      (∀ filter ∈ select.filters, scope.ReadsRows filter) ∧
      (∀ key ∈ select.groupBy, scope.ReadsRows key) ∧
      (∀ condition ∈ select.having?,
        ∃ uses ∈ Sql.columns? condition, select.Allows scope uses) ∧
      (∀ key ∈ select.orderBy, ∃ uses ∈ Sql.columns? key.column, select.Allows scope uses) ∧
      (∀ column ∈ select.columns, (column.names? scope).isSome) ∧
      select.outputNames scope = names ∧ names.Nodup)
    ⟨fun ⟨distinct, columns, joins, filters, groupBy, having, orderBy, named, names_eq, nodup⟩ ↦
        ⟨distinct, columns, joins, filters, groupBy, having, orderBy, named, names_eq, nodup⟩,
      fun h ↦ ⟨h.distinct, h.columns, h.joins, h.filters, h.groupBy, h.having, h.orderBy,
        h.named, h.names_eq, h.nodup⟩⟩

end Select

/-! ## Statements -/

/-- Tables that can be defined one after the other, each one over those before it, and what can be
read after the last one. -/
inductive Defines : Scope → List NamedTable → Scope → Prop
  | nil (known : Scope) : Defines known [] known
  | cons {known scope last : Scope} {table : NamedTable} {names : List String}
      {rest : List NamedTable} (fresh : known.find? table.name = none)
      (source : table.select.scope? known = some scope)
      (select : table.select.WellScoped scope names)
      (later : Defines (⟨table.name, names⟩ :: known) rest last) :
      Defines known (table :: rest) last

/-- The tables can be defined over those outside of the statement, and the final selection reads
what is known then. -/
def Statement.WellScoped (statement : Statement) (outside known : Scope) : Prop :=
  Defines outside statement.tables known ∧
    ∃ scope names, statement.body.scope? known = some scope ∧
      statement.body.WellScoped scope names

/-! ## Further columns -/

/-- The same relations, which may have further columns. -/
def Scope.Widens : Scope → Scope → Prop :=
  List.Forall₂ fun relation wide ↦
    relation.name = wide.name ∧ relation.columns ⊆ wide.columns

namespace Scope.Widens

variable {scope wider : Scope}

theorem has {use : ColumnUse} (h : scope.Widens wider) (huse : scope.Has use) :
    wider.Has use := by
  induction h with
  | nil => exact absurd huse (by simp [Has])
  | @cons relation wide scope wider hhead htail ih =>
    obtain ⟨hname, hcolumns⟩ := hhead
    simp only [Has, List.exists_mem_cons_iff] at huse ⊢
    rcases huse with ⟨hrelation, hcolumn⟩ | hrest
    · exact .inl ⟨hname ▸ hrelation, hcolumns hcolumn⟩
    · exact .inr (ih hrest)

theorem readsRows {text : String} (h : scope.Widens wider) (htext : scope.ReadsRows text) :
    wider.ReadsRows text := by
  obtain ⟨uses, huses, hrows⟩ := htext
  exact ⟨uses, huses, fun use huse ↦ ⟨h.has (hrows use huse).1, (hrows use huse).2⟩⟩

theorem allows {select : Select} {uses : List ColumnUse} (h : scope.Widens wider)
    (huses : select.Allows scope uses) : select.Allows wider uses :=
  fun use huse ↦ ⟨h.has (huses use huse).1, (huses use huse).2⟩

theorem names (h : scope.Widens wider) :
    scope.map Relation.name = wider.map Relation.name := by
  induction h with
  | nil => rfl
  | cons hhead htail ih => rw [List.map_cons, List.map_cons, hhead.1, ih]

theorem take (h : scope.Widens wider) (count : Nat) :
    Scope.Widens (scope.take count) (wider.take count) :=
  List.forall₂_take count h

theorem names?_eq {columns : List OutputColumn} (hplain : ∀ column ∈ columns, column.star? = none) :
    ∀ column ∈ columns, column.names? scope = column.names? wider := by
  intro column hcolumn
  simp only [OutputColumn.names?, hplain column hcolumn]
  cases column.alias? <;> rfl

/-- Further columns in the relations make no difference to a selection that does not ask for all
columns of one. -/
theorem wellScoped {select : Select} {names : List String} (h : scope.Widens wider)
    (hplain : ∀ column ∈ select.columns, column.star? = none)
    (hselect : select.WellScoped scope names) : select.WellScoped wider names where
  distinct := h.names ▸ hselect.distinct
  columns column hcolumn := by
    obtain ⟨uses, huses, hallows⟩ := hselect.columns column hcolumn
    rw [OutputColumn.uses?, hplain column hcolumn] at huses ⊢
    exact ⟨uses, huses, h.allows hallows⟩
  joins join hjoin := (h.take _).readsRows (hselect.joins join hjoin)
  filters filter hfilter := h.readsRows (hselect.filters filter hfilter)
  groupBy key hkey := h.readsRows (hselect.groupBy key hkey)
  having condition hcondition := by
    obtain ⟨uses, huses, hallows⟩ := hselect.having condition hcondition
    exact ⟨uses, huses, h.allows hallows⟩
  orderBy key hkey := by
    obtain ⟨uses, huses, hallows⟩ := hselect.orderBy key hkey
    exact ⟨uses, huses, h.allows hallows⟩
  named column hcolumn := names?_eq hplain column hcolumn ▸ hselect.named column hcolumn
  names_eq := by
    rw [← hselect.names_eq]
    exact List.flatMap_congr fun column hcolumn ↦
      congrArg (Option.getD · []) (names?_eq hplain column hcolumn).symm
  nodup := hselect.nodup

end Scope.Widens

end StagedQuery
