import StagedQuery.Proofs.Statement.Rows

/-!
# Rows and Their Pieces

The rows of a statement are put together from the pieces of its selections, with keywords, commas
and parentheses between them.  So a property of texts that pieces keep when these are put between
them holds of all rows if it holds of all pieces.
-/

namespace StagedQuery

/-! ## Pieces -/

/-- The texts that are put together for a selection, without its conditions. -/
def Select.pieces (select : Select) : List String :=
  (select.columns.flatMap fun column ↦ column.expression :: column.alias?.toList) ++
    ((select.source :: select.joins.map Join.source).flatMap fun source ↦
      source.table :: source.alias?.toList) ++
    select.joins.map Join.condition ++ select.groupBy ++ select.orderBy.map SortKey.column

variable {property : String → Prop}

/-- Every piece and every condition of the selection has the property. -/
structure Select.Consists (property : String → Prop) (select : Select) : Prop where
  pieces : ∀ piece ∈ select.pieces, property piece
  filters : ∀ filter ∈ select.filters, property filter
  having : ∀ condition ∈ select.having?, property condition

structure Statement.Consists (property : String → Prop) (statement : Statement) : Prop where
  declarations : ∀ declaration ∈ statement.declarations, property declaration.text
  tables : ∀ table ∈ statement.tables, property table.name ∧ table.select.Consists property
  body : statement.body.Consists property

/-- A property that texts keep when two of them are glued together holds of any number of them. -/
theorem intercalate_of_glue {separator : String} (hempty : property "")
    (hglue : ∀ first second, property first → property second →
      property (first ++ separator ++ second))
    {texts : List String} (htexts : ∀ text ∈ texts, property text) :
    property (separator.intercalate texts) := by
  induction texts with
  | nil =>
    rw [String.intercalate_nil]
    exact hempty
  | cons text rest ih =>
    obtain ⟨htext, hrest⟩ := List.forall_mem_cons.1 htexts
    cases rest with
    | nil => simpa using htext
    | cons next rest =>
      rw [String.intercalate_cons_cons]
      exact hglue text _ htext (ih hrest)

/-! ## What stands between pieces -/

/-- Rows and words that are in no piece. -/
def fixedRows : List String :=
  ["", "SELECT", "),", ")", "JOIN", "LEFT JOIN", "ASC", "DESC"]

/-- What stands before a piece or a row. -/
def rowLeads : List String :=
  ["  ", "FROM ", "WHERE ", "  AND ", "GROUP BY ", "HAVING ", "ORDER BY ", "WITH "]

/-- What stands between two pieces. -/
def rowSeparators : List String := [" ", " AS ", " ON ", ", "]

/-- What stands behind a piece or a row. -/
def rowClosings : List String := [",", " AS ("]

/-- A property that texts keep when rows are put together from them. -/
structure Assembles (property : String → Prop) : Prop where
  fixed {text : String} : text ∈ fixedRows → property text
  lead {lead text : String} : lead ∈ rowLeads → property text → property (lead ++ text)
  glue {first separator second : String} :
    separator ∈ rowSeparators → property first → property second →
      property (first ++ separator ++ second)
  close {text closing : String} : closing ∈ rowClosings → property text → property (text ++ closing)

namespace Assembles

variable (h : Assembles property)

include h

theorem withAlias {text connective : String} {name? : Option String}
    (hconnective : connective ∈ rowSeparators) (htext : property text)
    (hname : ∀ name ∈ name?, property name) : property (withAlias text connective name?) := by
  cases name? with
  | none => exact htext
  | some name => exact h.glue hconnective htext (hname name rfl)

theorem intercalate {separator : String} (hseparator : separator ∈ rowSeparators)
    {texts : List String} (htexts : ∀ text ∈ texts, property text) :
    property (separator.intercalate texts) := by
  have hempty : property "" := h.fixed (by decide)
  exact intercalate_of_glue hempty (fun _ _ ↦ h.glue hseparator) htexts

/-! ## Selections -/

theorem keyword {keyword : String} (hkeyword : keyword ∈ rowLeads) {texts : List String}
    (htexts : ∀ text ∈ texts, property text) : ∀ row ∈ texts.map (keyword ++ ·), property row := by
  intro row hrow
  obtain ⟨text, htext, rfl⟩ := List.mem_map.1 hrow
  exact h.lead hkeyword (htexts text htext)

theorem commaRows {rows : List String} (hrows : ∀ row ∈ rows, property row) :
    ∀ row ∈ Select.commaRows rows, property row := by
  induction rows with
  | nil =>
    intro row hrow
    rw [List.mem_singleton.1 hrow]
    exact h.fixed (by decide)
  | cons row rest ih =>
    obtain ⟨hrow, hrest⟩ := List.forall_mem_cons.1 hrows
    cases rest with
    | nil => exact hrows
    | cons next rest =>
      exact List.forall_mem_cons.2 ⟨h.close (by decide) hrow, ih hrest⟩

theorem itemTexts {items : List String} (hitems : ∀ item ∈ items, property item) :
    ∀ text ∈ Select.itemTexts items, property text := by
  intro text htext
  unfold Select.itemTexts at htext
  split at htext
  · cases htext
  · rw [List.mem_singleton.1 htext]
    exact h.intercalate (by decide) hitems

theorem select_rows {select : Select} (hselect : select.Consists property) :
    ∀ row ∈ select.rows, property row := by
  obtain ⟨hpieces, hfilters, hhaving⟩ := hselect
  simp only [Select.pieces, List.forall_mem_append, List.forall_mem_flatMap, List.forall_mem_cons,
    List.forall_mem_map, Option.mem_toList] at hpieces
  obtain ⟨⟨⟨⟨hcolumns, ⟨htable, halias⟩, hjoins⟩, hconditions⟩, hgroupBy⟩, horderBy⟩ := hpieces
  have hcolumnRows : ∀ row ∈ select.columns.map fun column ↦ "  " ++ column.text,
      property row := by
    intro row hrow
    obtain ⟨column, hcolumn, rfl⟩ := List.mem_map.1 hrow
    obtain ⟨hexpression, hname⟩ := hcolumns column hcolumn
    exact h.lead (by decide) (h.withAlias (by decide) hexpression hname)
  have hjoinRows : ∀ row ∈ select.joins.map Join.text, property row := by
    intro row hrow
    obtain ⟨join, hjoin, rfl⟩ := List.mem_map.1 hrow
    obtain ⟨hjoined, hname⟩ := hjoins join hjoin
    have hkind : property join.kind.keyword := h.fixed (by cases join.kind <;> decide)
    have hsource : property join.source.text := h.withAlias (by decide) hjoined hname
    exact h.glue (by decide) (h.glue (by decide) hkind hsource) (hconditions join hjoin)
  have hkeys : ∀ text ∈ select.orderBy.map SortKey.text, property text := by
    intro text htext
    obtain ⟨key, hkey, rfl⟩ := List.mem_map.1 htext
    have hdirection : property key.direction.keyword :=
      h.fixed (by cases key.direction <;> decide)
    exact h.glue (by decide) (horderBy key hkey) hdirection
  have hsource : property select.source.text := h.withAlias (by decide) htable halias
  simp only [Select.rows, List.forall_mem_append, List.forall_mem_cons]
  refine ⟨⟨⟨⟨⟨⟨⟨⟨h.fixed (by decide), h.commaRows hcolumnRows⟩, ?_⟩, hjoinRows⟩, ?_⟩, ?_⟩, ?_⟩,
    ?_⟩, ?_⟩
  · exact h.keyword (by decide) (by simpa using hsource)
  · exact h.keyword (by decide) fun filter hfilter ↦
      hfilters filter (List.mem_of_mem_take hfilter)
  · exact h.keyword (by decide) fun filter hfilter ↦
      hfilters filter (List.mem_of_mem_drop hfilter)
  · exact h.keyword (by decide) (h.itemTexts hgroupBy)
  · exact h.keyword (by decide) fun condition hcondition ↦
      hhaving condition (Option.mem_toList.1 hcondition)
  · exact h.keyword (by decide) (h.itemTexts hkeys)

/-! ## Statements -/

theorem block {table : NamedTable} (hname : property table.name)
    (hselect : table.select.Consists property) : ∀ row ∈ table.block, property row := by
  refine List.forall_mem_cons.2 ⟨h.close (by decide) hname, ?_⟩
  intro row hrow
  obtain ⟨inner, hinner, rfl⟩ := List.mem_map.1 hrow
  unfold Select.indent
  split
  · exact h.fixed (by decide)
  · exact h.lead (by decide) (h.select_rows hselect inner hinner)

theorem tableRows {tables : List NamedTable}
    (htables : ∀ table ∈ tables, property table.name ∧ table.select.Consists property) :
    ∀ row ∈ tableRows tables, property row := by
  have hclosing : ∀ row ∈ [")"], property row := by simpa using h.fixed (by decide)
  induction tables with
  | nil => exact hclosing
  | cons table rest ih =>
    obtain ⟨⟨hname, hselect⟩, hrest⟩ := List.forall_mem_cons.1 htables
    have hblock := h.block hname hselect
    cases rest with
    | nil =>
      have hrows : StagedQuery.tableRows [table] = table.block ++ [")"] := by
        simp [StagedQuery.tableRows]
      rw [hrows]
      exact List.forall_mem_append.2 ⟨hblock, hclosing⟩
    | cons next rest =>
      rw [tableRows_cons_cons]
      exact List.forall_mem_append.2
        ⟨hblock, List.forall_mem_cons.2 ⟨h.fixed (by decide), ih hrest⟩⟩

theorem withRows {tables : List NamedTable}
    (htables : ∀ table ∈ tables, property table.name ∧ table.select.Consists property) :
    ∀ row ∈ withRows tables, property row := by
  have hrows := h.tableRows htables
  unfold StagedQuery.withRows
  split
  · exact List.forall_mem_nil _
  · obtain ⟨header, later, hheader⟩ := List.exists_cons_of_ne_nil (tableRows_ne_nil tables)
    rw [hheader] at hrows ⊢
    obtain ⟨hfirst, hlater⟩ := List.forall_mem_cons.1 hrows
    exact List.forall_mem_cons.2 ⟨h.lead (by decide) hfirst, hlater⟩

theorem sectionRows {rows : List String} (hrows : ∀ row ∈ rows, property row) :
    ∀ row ∈ sectionRows rows, property row := by
  have hempty : ∀ row ∈ [""], property row := by simpa using h.fixed (by decide)
  unfold StagedQuery.sectionRows
  split
  · exact List.forall_mem_nil _
  · exact List.forall_mem_append.2 ⟨hrows, hempty⟩

theorem statement_rows {statement : Statement} (hstatement : statement.Consists property) :
    ∀ row ∈ statement.rows, property row := by
  have hdeclarations : ∀ row ∈ statement.declarations.map Declaration.text, property row := by
    intro row hrow
    obtain ⟨declaration, hmem, rfl⟩ := List.mem_map.1 hrow
    exact hstatement.declarations declaration hmem
  exact List.forall_mem_append.2 ⟨h.sectionRows hdeclarations, List.forall_mem_append.2
    ⟨h.sectionRows (h.withRows hstatement.tables), h.select_rows hstatement.body⟩⟩

end Assembles

end StagedQuery
