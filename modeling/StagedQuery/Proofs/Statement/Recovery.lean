import StagedQuery.Proofs.Statement.Clauses
import StagedQuery.Proofs.Statement.Pieces

/-!
# Statements Read Back

A legible statement can be read back from its text.  Its rows are the lines of the text without the
semicolon.  Declarations begin with their keyword, and named tables stand between the row with
theirs and the first row that is only a parenthesis; an empty row stands behind both.  So no two
legible statements have the same text.
-/

namespace StagedQuery

/-! ## Named tables -/

namespace NamedTable

/-- A row of a named table at the margin. -/
def unindent (row : String) : String := (after? "  " row).getD row

/-- Reads a named table from its rows before the parenthesis that closes it. -/
def ofRows? (inName : Char → Bool) : List String → Option NamedTable
  | [] => none
  | header :: rows => do
    return ⟨(firstWord header).1, ← Select.ofRows? inName (rows.map unindent)⟩

theorem unindent_indent (row : String) : unindent (Select.indent 1 row) = row := by
  have hmargin : Select.margin 1 = "  " := rfl
  unfold Select.indent
  split
  · next hempty =>
    rw [hempty]
    rfl
  · rw [hmargin, unindent, after?_append, Option.getD_some]

theorem ofRows?_block {inName : Char → Bool} (hblank : inName ' ' = false) {table : NamedTable}
    (hname : IsWord table.name) (h : table.select.IsLegible inName) :
    ofRows? inName table.block = some table := by
  have hheader := firstWord_append hname.blank (by decide : " AS ".toList.head? = some ' ') "("
  have hopening : " AS " ++ "(" = " AS (" := rfl
  rw [hopening] at hheader
  have hrows : (table.select.rows.map (Select.indent 1)).map unindent = table.select.rows :=
    map_map_eq_self fun row _ ↦ unindent_indent row
  rw [block, ofRows?, hheader, hrows, Select.ofRows?_rows hblank h]
  rfl

/-- No row of a named table closes it. -/
theorem ne_of_mem_block {table : NamedTable} {row : String} (h : row ∈ table.block) :
    row ≠ ")" ∧ row ≠ ")," := by
  rcases List.mem_cons.1 h with rfl | hrow
  · have hlast : (table.name ++ " AS (").toList.getLast? = some '(' := by simp
    constructor <;> intro heq <;> rw [heq] at hlast <;> exact absurd hlast (by decide)
  · obtain ⟨inner, -, rfl⟩ := List.mem_map.1 hrow
    have hmargin : Select.margin 1 = "  " := rfl
    unfold Select.indent
    split
    · decide
    · have hhead : (Select.margin 1 ++ inner).toList.head? = some ' ' := by
        rw [hmargin]
        simp
      constructor <;> intro heq <;> rw [heq] at hhead <;> exact absurd hhead (by decide)

end NamedTable

/-- Reads the named tables, if there are any, and the empty row behind them. -/
def takeTables? (inName : Char → Bool) (rows : List String) :
    Option (List NamedTable × List String) :=
  match rows.head?.bind (after? "WITH ") with
  | none => some ([], rows)
  | some header => do
    let rows := header :: rows.tail
    let blocks := (rows.takeWhile (· ≠ ")")).splitOn "),"
    return (← blocks.mapM (NamedTable.ofRows? inName), (rows.dropWhile (· ≠ ")")).drop 2)

theorem mem_intercalate {α : Type} {separator : List α} {lists : List (List α)} {item : α}
    (h : item ∈ separator.intercalate lists) : item ∈ separator ∨ ∃ list ∈ lists, item ∈ list := by
  induction lists with
  | nil => cases h
  | cons list rest ih =>
    cases rest with
    | nil => exact .inr ⟨list, List.mem_cons_self, by simpa using h⟩
    | cons next rest =>
      rw [List.intercalate_cons_cons, List.mem_append, List.mem_append] at h
      rcases h with (hitem | hitem) | hitem
      · exact .inr ⟨list, List.mem_cons_self, hitem⟩
      · exact .inl hitem
      · exact (ih hitem).imp_right fun ⟨other, hother, hmem⟩ ↦
          ⟨other, List.mem_cons_of_mem _ hother, hmem⟩

theorem closing_notMem_blocks (tables : List NamedTable) :
    ∀ row ∈ ["),"].intercalate (tables.map NamedTable.block), row ≠ ")" := by
  intro row hrow
  rcases mem_intercalate hrow with hseparator | ⟨block, hblock, hmem⟩
  · rw [List.mem_singleton.1 hseparator]
    decide
  · obtain ⟨table, -, rfl⟩ := List.mem_map.1 hblock
    exact (NamedTable.ne_of_mem_block hmem).1

theorem splitOn_blocks {tables : List NamedTable} (h : tables ≠ []) :
    (["),"].intercalate (tables.map NamedTable.block)).splitOn ")," =
      tables.map NamedTable.block := by
  refine List.splitOn_intercalate _ (fun block hblock hmem ↦ ?_) (by simpa using h)
  obtain ⟨table, -, rfl⟩ := List.mem_map.1 hblock
  exact (NamedTable.ne_of_mem_block hmem).2 rfl

theorem takeTables?_withRows {inName : Char → Bool} (hblank : inName ' ' = false)
    {tables : List NamedTable}
    (h : ∀ table ∈ tables, IsWord table.name ∧ table.select.IsLegible inName)
    {rest : List String} (hrest : rest.head?.bind (after? "WITH ") = none) :
    takeTables? inName (sectionRows (withRows tables) ++ rest) = some (tables, rest) := by
  by_cases hempty : tables = []
  · subst hempty
    change takeTables? inName rest = _
    rw [takeTables?, hrest]
  · have hclosing : ∀ row ∈ ["),"].intercalate (tables.map NamedTable.block),
        decide (row ≠ ")") :=
      fun row hrow ↦ decide_eq_true (closing_notMem_blocks tables row hrow)
    have hread := mapM_map_eq_some fun table htable ↦
      NamedTable.ofRows?_block hblank (h table htable).1 (h table htable).2
    obtain ⟨header, later, hrows⟩ := List.exists_cons_of_ne_nil (tableRows_ne_nil tables)
    have hwith : sectionRows (withRows tables) ++ rest =
        ("WITH " ++ header) :: (later ++ "" :: rest) := by
      rw [withRows, if_neg hempty, hrows, List.modifyHead_cons, sectionRows,
        if_neg (List.cons_ne_nil _ _)]
      simp
    have hwhole : header :: (later ++ "" :: rest) =
        ["),"].intercalate (tables.map NamedTable.block) ++ ")" :: "" :: rest := by
      rw [← List.cons_append, ← hrows, tableRows]
      simp
    obtain ⟨htake, hdrop⟩ := takeWhile_dropWhile_append hclosing
      (by simp : ∀ row ∈ (")" :: "" :: rest).head?, decide (row ≠ ")") = false)
    rw [takeTables?, hwith, List.head?_cons, Option.bind_some, after?_append]
    simp only [List.tail_cons, hwhole, htake, hdrop, splitOn_blocks hempty, hread,
      Option.bind_eq_bind, Option.bind_some]
    rfl

/-! ## Statements -/

namespace Statement

/-- Reads a statement from its rows. -/
def ofRows? (inName : Char → Bool) (rows : List String) : Option Statement := do
  let (declarations, rows) := takeRows Declaration.ofRow? rows
  let rows := if rows.head? = some "" then rows.tail else rows
  let (tables, rows) ← takeTables? inName rows
  return ⟨declarations, tables, ← Select.ofRows? inName rows⟩

/-- Reads a statement from its text, which ends in a semicolon. -/
def ofText? (inName : Char → Bool) (text : String) : Option Statement :=
  ofRows? inName ((text.toList.dropLast.splitOn '\n').map String.ofList)

/-- The rows behind the declarations begin with no declaration and no empty row. -/
theorem head?_withRows_append (tables : List NamedTable) (select : Select) :
    ∃ row, (sectionRows (withRows tables) ++ select.rows).head? = some row ∧ row ≠ "" ∧
      Declaration.ofRow? row = none := by
  have hread {row : String} (h : row.toList.head? = some 'W' ∨ row.toList.head? = some 'S') :
      row ≠ "" ∧ Declaration.ofRow? row = none := by
    have hdeclare : after? "DECLARE @" row = none := by
      refine after?_eq_none (by decide : _ = some 'D') ?_
      rcases h with h | h <;> rw [h] <;> decide
    constructor
    · rintro rfl
      rcases h with h | h <;> cases h
    · rw [Declaration.ofRow?, hdeclare]
      rfl
  by_cases hempty : tables = []
  · subst hempty
    exact ⟨"SELECT", rfl, hread (.inr (by decide))⟩
  · obtain ⟨header, later, hrows⟩ := List.exists_cons_of_ne_nil (tableRows_ne_nil tables)
    refine ⟨"WITH " ++ header, ?_, hread (.inl (by simp))⟩
    rw [withRows, if_neg hempty, hrows, List.modifyHead_cons, sectionRows,
      if_neg (List.cons_ne_nil _ _)]
    rfl

/-- The declarations are taken up to the empty row that ends them, if there are any. -/
theorem takeRows_declarations {declarations : List Declaration}
    (h : ∀ declaration ∈ declarations, IsWord declaration.name) {row : String}
    {later : List String} (hhead : later.head? = some row) (hnonempty : row ≠ "")
    (hrefused : Declaration.ofRow? row = none) :
    ∃ rest, takeRows Declaration.ofRow? (sectionRows (declarations.map Declaration.text) ++ later) =
        (declarations, rest) ∧
      (if rest.head? = some "" then rest.tail else rest) = later := by
  have hread : ∀ declaration ∈ declarations,
      Declaration.ofRow? declaration.text = some declaration :=
    fun declaration hmem ↦ Declaration.ofRow?_text (h declaration hmem)
  by_cases hempty : declarations = []
  · subst hempty
    have hrefuses : ∀ first ∈ later.head?, Declaration.ofRow? first = none := by
      intro first hfirst
      obtain rfl := Option.some.inj (hhead.symm.trans hfirst)
      exact hrefused
    refine ⟨later, takeRows_append hread hrefuses, if_neg ?_⟩
    rw [hhead]
    exact fun hsame ↦ hnonempty (Option.some.inj hsame)
  · have hsection : sectionRows (declarations.map Declaration.text) ++ later =
        declarations.map Declaration.text ++ ("" :: later) := by
      rw [sectionRows, if_neg (by simpa using hempty), List.append_assoc, List.singleton_append]
    have hrefuses : ∀ first ∈ ("" :: later).head?, Declaration.ofRow? first = none := by
      intro first hfirst
      obtain rfl := Option.some.inj hfirst
      rfl
    rw [hsection]
    exact ⟨"" :: later, takeRows_append hread hrefuses, if_pos rfl⟩

/-- A legible statement is read back section by section. -/
theorem ofRows?_rows {inName : Char → Bool} (hblank : inName ' ' = false) {statement : Statement}
    (h : statement.IsLegible inName) : ofRows? inName statement.rows = some statement := by
  obtain ⟨row, hhead, hnonempty, hrefused⟩ :=
    head?_withRows_append statement.tables statement.body
  obtain ⟨rest, hdeclarations, hrest⟩ :=
    takeRows_declarations h.declarations hhead hnonempty hrefused
  have htables := takeTables?_withRows hblank h.tables
    (rfl : statement.body.rows.head?.bind (after? "WITH ") = none)
  have hbody := Select.ofRows?_rows hblank h.body
  simp only [rows, ofRows?, hdeclarations, hrest, htables, hbody, Option.bind_eq_bind,
    Option.bind_some]
  rfl

end Statement

/-! ## Rows without line breaks -/

instance (text : String) : Decidable (IsLine text) := inferInstanceAs (Decidable (_ ∉ _))

theorem isLine_append {first second : String} :
    IsLine (first ++ second) ↔ IsLine first ∧ IsLine second := by
  simp [IsLine, not_or]

theorem assembles_isLine : Assembles IsLine where
  fixed {text} htext := by
    have hfixed : ∀ text ∈ fixedRows, IsLine text := by decide
    exact hfixed text htext
  lead {lead text} hlead htext := by
    have hleads : ∀ lead ∈ rowLeads, IsLine lead := by decide
    exact isLine_append.2 ⟨hleads lead hlead, htext⟩
  glue {first separator second} hseparator hfirst hsecond := by
    have hseparators : ∀ separator ∈ rowSeparators, IsLine separator := by decide
    exact isLine_append.2 ⟨isLine_append.2 ⟨hfirst, hseparators separator hseparator⟩, hsecond⟩
  close {text closing} hclosing htext := by
    have hclosings : ∀ closing ∈ rowClosings, IsLine closing := by decide
    exact isLine_append.2 ⟨htext, hclosings closing hclosing⟩

theorem Declaration.isLine_text {declaration : Declaration} (h : IsWord declaration.name) :
    IsLine declaration.text := by
  simp only [text, reference, isLine_append]
  exact ⟨⟨⟨⟨⟨⟨by decide, by decide, h.newline⟩, by decide⟩, by decide⟩, by decide⟩,
    declaration.value.newline_notMem_plain⟩, by decide⟩

theorem Source.isLine_pieces {source : Source} (h : source.IsLegible) :
    ∀ piece ∈ source.table :: source.alias?.toList, IsLine piece :=
  List.forall_mem_cons.2 ⟨h.table.newline,
    fun name hname ↦ (h.name name (Option.mem_toList.1 hname)).newline⟩

theorem OutputColumn.isLine_pieces {inName : Char → Bool} (hnewline : inName '\n' = false)
    {column : OutputColumn} (h : column.IsLegible inName) :
    ∀ piece ∈ column.expression :: column.alias?.toList, IsLine piece := by
  refine List.forall_mem_cons.2 ⟨h.expression, fun name hname hmem ↦ ?_⟩
  have hchar := (h.name name (Option.mem_toList.1 hname)).inName _ hmem
  rw [hnewline] at hchar
  cases hchar

/-- The pieces of a legible selection are on one line each. -/
theorem Select.IsLegible.isLine {inName : Char → Bool} (hnewline : inName '\n' = false)
    {select : Select} (h : select.IsLegible inName) : select.Consists IsLine where
  pieces := by
    simp only [pieces, List.forall_mem_append, List.forall_mem_flatMap, List.forall_mem_map,
      List.flatMap_cons]
    exact ⟨⟨⟨⟨fun column hcolumn ↦ column.isLine_pieces hnewline (h.columns column hcolumn),
      select.source.isLine_pieces h.source,
      fun join hjoin ↦ join.source.isLine_pieces (h.joins join hjoin).source⟩,
      fun join hjoin ↦ (h.joins join hjoin).condition⟩,
      fun name hname ↦ (h.groupBy name hname).newline⟩,
      fun key hkey ↦ (h.orderBy key hkey).newline⟩
  filters := h.filters
  having := h.having

namespace Statement

theorem isLine_rows {inName : Char → Bool} (hnewline : inName '\n' = false)
    {statement : Statement} (h : statement.IsLegible inName) :
    ∀ row ∈ statement.rows, IsLine row :=
  assembles_isLine.statement_rows {
    declarations := fun declaration hmem ↦ declaration.isLine_text (h.declarations declaration hmem)
    tables := fun table htable ↦
      ⟨(h.tables table htable).1.newline, (h.tables table htable).2.isLine hnewline⟩
    body := h.body.isLine hnewline }

theorem ofText?_text {inName : Char → Bool} (hblank : inName ' ' = false)
    (hnewline : inName '\n' = false) {statement : Statement} (h : statement.IsLegible inName) :
    ofText? inName statement.text = some statement := by
  have hlines : ∀ row ∈ statement.rows.map String.toList, '\n' ∉ row := by
    intro row hrow
    obtain ⟨text, htext, rfl⟩ := List.mem_map.1 hrow
    exact isLine_rows hnewline h text htext
  have hbreak : "\n".toList = ['\n'] := rfl
  have hnonempty : statement.rows.map String.toList ≠ [] := by
    rw [ne_eq, List.map_eq_nil_iff]
    exact List.append_ne_nil_of_right_ne_nil _
      (List.append_ne_nil_of_right_ne_nil _ statement.body.rows_ne_nil)
  have hrows : (statement.rows.map String.toList).map String.ofList = statement.rows :=
    map_map_eq_self fun _ _ ↦ String.ofList_toList
  have hlast : (statement.text.toList).dropLast =
      ['\n'].intercalate (statement.rows.map String.toList) := by
    rw [text_eq_intercalate, String.toList_append, String.toList_intercalate, hbreak]
    exact List.dropLast_concat
  rw [ofText?, hlast, List.splitOn_intercalate _ hlines hnonempty, hrows, ofRows?_rows hblank h]

/-- A legible statement is read back from its text.  No other legible statement has this text. -/
theorem eq_of_text_eq {inName : Char → Bool} (hblank : inName ' ' = false)
    (hnewline : inName '\n' = false) {statement : Statement} (h : statement.IsLegible inName) :
    ofText? inName statement.text = some statement ∧
      ∀ other : Statement, other.IsLegible inName → other.text = statement.text →
        other = statement := by
  have hread := ofText?_text hblank hnewline h
  refine ⟨hread, fun other hother htext ↦ ?_⟩
  have hotherRead := ofText?_text hblank hnewline hother
  rw [htext, hread] at hotherRead
  exact (Option.some.inj hotherRead).symm

theorem eq_of_text_eq_tables :
    let inName (c : Char) : Bool := c.isAlphanum || c = '_'
    let statement : Statement := {
      declarations := [⟨"bin_size", .finite ⟨true, .zero⟩⟩]
      tables := [⟨"base", { source := ⟨"dbo.[paper]", some "p"⟩ }⟩]
      body := {
        columns := [⟨"CAST(p.x AS int)", none⟩, ⟨"COUNT(*)", some "n_articles"⟩]
        source := ⟨"base", none⟩
        joins := [⟨.left, ⟨"cat", none⟩, "a = b"⟩]
        filters := ["x = ','", "y IS NULL"]
        groupBy := ["a", "b"]
        orderBy := [⟨"a", .descending⟩] } }
    let text := "DECLARE @bin_size float = -0;\n\nWITH base AS (\n  SELECT\n\n" ++
      "  FROM dbo.[paper] p\n)\n\nSELECT\n  CAST(p.x AS int),\n  COUNT(*) AS n_articles\n" ++
      "FROM base\nLEFT JOIN cat ON a = b\nWHERE x = ','\n  AND y IS NULL\nGROUP BY a, b\n" ++
      "ORDER BY a DESC;"
    statement.text = text ∧ ofText? inName text = some statement := by
  intro inName statement text
  have hword (name : String) (h : ' ' ∉ name.toList ∧ '\n' ∉ name.toList ∧ ',' ∉ name.toList) :
      IsWord name := ⟨h.1, h.2.1, h.2.2⟩
  have hsource (table : String) (h : IsWord table) : Source.IsLegible ⟨table, none⟩ :=
    ⟨h, by simp⟩
  have hcast : OutputColumn.IsLegible inName ⟨"CAST(p.x AS int)", none⟩ :=
    ⟨by decide, by simp, fun _ ↦
      OutputColumn.unnamed_of_ofText (by decide : inName ' ' = false) (by decide +kernel)⟩
  have hcount : OutputColumn.IsLegible inName ⟨"COUNT(*)", some "n_articles"⟩ :=
    ⟨by decide, by rintro name ⟨⟩; exact ⟨by decide, List.all_eq_true.1 (by decide)⟩, by simp⟩
  have htable : Select.IsLegible inName { source := ⟨"dbo.[paper]", some "p"⟩ } :=
    ⟨by simp, ⟨hword _ (by decide), by rintro name ⟨⟩; exact hword _ (by decide)⟩, by simp, by simp,
      by simp, by simp, by simp⟩
  have hjoin : Join.IsLegible ⟨.left, ⟨"cat", none⟩, "a = b"⟩ :=
    ⟨hsource _ (hword _ (by decide)), by simp, by decide⟩
  have hbody : statement.body.IsLegible inName :=
    ⟨by simp [statement, hcast, hcount], hsource _ (hword _ (by decide)),
      by simp [statement, hjoin], by decide,
      by simp [statement, hword "a" (by decide), hword "b" (by decide)], by simp [statement],
      by simp [statement, hword "a" (by decide)]⟩
  have hlegible : statement.IsLegible inName :=
    ⟨by simp [statement, hword "bin_size" (by decide)],
      by simp [statement, hword "base" (by decide), htable], hbody⟩
  have htext : statement.text = text := by decide +kernel
  exact ⟨htext, htext ▸ (eq_of_text_eq (by decide) (by decide) hlegible).1⟩

end Statement

end StagedQuery
