import StagedQuery.Proofs.Statement.Reading

/-!
# Clauses Read Back

Every clause of a selection begins in its own way, so that the rows of one clause after the other
can be taken from the rows of the selection.  An empty row stands in place of output columns where
there are none.
-/

namespace StagedQuery

/-! ## Rows by their beginnings -/

/-- Each of the rows begins with one of the characters. -/
def StartsIn (initials : List Char) (rows : List String) : Prop :=
  ∀ row ∈ rows, ∃ c ∈ initials, row.toList.head? = some c

namespace StartsIn

variable {initials others : List Char} {rows later : List String}

theorem nil : StartsIn [] [] := List.forall_mem_nil _

theorem append (h : StartsIn initials rows) (hlater : StartsIn others later) :
    StartsIn (initials ++ others) (rows ++ later) := by
  intro row hrow
  rcases List.mem_append.1 hrow with hrow | hrow
  · obtain ⟨c, hc, hhead⟩ := h row hrow
    exact ⟨c, List.mem_append_left _ hc, hhead⟩
  · obtain ⟨c, hc, hhead⟩ := hlater row hrow
    exact ⟨c, List.mem_append_right _ hc, hhead⟩

theorem keyword {keyword : String} {first : Char} (h : keyword.toList.head? = some first)
    (texts : List String) : StartsIn [first] (texts.map (keyword ++ ·)) := by
  intro row hrow
  obtain ⟨text, -, rfl⟩ := List.mem_map.1 hrow
  refine ⟨first, List.mem_cons_self, ?_⟩
  rw [String.toList_append, List.head?_append, h]
  rfl

theorem joins (joins : List Join) : StartsIn ['J', 'L'] (joins.map Join.text) := by
  intro row hrow
  obtain ⟨⟨kind, source, condition⟩, -, rfl⟩ := List.mem_map.1 hrow
  cases kind with
  | inner => exact ⟨'J', by decide, by simp [Join.text, JoinKind.keyword]⟩
  | left => exact ⟨'L', by decide, by simp [Join.text, JoinKind.keyword]⟩

theorem after?_eq_none {keyword : String} {first : Char}
    (hkeyword : keyword.toList.head? = some first) (h : StartsIn initials rows)
    (hfirst : first ∉ initials) {row : String} (hrow : row ∈ rows) : after? keyword row = none := by
  obtain ⟨c, hc, hhead⟩ := h row hrow
  refine StagedQuery.after?_eq_none hkeyword ?_
  rw [hhead]
  rintro heq
  exact hfirst (Option.some.inj heq ▸ hc)

/-- The rows of one clause, and rows that begin otherwise. -/
theorem takeRows_after? {keyword : String} {first : Char}
    (hkeyword : keyword.toList.head? = some first) (h : StartsIn initials rows)
    (hfirst : first ∉ initials) (texts : List String) :
    takeRows (after? keyword) (texts.map (keyword ++ ·) ++ rows) = (texts, rows) :=
  takeRows_append (fun text _ ↦ after?_append keyword text) fun _ hrow ↦
    h.after?_eq_none hkeyword hfirst (List.mem_of_mem_head? hrow)

/-- The joins, and rows that begin neither like an inner nor like a left one. -/
theorem takeRows_joins (h : StartsIn initials rows) (hinner : 'J' ∉ initials)
    (hleft : 'L' ∉ initials) {joins : List Join} (hjoins : ∀ join ∈ joins, join.IsLegible) :
    takeRows Join.ofRow? (joins.map Join.text ++ rows) = (joins, rows) := by
  refine takeRows_append (fun join hjoin ↦ Join.ofRow?_text (hjoins join hjoin)) fun row hhead ↦ ?_
  have hrow := List.mem_of_mem_head? hhead
  exact Join.ofRow?_eq_none
    (h.after?_eq_none (by decide : "JOIN ".toList.head? = some 'J') hinner hrow)
    (h.after?_eq_none (by decide : "LEFT JOIN ".toList.head? = some 'L') hleft hrow)

end StartsIn

/-! ## Selections -/

namespace Select

/-- Rows without the commas between them. -/
def stripCommas : List String → List String
  | [] => []
  | [row] => [row]
  | row :: rest => String.ofList row.toList.dropLast :: stripCommas rest

def startsBlank (row : String) : Bool := row.toList.head? = some ' '

/-- Reads the output columns; there are none if the first row is empty. -/
def takeColumns (inName : Char → Bool) (rows : List String) : List OutputColumn × List String :=
  if rows.head? = some "" then ([], rows.tail)
  else ((stripCommas (rows.takeWhile startsBlank)).map fun row ↦
    OutputColumn.ofText inName ((after? "  " row).getD row), rows.dropWhile startsBlank)

/-- Reads a selection from its rows. -/
def ofRows? (inName : Char → Bool) (rows : List String) : Option Select := do
  let (columns, rows) := takeColumns inName rows.tail
  let (sources, rows) := takeRows (after? "FROM ") rows
  let (joins, rows) := takeRows Join.ofRow? rows
  let (first, rows) := takeRows (after? "WHERE ") rows
  let (later, rows) := takeRows (after? "  AND ") rows
  let (groups, rows) := takeRows (after? "GROUP BY ") rows
  let (conditions, rows) := takeRows (after? "HAVING ") rows
  let (orders, _) := takeRows (after? "ORDER BY ") rows
  return {
    columns
    source := Source.ofText (← sources.head?)
    joins
    filters := first ++ later
    groupBy := groups.flatMap listed
    having? := conditions.head?
    orderBy := orders.flatMap fun keys ↦ (listed keys).map SortKey.ofText }

theorem stripCommas_commaRows {rows : List String} (h : rows ≠ []) :
    stripCommas (commaRows rows) = rows := by
  induction rows with
  | nil => exact absurd rfl h
  | cons row rest ih =>
    cases rest with
    | nil => rfl
    | cons next rest =>
      have hrest := ih (List.cons_ne_nil _ _)
      obtain ⟨first, later, hrows⟩ : ∃ first later, commaRows (next :: rest) = first :: later := by
        cases rest <;> exact ⟨_, _, rfl⟩
      have hcomma : (row ++ ",").toList.dropLast = row.toList := by
        rw [String.toList_append]
        exact List.dropLast_concat
      rw [hrows] at hrest
      rw [commaRows_cons_cons, hrows, stripCommas, hrest, hcomma, String.ofList_toList]
      exact List.cons_ne_nil _ _

theorem startsBlank_commaRows {rows : List String} (hnonempty : rows ≠ [])
    (h : ∀ row ∈ rows, startsBlank row) : ∀ row ∈ commaRows rows, startsBlank row := by
  induction rows with
  | nil => exact absurd rfl hnonempty
  | cons row rest ih =>
    obtain ⟨hrow, hrest⟩ := List.forall_mem_cons.1 h
    cases rest with
    | nil => exact h
    | cons next rest =>
      refine List.forall_mem_cons.2 ⟨?_, ih (List.cons_ne_nil _ _) hrest⟩
      have hhead := of_decide_eq_true hrow
      rw [startsBlank, String.toList_append, List.head?_append, hhead]
      rfl

theorem commaRows_ne_nil (rows : List String) : commaRows rows ≠ [] := by
  rcases rows with - | ⟨row, - | ⟨next, rest⟩⟩ <;> exact List.cons_ne_nil _ _

theorem takeColumns_commaRows {inName : Char → Bool} (hblank : inName ' ' = false)
    {columns : List OutputColumn} (h : ∀ column ∈ columns, column.IsLegible inName)
    {rest : List String} (hrest : ∀ row ∈ rest.head?, startsBlank row = false) :
    takeColumns inName (commaRows (columns.map fun column ↦ "  " ++ column.text) ++ rest) =
      (columns, rest) := by
  by_cases hempty : columns = []
  · subst hempty
    rfl
  · have hnonempty : columns.map (fun column ↦ "  " ++ column.text) ≠ [] := by simpa using hempty
    have hblanks := startsBlank_commaRows hnonempty (by simp [startsBlank])
    obtain ⟨htake, hdrop⟩ := takeWhile_dropWhile_append hblanks hrest
    have hhead : (commaRows (columns.map fun column ↦ "  " ++ column.text) ++ rest).head? ≠
        some "" := by
      intro hhead
      rw [List.head?_append_of_ne_nil _ (commaRows_ne_nil _)] at hhead
      exact absurd (hblanks "" (List.mem_of_mem_head? hhead)) (by decide)
    have hread : ∀ column ∈ columns, OutputColumn.ofText inName
        ((after? "  " ("  " ++ column.text)).getD ("  " ++ column.text)) = column := by
      intro column hcolumn
      rw [after?_append]
      exact OutputColumn.ofText_text hblank (h column hcolumn)
    have hcolumns : (columns.map fun column ↦ "  " ++ column.text).map (fun row ↦
        OutputColumn.ofText inName ((after? "  " row).getD row)) = columns :=
      map_map_eq_self hread
    rw [takeColumns, if_neg hhead, htake, hdrop, stripCommas_commaRows hnonempty, hcolumns]

theorem flatMap_listed_itemTexts {items : List String} (h : ∀ item ∈ items, ',' ∉ item.toList) :
    (itemTexts items).flatMap listed = items := by
  unfold itemTexts
  split
  · next hempty => exact hempty.symm
  · next hnonempty => rw [List.flatMap_singleton, listed_intercalate hnonempty h]

theorem listed_groupBy {inName : Char → Bool} {select : Select} (h : select.IsLegible inName) :
    (itemTexts select.groupBy).flatMap listed = select.groupBy :=
  flatMap_listed_itemTexts fun name hname ↦ (h.groupBy name hname).comma

theorem listed_orderBy {inName : Char → Bool} {select : Select} (h : select.IsLegible inName) :
    (itemTexts (select.orderBy.map SortKey.text)).flatMap
      (fun keys ↦ (listed keys).map SortKey.ofText) = select.orderBy := by
  have hcomma : ∀ text ∈ select.orderBy.map SortKey.text, ',' ∉ text.toList := by
    intro text htext
    obtain ⟨key, hkey, rfl⟩ := List.mem_map.1 htext
    exact SortKey.comma_notMem_text (h.orderBy key hkey)
  rw [← List.map_flatMap, flatMap_listed_itemTexts hcomma]
  exact map_map_eq_self fun key hkey ↦ SortKey.ofText_text (h.orderBy key hkey)

/-- A legible selection is read back clause by clause. -/
theorem ofRows?_rows {inName : Char → Bool} (hblank : inName ' ' = false) {select : Select}
    (h : select.IsLegible inName) : ofRows? inName select.rows = some select := by
  -- The rows behind each clause begin in none of the ways in which its own rows begin.
  have horder : StartsIn ['O']
      ((itemTexts (select.orderBy.map SortKey.text)).map ("ORDER BY " ++ ·)) := .keyword rfl _
  have hhaving : StartsIn ['H'] (select.having?.toList.map ("HAVING " ++ ·)) := .keyword rfl _
  have hgroup : StartsIn ['G'] ((itemTexts select.groupBy).map ("GROUP BY " ++ ·)) :=
    .keyword rfl _
  have hlater : StartsIn [' '] ((select.filters.drop 1).map ("  AND " ++ ·)) := .keyword rfl _
  have hfirst : StartsIn ['W'] ((select.filters.take 1).map ("WHERE " ++ ·)) := .keyword rfl _
  have hbehindHaving := hhaving.append horder
  have hbehindGroup := hgroup.append hbehindHaving
  have hbehindLater := hlater.append hbehindGroup
  have hbehindFirst := hfirst.append hbehindLater
  have hbehindSource := (StartsIn.joins select.joins).append hbehindFirst
  have hcolumns (rows : List String) :
      takeColumns inName (commaRows (select.columns.map fun column ↦ "  " ++ column.text) ++
        ([select.source.text].map ("FROM " ++ ·) ++ rows)) =
          (select.columns, [select.source.text].map ("FROM " ++ ·) ++ rows) :=
    takeColumns_commaRows hblank h.columns (by simp [startsBlank])
  have hsource := hbehindSource.takeRows_after? (by decide : "FROM ".toList.head? = some 'F')
    (by decide) [select.source.text]
  have hjoins := hbehindFirst.takeRows_joins (by decide) (by decide) h.joins
  have hwhere := hbehindLater.takeRows_after? (by decide : "WHERE ".toList.head? = some 'W')
    (by decide) (select.filters.take 1)
  have hand := hbehindGroup.takeRows_after? (by decide : "  AND ".toList.head? = some ' ')
    (by decide) (select.filters.drop 1)
  have hgroups := hbehindHaving.takeRows_after? (by decide : "GROUP BY ".toList.head? = some 'G')
    (by decide) (itemTexts select.groupBy)
  have hconditions := horder.takeRows_after? (by decide : "HAVING ".toList.head? = some 'H')
    (by decide) select.having?.toList
  have horders := StartsIn.nil.takeRows_after? (by decide : "ORDER BY ".toList.head? = some 'O')
    List.not_mem_nil (itemTexts (select.orderBy.map SortKey.text))
  rw [List.append_nil] at horders
  simp only [rows, ofRows?, List.cons_append, List.append_assoc, List.tail_cons, hcolumns, hsource,
    hjoins, hwhere, hand, hgroups, hconditions, horders, listed_groupBy h, listed_orderBy h,
    List.head?_cons, List.take_append_drop, Option.bind_eq_bind, Option.bind_some,
    Source.ofText_text h.source, Option.head?_toList]
  rfl

end Select

end StagedQuery
