import StagedQuery.Proofs.Binary64.Positional
import StagedQuery.Proofs.Statement.Rows
import Mathlib.Data.List.DropRight

/-!
# Reading Rows

The parts of a row are read back one after the other: a keyword, a word up to the next blank, the
items of a list between commas, or whatever is left.  This needs words without blanks and commas,
and names that can be told from the expression before them.
-/

namespace StagedQuery

/-! ## Legible parts -/

/-- A text on one line. -/
def IsLine (text : String) : Prop := '\n' ∉ text.toList

/-- A text without blanks, line breaks and commas. -/
structure IsWord (text : String) : Prop where
  blank : ' ' ∉ text.toList
  newline : '\n' ∉ text.toList
  comma : ',' ∉ text.toList

/-- A name of the given characters. -/
structure IsName (inName : Char → Bool) (text : String) : Prop where
  nonempty : text.toList ≠ []
  inName : ∀ c ∈ text.toList, inName c

structure OutputColumn.IsLegible (inName : Char → Bool) (column : OutputColumn) : Prop where
  expression : IsLine column.expression
  name : ∀ name ∈ column.alias?, IsName inName name
  /-- Without a name, the expression does not end as if it had one. -/
  unnamed : column.alias? = none → ∀ expression name, IsName inName name →
    column.expression ≠ expression ++ " AS " ++ name

structure Source.IsLegible (source : Source) : Prop where
  table : IsWord source.table
  name : ∀ name ∈ source.alias?, IsWord name

structure Join.IsLegible (join : Join) : Prop where
  source : join.source.IsLegible
  /-- The name of the table is not taken for the keyword behind it. -/
  name : join.source.alias? ≠ some "ON"
  condition : IsLine join.condition

structure Select.IsLegible (inName : Char → Bool) (select : Select) : Prop where
  columns : ∀ column ∈ select.columns, column.IsLegible inName
  source : select.source.IsLegible
  joins : ∀ join ∈ select.joins, join.IsLegible
  filters : ∀ filter ∈ select.filters, IsLine filter
  groupBy : ∀ name ∈ select.groupBy, IsWord name
  having : ∀ condition ∈ select.having?, IsLine condition
  orderBy : ∀ key ∈ select.orderBy, IsWord key.column

structure Statement.IsLegible (inName : Char → Bool) (statement : Statement) : Prop where
  declarations : ∀ declaration ∈ statement.declarations, IsWord declaration.name
  tables : ∀ table ∈ statement.tables, IsWord table.name ∧ table.select.IsLegible inName
  body : statement.body.IsLegible inName

/-! ## Keywords and words -/

/-- What stands behind a keyword at the beginning of a text. -/
def after? (keyword text : String) : Option String :=
  (text.toList.dropPrefix? keyword.toList).map String.ofList

/-- What stands before a keyword at the end of a text. -/
def before? (keyword text : String) : Option String :=
  (text.toList.dropSuffix? keyword.toList).map String.ofList

/-- The text up to the first blank, and the rest. -/
def firstWord (text : String) : String × String :=
  (String.ofList (text.toList.takeWhile (· ≠ ' ')),
    String.ofList (text.toList.dropWhile (· ≠ ' ')))

theorem after?_eq_some_iff {keyword text rest : String} :
    after? keyword text = some rest ↔ text = keyword ++ rest := by
  simp only [after?, Option.map_eq_some_iff, List.dropPrefix?_eq_some_iff, beq_iff_eq,
    exists_eq_right]
  constructor
  · rintro ⟨list, hlist, rfl⟩
    rw [← String.toList_inj, String.toList_append, String.toList_ofList, hlist]
  · rintro rfl
    exact ⟨rest.toList, String.toList_append, String.ofList_toList⟩

theorem before?_eq_some_iff {keyword text rest : String} :
    before? keyword text = some rest ↔ text = rest ++ keyword := by
  simp only [before?, Option.map_eq_some_iff, List.dropSuffix?_eq_some_iff, beq_iff_eq,
    exists_eq_right]
  constructor
  · rintro ⟨list, hlist, rfl⟩
    rw [← String.toList_inj, String.toList_append, String.toList_ofList, hlist]
  · rintro rfl
    exact ⟨rest.toList, String.toList_append, String.ofList_toList⟩

theorem after?_append (keyword rest : String) : after? keyword (keyword ++ rest) = some rest :=
  after?_eq_some_iff.2 rfl

/-- A text that begins otherwise is refused. -/
theorem after?_eq_none {keyword text : String} {first : Char}
    (hkeyword : keyword.toList.head? = some first) (htext : text.toList.head? ≠ some first) :
    after? keyword text = none := by
  refine Option.eq_none_iff_forall_ne_some.2 fun rest hrest ↦ htext ?_
  obtain rfl := after?_eq_some_iff.1 hrest
  rw [String.toList_append, List.head?_append, hkeyword]
  rfl

/-- What is taken ends where the rest begins. -/
theorem takeWhile_dropWhile_append {α : Type} {p : α → Bool} {items rest : List α}
    (hitems : ∀ item ∈ items, p item) (hrest : ∀ item ∈ rest.head?, p item = false) :
    (items ++ rest).takeWhile p = items ∧ (items ++ rest).dropWhile p = rest := by
  rw [List.takeWhile_append_of_pos hitems, List.dropWhile_append_of_pos hitems]
  cases rest with
  | nil => exact ⟨List.append_nil _, rfl⟩
  | cons item rest =>
    have hitem : ¬ p item := by simp [hrest item rfl]
    rw [List.takeWhile_cons_of_neg hitem, List.dropWhile_cons_of_neg hitem]
    exact ⟨List.append_nil _, rfl⟩

section FirstWord

variable {word : String} (h : ' ' ∉ word.toList)
include h

theorem firstWord_self : firstWord word = (word, "") := by
  have hall : ∀ c ∈ word.toList, decide (c ≠ ' ') := fun c hc ↦
    decide_eq_true fun heq ↦ h (heq ▸ hc)
  rw [firstWord, List.takeWhile_eq_self_iff.2 hall, List.dropWhile_eq_nil_iff.2 hall,
    String.ofList_toList]

theorem firstWord_append {keyword : String} (hkeyword : keyword.toList.head? = some ' ')
    (rest : String) : firstWord (word ++ (keyword ++ rest)) = (word, keyword ++ rest) := by
  have hall : ∀ c ∈ word.toList, decide (c ≠ ' ') := fun c hc ↦
    decide_eq_true fun heq ↦ h (heq ▸ hc)
  have hstop : ∀ c ∈ (keyword ++ rest).toList.head?, decide (c ≠ ' ') = false := by
    rw [String.toList_append, List.head?_append, hkeyword]
    rintro c ⟨⟩
    rfl
  obtain ⟨htake, hdrop⟩ := takeWhile_dropWhile_append hall hstop
  rw [firstWord, String.toList_append, htake, hdrop, String.ofList_toList, String.ofList_toList]

end FirstWord

/-! ## Lists -/

/-- The items of a list with a comma and a blank between them. -/
def listed (text : String) : List String :=
  ((' ' :: text.toList).splitOn ',').map fun item ↦ String.ofList item.tail

theorem listed_intercalate {items : List String} (hnonempty : items ≠ [])
    (h : ∀ item ∈ items, ',' ∉ item.toList) : listed (", ".intercalate items) = items := by
  have hlist : ' ' :: (", ".intercalate items).toList =
      [','].intercalate (items.map fun item ↦ ' ' :: item.toList) := by
    induction items with
    | nil => exact absurd rfl hnonempty
    | cons item rest ih =>
      cases rest with
      | nil => simp
      | cons next rest =>
        have hrest := ih (List.cons_ne_nil _ _) (List.forall_mem_cons.1 h).2
        have hseparator : ", ".toList = [',', ' '] := rfl
        rw [List.map_cons] at hrest
        rw [String.intercalate_cons_cons, List.map_cons, List.map_cons, List.intercalate_cons_cons,
          ← hrest, String.toList_append, String.toList_append, hseparator]
        simp
  have hcomma : ∀ item ∈ items.map fun item ↦ ' ' :: item.toList, ',' ∉ item := by
    intro item hitem
    obtain ⟨text, htext, rfl⟩ := List.mem_map.1 hitem
    simpa using h text htext
  rw [listed, hlist, List.splitOn_intercalate ',' hcomma (by simpa using hnonempty), List.map_map]
  simp [Function.comp_def]

/-! ## Items one after the other -/

theorem map_map_eq_self {α β : Type} {read : β → α} {write : α → β} {items : List α}
    (h : ∀ item ∈ items, read (write item) = item) : (items.map write).map read = items := by
  rw [List.map_map]
  exact (List.map_congr_left h).trans (List.map_id' _)

theorem mapM_map_eq_some {α β : Type} {read? : β → Option α} {write : α → β} {items : List α}
    (h : ∀ item ∈ items, read? (write item) = some item) :
    (items.map write).mapM read? = some items := by
  induction items with
  | nil => rfl
  | cons item rest ih =>
    obtain ⟨hitem, hrest⟩ := List.forall_mem_cons.1 h
    rw [List.map_cons, List.mapM_cons, hitem, ih hrest]
    rfl

/-- The rows that can be read before the first one that cannot, and the rest. -/
def takeRows {α : Type} (read? : String → Option α) : List String → List α × List String
  | [] => ([], [])
  | row :: rest =>
    match read? row with
    | some item => (item :: (takeRows read? rest).1, (takeRows read? rest).2)
    | none => ([], row :: rest)

theorem takeRows_append {α : Type} {read? : String → Option α} {write : α → String}
    {items : List α} {rest : List String} (hitems : ∀ item ∈ items, read? (write item) = some item)
    (hrest : ∀ row ∈ rest.head?, read? row = none) :
    takeRows read? (items.map write ++ rest) = (items, rest) := by
  induction items with
  | nil =>
    cases rest with
    | nil => rfl
    | cons row rest => simp [takeRows, hrest row rfl]
  | cons item later ih =>
    obtain ⟨hitem, hlater⟩ := List.forall_mem_cons.1 hitems
    simp [takeRows, hitem, ih hlater]

/-! ## Parts of a statement -/

namespace Declaration

def ofRow? (row : String) : Option Declaration := do
  let (name, rest) := firstWord (← after? "DECLARE @" row)
  let value ← after? " float = " rest
  return ⟨name, ← Binary64.ofPlain? value.toList.dropLast⟩

theorem ofRow?_text {declaration : Declaration} (h : IsWord declaration.name) :
    ofRow? declaration.text = some declaration := by
  have htext : declaration.text = "DECLARE @" ++
      (declaration.name ++ (" float = " ++ (declaration.value.plain ++ ";"))) := by
    have hat : "DECLARE @" = "DECLARE " ++ "@" := rfl
    have htype : " float = " = " " ++ ("float" ++ " = ") := rfl
    rw [text, reference, sqlType, hat, htype]
    simp only [String.append_assoc]
  have hword := firstWord_append h.blank (rfl : " float = ".toList.head? = some ' ')
    (declaration.value.plain ++ ";")
  have hvalue :
      (declaration.value.plain ++ ";").toList.dropLast = declaration.value.plain.toList := by
    rw [String.toList_append]
    exact List.dropLast_concat
  simp only [ofRow?, htext, after?_append, hword, hvalue, Binary64.ofPlain?_plain,
    Option.bind_eq_bind, Option.bind_some, Option.pure_def]

end Declaration

namespace OutputColumn

/-- Reads an output column, which has a name if it ends as if it had one. -/
def ofText (inName : Char → Bool) (text : String) : OutputColumn :=
  let name := String.ofList (text.toList.rtakeWhile inName)
  match before? " AS " (String.ofList (text.toList.rdropWhile inName)) with
  | some expression => if name = "" then ⟨text, none⟩ else ⟨expression, some name⟩
  | none => ⟨text, none⟩

theorem rtakeWhile_append {inName : Char → Bool} {before name : List Char}
    (hname : ∀ c ∈ name, inName c) (hbefore : ∀ c ∈ before.getLast?, inName c = false) :
    (before ++ name).rtakeWhile inName = name ∧ (before ++ name).rdropWhile inName = before := by
  have hreverse : ∀ c ∈ name.reverse, inName c := by simpa using hname
  rw [← List.head?_reverse] at hbefore
  obtain ⟨htake, hdrop⟩ := takeWhile_dropWhile_append hreverse hbefore
  rw [List.rtakeWhile, List.rdropWhile, List.reverse_append, htake, hdrop]
  exact ⟨List.reverse_reverse _, List.reverse_reverse _⟩

theorem ofText_append {inName : Char → Bool} (hblank : inName ' ' = false) (expression : String)
    {name : String} (h : IsName inName name) :
    ofText inName (expression ++ " AS " ++ name) = ⟨expression, some name⟩ := by
  have hlast : ∀ c ∈ (expression ++ " AS ").toList.getLast?, inName c = false := by
    simp [hblank]
  obtain ⟨htake, hdrop⟩ := rtakeWhile_append h.inName hlast
  have hbefore : before? " AS " (expression ++ " AS ") = some expression :=
    before?_eq_some_iff.2 rfl
  have hnonempty : name ≠ "" := mt String.toList_eq_nil_iff.2 h.nonempty
  rw [ofText, String.toList_append, htake, hdrop]
  simp only [String.ofList_toList, hbefore, if_neg hnonempty]

theorem ofText_text {inName : Char → Bool} (hblank : inName ' ' = false) {column : OutputColumn}
    (h : column.IsLegible inName) : ofText inName column.text = column := by
  obtain ⟨expression, name?⟩ := column
  cases name? with
  | none =>
    change ofText inName expression = _
    unfold ofText
    dsimp only
    split
    · next before hbefore =>
      refine if_pos (Classical.byContradiction fun hnonempty ↦ ?_)
      have hname : IsName inName (String.ofList (expression.toList.rtakeWhile inName)) := by
        refine ⟨mt String.toList_eq_nil_iff.1 hnonempty, fun c hc ↦ ?_⟩
        rw [String.toList_ofList] at hc
        exact List.mem_rtakeWhile_imp hc
      refine h.unnamed rfl before _ hname ?_
      rw [← before?_eq_some_iff.1 hbefore, ← String.ofList_append,
        List.rdropWhile_append_rtakeWhile, String.ofList_toList]
    · rfl
  | some name => exact ofText_append hblank expression (h.name name rfl)

/-- An expression that is read without a name does not end as if it had one. -/
theorem unnamed_of_ofText {inName : Char → Bool} (hblank : inName ' ' = false) {text : String}
    (h : ofText inName text = ⟨text, none⟩) (expression name : String)
    (hname : IsName inName name) : text ≠ expression ++ " AS " ++ name := by
  rintro rfl
  rw [ofText_append hblank expression hname] at h
  cases (OutputColumn.mk.inj h).2

end OutputColumn

namespace Source

def ofText (text : String) : Source :=
  ⟨(firstWord text).1, after? " " (firstWord text).2⟩

theorem ofText_text {source : Source} (h : source.IsLegible) : ofText source.text = source := by
  obtain ⟨table, name?⟩ := source
  cases name? with
  | none => rw [ofText, text, withAlias, firstWord_self h.table.blank]; rfl
  | some name =>
    rw [ofText, text, withAlias, String.append_assoc, firstWord_append h.table.blank rfl,
      after?_append]

end Source

namespace Join

def ofKind? (kind : JoinKind) (row : String) : Option Join := do
  let (table, rest) := firstWord (← after? (kind.keyword ++ " ") row)
  match after? " ON " rest with
  | some condition => return ⟨kind, ⟨table, none⟩, condition⟩
  | none =>
    let (name, rest) := firstWord (← after? " " rest)
    return ⟨kind, ⟨table, some name⟩, ← after? " ON " rest⟩

def ofRow? (row : String) : Option Join := ofKind? .inner row <|> ofKind? .left row

theorem ofRow?_eq_none {row : String} (hinner : after? "JOIN " row = none)
    (hleft : after? "LEFT JOIN " row = none) : ofRow? row = none := by
  have hkind (kind : JoinKind) (h : after? (kind.keyword ++ " ") row = none) :
      ofKind? kind row = none := by
    rw [ofKind?, h]
    rfl
  rw [ofRow?, hkind .inner hinner, hkind .left hleft]
  rfl

theorem ofKind?_text {join : Join} (h : join.IsLegible) :
    ofKind? join.kind join.text = some join := by
  obtain ⟨kind, ⟨table, name?⟩, condition⟩ := join
  cases name? with
  | none =>
    have htext : text ⟨kind, ⟨table, none⟩, condition⟩ =
        (kind.keyword ++ " ") ++ (table ++ (" ON " ++ condition)) := by
      simp only [text, Source.text, withAlias, String.append_assoc]
    have htable := firstWord_append h.source.table.blank (rfl : " ON ".toList.head? = some ' ')
      condition
    simp only [ofKind?, htext, after?_append, htable, Option.bind_eq_bind, Option.bind_some,
      Option.pure_def]
  | some name =>
    have hname := (h.source.name name rfl).blank
    have htext : text ⟨kind, ⟨table, some name⟩, condition⟩ =
        (kind.keyword ++ " ") ++ (table ++ (" " ++ (name ++ (" ON " ++ condition)))) := by
      simp only [text, Source.text, withAlias, String.append_assoc]
    have htable := firstWord_append h.source.table.blank (rfl : " ".toList.head? = some ' ')
      (name ++ (" ON " ++ condition))
    have hword := firstWord_append hname (rfl : " ON ".toList.head? = some ' ') condition
    have hnamed : after? " ON " (" " ++ (name ++ (" ON " ++ condition))) = none := by
      refine Option.eq_none_iff_forall_ne_some.2 fun rest hrest ↦ h.name ?_
      have hkeyword : " ON " ++ rest = " " ++ ("ON" ++ (" " ++ rest)) := by
        rw [← String.append_assoc, ← String.append_assoc]
        rfl
      have heq := (after?_eq_some_iff.1 hrest).trans hkeyword
      have hon := firstWord_append (by decide : ' ' ∉ "ON".toList)
        (rfl : " ".toList.head? = some ' ') rest
      rw [← (String.append_right_inj _).1 heq, hword] at hon
      exact congrArg some (Prod.mk.inj hon).1
    simp only [ofKind?, htext, after?_append, htable, hnamed, hword, Option.bind_eq_bind,
      Option.bind_some, Option.pure_def]

theorem ofRow?_text {join : Join} (h : join.IsLegible) : ofRow? join.text = some join := by
  have hread := ofKind?_text h
  cases hkind : join.kind with
  | inner =>
    rw [hkind] at hread
    rw [ofRow?, hread]
    rfl
  | left =>
    have hinner : ofKind? .inner join.text = none := by
      have hkeyword : after? (JoinKind.inner.keyword ++ " ") join.text = none := by
        refine after?_eq_none (by decide : _ = some 'J') ?_
        rw [text, hkind]
        simp [JoinKind.keyword]
      rw [ofKind?, hkeyword]
      rfl
    rw [hkind] at hread
    rw [ofRow?, hinner, hread]
    rfl

end Join

namespace SortKey

def ofText (text : String) : SortKey :=
  ⟨(firstWord text).1, if (firstWord text).2 = " ASC" then .ascending else .descending⟩

theorem comma_notMem_text {key : SortKey} (h : IsWord key.column) : ',' ∉ key.text.toList := by
  have hdirection : ',' ∉ key.direction.keyword.toList := by cases key.direction <;> decide
  simp [text, h.comma, hdirection]

theorem ofText_text {key : SortKey} (h : IsWord key.column) : ofText key.text = key := by
  obtain ⟨column, direction⟩ := key
  rw [ofText, text, String.append_assoc, firstWord_append h.blank rfl]
  cases direction <;> rfl

end SortKey

end StagedQuery
