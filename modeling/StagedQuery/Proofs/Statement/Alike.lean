import StagedQuery.Proofs.Sql.Masking
import StagedQuery.Proofs.Statement.Pieces

/-!
# Alike Statements

A selection whose fixed pieces can be read on their own stays alike when its conditions are
replaced by alike ones, and so does a table that is defined by it.
-/

namespace StagedQuery

open Sql (Alike Stands Leads Joins Token)

/-! ## Pieces in sequence -/

namespace Sql

variable {first second : String}

theorem Leads.append (hfirst : Leads first) (hsecond : Leads second) : Leads (first ++ second) := by
  obtain ⟨firstTokens, hsettles, hquiet⟩ := hfirst
  obtain ⟨secondTokens, hnext, hquietNext⟩ := hsecond
  exact ⟨firstTokens ++ secondTokens, hsettles.append hnext, hquiet.append hquietNext⟩

theorem Joins.append (hfirst : Joins first) (hsecond : Leads second) : Joins (first ++ second) := by
  obtain ⟨firstTokens, ⟨hsettles, hhead⟩, hquiet⟩ := hfirst
  obtain ⟨secondTokens, hnext, hquietNext⟩ := hsecond
  refine ⟨firstTokens ++ secondTokens, ⟨hsettles.append hnext, ?_⟩, hquiet.append hquietNext⟩
  rw [String.toList_append]
  cases htext : first.toList with
  | nil => simp [htext] at hhead
  | cons c rest => simpa [htext] using hhead

theorem Alike.stands (h : Alike first second) : Stands first := by
  obtain ⟨tokens, _, hlexes, _, _, hquiet⟩ := h
  exact ⟨tokens, hlexes, hquiet⟩

theorem Stands.glue {separator : String} (hfirst : Stands first) (hseparator : Joins separator)
    (hsecond : Stands second) : Stands (first ++ separator ++ second) :=
  (hfirst.alike.glue hseparator hsecond.alike).stands

theorem Stands.withAlias {connective : String} {name? : Option String} (h : Stands first)
    (hconnective : Joins connective) (hname : ∀ name ∈ name?, Stands name) :
    Stands (withAlias first connective name?) := by
  cases name? with
  | none => exact h
  | some name => exact h.glue hconnective (hname name rfl)

/-- Fixed pieces are alike to themselves. -/
theorem forall₂_alike {α : Type} {text : α → String} {items : List α}
    (h : ∀ item ∈ items, Stands (text item)) :
    List.Forall₂ Alike (items.map text) (items.map text) :=
  forall₂_map fun item hitem ↦ (h item hitem).alike

theorem forall₂_append_lead {lead : String} (hlead : Leads lead) {firsts seconds : List String}
    (h : List.Forall₂ Alike firsts seconds) :
    List.Forall₂ Alike (firsts.map (lead ++ ·)) (seconds.map (lead ++ ·)) := by
  rw [List.forall₂_map_left_iff, List.forall₂_map_right_iff]
  exact h.imp fun _ _ halike ↦ halike.append_lead hlead

theorem forall₂_toList {first? second? : Option String} (h : Option.Rel Alike first? second?) :
    List.Forall₂ Alike first?.toList second?.toList := by
  cases h with
  | none => exact .nil
  | some halike => exact .cons halike .nil

end Sql

/-! ## Selections -/

namespace Select

/-- The pieces of a selection other than its conditions can be read on their own. -/
structure Fixed (select : Select) : Prop where
  columns : ∀ column ∈ select.columns, Stands column.text
  source : Stands select.source.text
  joins : ∀ join ∈ select.joins, Stands join.text
  groupBy : ∀ name ∈ select.groupBy, Stands name
  orderBy : ∀ key ∈ select.orderBy, Stands key.text

/-- It is enough to read each piece on its own. -/
theorem fixed_of_pieces {select : Select} (h : ∀ piece ∈ select.pieces, Stands piece) :
    select.Fixed := by
  simp only [pieces, List.forall_mem_append, List.forall_mem_flatMap, List.forall_mem_cons,
    List.forall_mem_map, Option.mem_toList] at h
  obtain ⟨⟨⟨⟨hcolumns, ⟨htable, halias⟩, hjoins⟩, hconditions⟩, hgroupBy⟩, horderBy⟩ := h
  have hdirection (direction : SortDirection) : Stands direction.keyword := by
    cases direction <;> decide
  have hkind (kind : JoinKind) : Stands kind.keyword := by cases kind <;> decide
  constructor
  case columns =>
    intro column hcolumn
    obtain ⟨hexpression, hname⟩ := hcolumns column hcolumn
    exact hexpression.withAlias (by decide) hname
  case source => exact htable.withAlias (by decide) halias
  case joins =>
    intro join hjoin
    obtain ⟨hjoined, hname⟩ := hjoins join hjoin
    exact ((hkind join.kind).glue (by decide) (hjoined.withAlias (by decide) hname)).glue
      (by decide) (hconditions join hjoin)
  case groupBy => exact hgroupBy
  case orderBy =>
    intro key hkey
    exact (horderBy key hkey).glue (by decide) (hdirection key.direction)

/-- The selection under other conditions. -/
def restrict (select : Select) (filters : List String) (having? : Option String) : Select :=
  { select with filters, having? }

theorem leads_margin (depth : Nat) : Leads (margin depth) := by
  induction depth with
  | zero => decide
  | succ depth ih =>
    have hmargin : margin (depth + 1) = margin depth ++ "  " := by
      rw [← String.toList_inj, String.toList_append, margin, margin, String.toList_ofList,
        String.toList_ofList, Nat.mul_succ, List.replicate_add]
      rfl
    rw [hmargin]
    exact ih.append (by decide)

variable {select : Select} {firsts seconds : List String} {first? second? : Option String}

theorem columnLines_alike (h : select.Fixed) (depth : Nat) :
    Alike ("SELECT\n" ++ select.columnLines depth) ("SELECT\n" ++ select.columnLines depth) := by
  have hmargin : Leads (margin depth ++ "  ") := (leads_margin depth).append (by decide)
  have hcolumns := Alike.intercalate (by decide : Joins ",\n")
    (Sql.forall₂_append_lead hmargin (Sql.forall₂_alike h.columns))
  rw [List.map_map] at hcolumns
  exact hcolumns.append_lead (by decide)

theorem whereClause_alike (depth : Nat) (hfilters : List.Forall₂ Alike firsts seconds) :
    Option.Rel Alike ((select.restrict firsts first?).whereClause depth)
      ((select.restrict seconds second?).whereClause depth) := by
  have hseparator : Joins ("\n" ++ margin depth ++ "  AND ") :=
    ((by decide : Joins "\n").append (leads_margin depth)).append (by decide)
  have hjoined := (Alike.intercalate hseparator hfilters).append_lead (by decide : Leads "WHERE ")
  cases hfilters with
  | nil => exact .none
  | cons hhead htail => exact .some hjoined

theorem groupByClause_alike (h : select.Fixed) :
    Option.Rel Alike select.groupByClause select.groupByClause := by
  have hnames : List.Forall₂ Alike select.groupBy select.groupBy :=
    List.forall₂_same.2 fun name hname ↦ (h.groupBy name hname).alike
  unfold groupByClause
  split
  · exact .none
  · exact .some ((Alike.intercalate (by decide) hnames).append_lead (by decide))

theorem orderByClause_alike (h : select.Fixed) :
    Option.Rel Alike select.orderByClause select.orderByClause := by
  have hkeys := Sql.forall₂_alike h.orderBy
  unfold orderByClause
  split
  · exact .none
  · exact .some ((Alike.intercalate (by decide) hkeys).append_lead (by decide))

theorem havingClause_alike (hhaving : Option.Rel Alike first? second?) :
    Option.Rel Alike (select.restrict firsts first?).havingClause
      (select.restrict seconds second?).havingClause := by
  cases hhaving with
  | none => exact .none
  | some halike => exact .some (halike.append_lead (by decide))

theorem clauses_alike (h : select.Fixed) (depth : Nat)
    (hfilters : List.Forall₂ Alike firsts seconds) (hhaving : Option.Rel Alike first? second?) :
    List.Forall₂ Alike ((select.restrict firsts first?).clauses depth)
      ((select.restrict seconds second?).clauses depth) := by
  have hsource : Alike ("FROM " ++ select.source.text) ("FROM " ++ select.source.text) :=
    h.source.alike.append_lead (by decide)
  have hhead : List.Forall₂ Alike
      ["SELECT\n" ++ select.columnLines depth, "FROM " ++ select.source.text]
      ["SELECT\n" ++ select.columnLines depth, "FROM " ++ select.source.text] :=
    .cons (columnLines_alike h depth) (.cons hsource .nil)
  have hjoins := Sql.forall₂_alike h.joins
  have hwhere : List.Forall₂ Alike ((select.restrict firsts first?).whereClause depth).toList
      ((select.restrict seconds second?).whereClause depth).toList :=
    Sql.forall₂_toList (whereClause_alike depth hfilters)
  have hhavingClause : List.Forall₂ Alike (select.restrict firsts first?).havingClause.toList
      (select.restrict seconds second?).havingClause.toList :=
    Sql.forall₂_toList (havingClause_alike hhaving)
  have hgroupBy := Sql.forall₂_toList (groupByClause_alike h)
  have horderBy := Sql.forall₂_toList (orderByClause_alike h)
  exact List.rel_append (List.rel_append (List.rel_append (List.rel_append
    (List.rel_append hhead hjoins) hwhere) hgroupBy) hhavingClause) horderBy

/-- A selection under alike conditions. -/
theorem text_alike (h : select.Fixed) (depth : Nat)
    (hfilters : List.Forall₂ Alike firsts seconds) (hhaving : Option.Rel Alike first? second?) :
    Alike ((select.restrict firsts first?).text depth)
      ((select.restrict seconds second?).text depth) :=
  Alike.intercalate (by decide) (Sql.forall₂_append_lead (leads_margin depth)
    (clauses_alike h depth hfilters hhaving))

end Select

/-! ## Tables -/

theorem NamedTable.text_alike {name : String} {first second : Select} (hname : Stands name)
    (h : Alike (first.text 1) (second.text 1)) :
    Alike (NamedTable.text ⟨name, first⟩) (NamedTable.text ⟨name, second⟩) := by
  obtain ⟨tokens, hlexes, hquiet⟩ := hname
  have hopening : Sql.Settles (name ++ " AS (\n")
      ((tokens ++ Token.spaced "AS") ++ .symbol '(' :: [.blank '\n']) := by
    have hgap : Sql.Separates " AS (\n" (Token.spaced "AS" ++ [.symbol '(', .blank '\n']) := by
      decide
    rw [List.append_assoc]
    exact hlexes.append_separates hgap
  have hclosing : Sql.Separates "\n)" ([.blank '\n'] ++ .symbol ')' :: []) := by decide
  exact h.enclose hopening hclosing
    ⟨hquiet.append (by decide), by decide, by decide, Sql.quiet_nil⟩

end StagedQuery
