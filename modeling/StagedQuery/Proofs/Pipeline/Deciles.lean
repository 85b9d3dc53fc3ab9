import StagedQuery.Pipeline.Basic
import StagedQuery.Proofs.Chart.Faults
import StagedQuery.Proofs.Statement.Evaluation
import Mathlib.Tactic.NormNum

/-!
# Deciles of Articles

The decile of a metric is the floor of ten times the percentile rank of an article among those of
its year and journal.  It never falls when the metric grows.  As the rank reaches one, there is an
eleventh bucket: it holds exactly the article that alone has the largest value in its partition,
unless it is alone in there.
-/

namespace StagedQuery.Pipeline

open Sql (Formula Row Window agreeing)

/-! ## What the columns say -/

/-- The window of the percentile rank of a metric. -/
def rankWindow (metric : Field) : Window := ⟨rankPartition, metric.name⟩

def rankWindows : List (String × Window) :=
  Catalog.articleFields.map fun metric ↦ (rankName metric, rankWindow metric)

/-- The name of the column that holds the decile of a metric. -/
def decileName (metric : Field) : String := metric.name ++ "_percentile_decile"

/-- What the column of a decile computes. -/
def decileFormula (metric : Field) : Formula :=
  .toInt (.floor (.divide (.multiply (.number ⟨1000, -1⟩)
    (.average (.column (rankName metric)))) (.number ⟨100, -1⟩)))

theorem windowed?_percentiles (rows : List Row) :
    percentiles.select.windowed? rows = some (rows.map (extended rankWindows rows)) := by
  have hplain : percentiles.select.ReadsAll ∧ percentiles.select.groupBy = [] := by decide
  have hcolumns : percentiles.select.columns =
      ⟨"c.*", none⟩ :: Catalog.articleFields.map rankColumn := rfl
  have hstar : OutputColumn.star? ⟨"c.*", none⟩ =
      some (percentiles.select.source.alias?.getD percentiles.select.source.table) := by
    decide
  have hwindows : (Catalog.articleFields.map rankColumn).mapM OutputColumn.window? =
      some rankWindows := by
    decide +kernel
  rw [Select.windowed?, if_pos hplain, hcolumns]
  dsimp only
  rw [if_pos hstar, hwindows, Option.map_some]

theorem formula?_decileColumn : ∀ metric ∈ Catalog.articleFields,
    Sql.formula? (decileColumn metric).expression = some (decileFormula metric) := by
  decide +kernel

variable {rows : List Row} {row : Row} {metric : Field}

theorem lookup_rankWindows : ∀ metric ∈ Catalog.articleFields,
    rankWindows.lookup (rankName metric) = some (rankWindow metric) := by
  decide

theorem extended_key {name : String} (h : name ∈ Catalog.keyColumns) :
    extended rankWindows rows row name = row name := by
  have hall : ∀ name ∈ Catalog.keyColumns, rankWindows.lookup name = none := by decide +kernel
  rw [extended, hall name h]

/-! ## Deciles -/

/-- The decile of a metric in a row. -/
def decile (metric : Field) (rows : List Row) (row : Row) : ℕ :=
  10 * ((rankWindow metric).rank rows row - 1) /
    (((rankWindow metric).peers rows row).length - 1)

theorem inGroup?_decileFormula {columns : String → Option ℚ} {above others : ℕ}
    (h : columns (rankName metric) = some ((above : ℚ) / others)) :
    (decileFormula metric).inGroup? [columns] = some ((10 * above / others : ℕ) : ℚ) := by
  have haverage : Formula.mean? ([columns].filterMap (Formula.column (rankName metric)).inRow?) =
      some ((above : ℚ) / others) := by
    have hvalue : (Formula.column (rankName metric)).inRow? columns =
        some ((above : ℚ) / others) := h
    rw [List.filterMap_cons_some hvalue, List.filterMap_nil, Formula.mean?_singleton]
  have hhundred : Decimal.toRat ⟨1000, -1⟩ = 100 := by norm_num [Decimal.toRat]
  have hten : Decimal.toRat ⟨100, -1⟩ = 10 := by norm_num [Decimal.toRat]
  have hfloor : ⌊100 * ((above : ℚ) / others) / 10⌋ = ((10 * above / others : ℕ) : ℤ) := by
    have hquotient : 100 * ((above : ℚ) / others) / 10 = ((10 * above : ℕ) : ℚ) / (others : ℕ) := by
      push_cast
      ring
    rw [hquotient, Rat.floor_natCast_div_natCast]
    rfl
  simp only [decileFormula, Formula.inGroup?, Formula.value?, haverage, hhundred, hten,
    Option.bind_eq_bind, Option.bind_some, Option.pure_def, OfNat.ofNat_ne_zero, if_false, hfloor,
    Int.cast_natCast, Formula.truncate_natCast]

variable (first second : Declaration)

/-- The last table, whatever the widths of its bins are. -/
def binned (first second : Declaration) : Select :=
  (aggregation [(.fitness, first), (.citationCount, second)]).select

theorem find?_decileName (hmetric : metric ∈ Catalog.articleFields) :
    (binned first second).columns.find? (fun column ↦ column.alias? = some (decileName metric)) =
      some (decileColumn metric) := by
  simp only [Catalog.articleFields, List.mem_cons, List.not_mem_nil, or_false] at hmetric
  rcases hmetric with rfl | rfl <;> rfl

theorem groupUses_binned :
    (binned first second).groupUses.map Sql.ColumnUse.name = Catalog.keyColumns := by
  have hkeys : (Catalog.keyColumns.flatMap fun key ↦ (Sql.columns? key).getD []).map
      Sql.ColumnUse.name = Catalog.keyColumns := by
    decide +kernel
  exact hkeys

/-- Each article is a group of its own, so its decile is computed from its own rank. -/
theorem shown?_binned (hmetric : metric ∈ Catalog.articleFields)
    (hkeys : (rows.map fun row ↦ Catalog.keyColumns.map row).Nodup) (hrow : row ∈ rows) :
    (binned first second).shown? (rows.map (extended rankWindows rows))
      (extended rankWindows rows row) (decileName metric) = some (decile metric rows row : ℚ) := by
  have hreads : (binned first second).ReadsAll := ⟨rfl, rfl, rfl⟩
  have hranked : ((rows.map (extended rankWindows rows)).map
      fun row ↦ Catalog.keyColumns.map row).Nodup := by
    have hsame (row : Row) : Catalog.keyColumns.map (extended rankWindows rows row) =
        Catalog.keyColumns.map row := List.map_congr_left fun name hname ↦ extended_key hname
    rw [List.map_map]
    simpa only [Function.comp_def, hsame] using hkeys
  have hgroup := Sql.agreeing_eq_singleton hranked (List.mem_map_of_mem hrow)
  have hrank : (extended rankWindows rows row (rankName metric)).number? =
      some ((((rankWindow metric).rank rows row - 1 : ℕ) : ℚ) /
        (((rankWindow metric).peers rows row).length - 1 : ℕ)) := by
    rw [extended, lookup_rankWindows metric hmetric]
    exact congrArg some ((rankWindow metric).percentRank_eq hrow)
  rw [Select.shown?, if_pos hreads, find?_decileName first second hmetric, groupUses_binned, hgroup]
  simp only [Option.bind_eq_bind, Option.bind_some, formula?_decileColumn metric hmetric,
    List.map_singleton]
  exact inGroup?_decileFormula hrank

theorem mul_div_eq_ten_iff {above others : ℕ} (h : above ≤ others) :
    10 * above / others = 10 ↔ 0 < others ∧ above = others := by
  rcases others.eq_zero_or_pos with rfl | hpositive
  · simp
  · rw [Nat.div_eq_iff hpositive]
    omega

variable (metric)

theorem decile_le_ten (hrow : row ∈ rows) : decile metric rows row ≤ 10 := by
  have hrank := (rankWindow metric).rank_le_length hrow
  apply Nat.div_le_of_le_mul
  rw [Nat.mul_comm]
  exact Nat.mul_le_mul_right 10 (Nat.sub_le_sub_right hrank 1)

/-- The last bucket holds at most one article of a partition. -/
theorem decile_eq_ten_iff (hrows : rows.Nodup) (hrow : row ∈ rows) :
    decile metric rows row = 10 ↔
      (∃ other ∈ agreeing rankPartition rows row, other ≠ row) ∧
        ∀ other ∈ agreeing rankPartition rows row, other ≠ row →
          other metric.name < row metric.name := by
  have hrank := (rankWindow metric).rank_le_length hrow
  have hpositive : 1 ≤ (rankWindow metric).rank rows row := Nat.le_add_left _ _
  have hmany := (rankWindow metric).two_le_length_iff hrows hrow
  have hlast := (rankWindow metric).rank_eq_length_iff hrows hrow
  calc
    _ ↔ 2 ≤ ((rankWindow metric).peers rows row).length ∧
        (rankWindow metric).rank rows row = ((rankWindow metric).peers rows row).length := by
      rw [decile, mul_div_eq_ten_iff (Nat.sub_le_sub_right hrank 1)]
      omega
    _ ↔ _ := and_congr hmany hlast

theorem decile_mono {other : Row} (hpeer : other ∈ agreeing rankPartition rows row)
    (hsmaller : other metric.name < row metric.name) :
    decile metric rows other ≤ decile metric rows row := by
  have hrank := (rankWindow metric).rank_mono hpeer hsmaller
  unfold decile
  rw [(rankWindow metric).peers_congr hpeer]
  exact Nat.div_le_div_right (Nat.mul_le_mul_left 10 (Nat.sub_le_sub_right hrank 1))

/-- The deciles of a metric in a query, over any articles with different keys: each of them is a
bucket from zero to nine, but for the article that alone has the largest value among several of its
year and journal, which is in a bucket ten.  A larger value never has a smaller decile. -/
theorem deciles_of_plan (chart : Chart) (filters : Filters) {rows : List Row}
    (hkeys : (rows.map fun row ↦ Catalog.keyColumns.map row).Nodup) :
    ∃ statement articles ranks groups ranked, plan chart filters = .ok statement ∧
      statement.select? "condition" = some articles ∧
      articles.groupBy = Catalog.keyColumns.map ("pp." ++ ·) ∧
      statement.select? "with_percentiles" = some ranks ∧ ranks.source.table = "condition" ∧
      statement.select? "aggregation" = some groups ∧
      groups.source.table = "with_percentiles" ∧ ranks.windowed? rows = some ranked ∧
      ∀ metric ∈ Catalog.articleFields, ∃ decile : Row → ℕ,
        List.Forall₂ (fun row extended ↦
          groups.shown? ranked extended (metric.name ++ "_percentile_decile") =
            some (decile row : ℚ)) rows ranked ∧
        ∀ row ∈ rows, decile row ≤ 10 ∧
          (decile row = 10 ↔ (∃ other ∈ agreeing rankPartition rows row, other ≠ row) ∧
            ∀ other ∈ agreeing rankPartition rows row, other ≠ row →
              other metric.name < row metric.name) ∧
          ∀ other ∈ agreeing rankPartition rows row, other metric.name < row metric.name →
            decile other ≤ decile row := by
  refine ⟨statement chart filters, (condition filters).select, percentiles.select,
    binned (fitnessWidth chart) (citationCountWidth chart),
    rows.map (extended rankWindows rows), plan_eq chart filters, rfl, rfl, rfl, rfl, rfl, rfl,
    windowed?_percentiles rows, fun metric hmetric ↦ ⟨decile metric rows, ?_, ?_⟩⟩
  · rw [List.forall₂_map_right_iff, List.forall₂_same]
    exact fun row hrow ↦ shown?_binned _ _ hmetric hkeys hrow
  · exact fun row hrow ↦ ⟨decile_le_ten metric hrow, decile_eq_ten_iff metric hkeys.of_map hrow,
      fun other hpeer hsmaller ↦ decile_mono metric hpeer hsmaller⟩

/-- An article of one year and journal. -/
def articleOf (eid : String) (fitness : ℚ) : Row
  | "cited_eid" => .text eid
  | "cited_journal" => .text "Journal"
  | "cited_pub_year" => .number 2015
  | "fitness" => .number fitness
  | _ => .null

theorem deciles_of_plan_pair :
    let rows := [articleOf "first" 1, articleOf "second" 2]
    (rows.map fun row ↦ Catalog.keyColumns.map row).Nodup ∧
      ∃ chart statement groups ranked, Chart.ofSettings .initial = .ok chart ∧
        plan chart ⟨none, none, none⟩ = .ok statement ∧
        statement.select? "aggregation" = some groups ∧
        ∃ decile : Row → ℕ,
          List.Forall₂ (fun row extended ↦
            groups.shown? ranked extended "fitness_percentile_decile" = some (decile row : ℚ))
            rows ranked ∧
          decile (articleOf "first" 1) ≤ decile (articleOf "second" 2) := by
  intro rows
  have hkeys : (rows.map fun row ↦ Catalog.keyColumns.map row).Nodup := by decide +kernel
  have houtcome := Chart.ofSettings_reportsFirst .initial
  rw [ChartSettings.faults_initial] at houtcome
  obtain ⟨chart, hchart⟩ := houtcome
  obtain ⟨statement, -, -, groups, ranked, hplan, -, -, -, -, hgroups, -, -, hdeciles⟩ :=
    deciles_of_plan chart ⟨none, none, none⟩ hkeys
  obtain ⟨decile, hshown, hrows⟩ := hdeciles .fitness (by decide)
  have hpeer : articleOf "first" 1 ∈ agreeing rankPartition rows (articleOf "second" 2) :=
    List.mem_cons_self
  have hsmaller : articleOf "first" 1 "fitness" < articleOf "second" 2 "fitness" := by
    decide +kernel
  exact ⟨hkeys, chart, statement, groups, ranked, hchart, hplan, hgroups, decile, hshown,
    (hrows _ (by simp [rows])).2.2 _ hpeer hsmaller⟩

/-- Of two articles of one year and journal with different values, the larger one is in the eleventh
bucket. -/
theorem deciles_zero_ten :
    let rows := [articleOf "first" 1, articleOf "second" 2]
    ∃ chart statement ranks groups ranked, Chart.ofSettings .initial = .ok chart ∧
      plan chart ⟨none, none, none⟩ = .ok statement ∧
      statement.select? "with_percentiles" = some ranks ∧
      statement.select? "aggregation" = some groups ∧ ranks.windowed? rows = some ranked ∧
      ranked.map (groups.shown? ranked · "fitness_percentile_decile") = [some 0, some 10] := by
  intro rows
  have hkeys : (rows.map fun row ↦ Catalog.keyColumns.map row).Nodup := by decide +kernel
  have houtcome := Chart.ofSettings_reportsFirst .initial
  rw [ChartSettings.faults_initial] at houtcome
  obtain ⟨chart, hchart⟩ := houtcome
  have hshown (row : Row) (hrow : row ∈ rows) :=
    shown?_binned (fitnessWidth chart) (citationCountWidth chart)
      (List.mem_cons_self : Field.fitness ∈ Catalog.articleFields) hkeys hrow
  have hdeciles : rows.map (decile .fitness rows) = [0, 10] := by decide +kernel
  refine ⟨chart, statement chart ⟨none, none, none⟩, percentiles.select,
    binned (fitnessWidth chart) (citationCountWidth chart), rows.map (extended rankWindows rows),
    hchart, plan_eq chart _, rfl, rfl, windowed?_percentiles rows, ?_⟩
  rw [List.map_map]
  calc
    _ = rows.map fun row ↦ some (decile .fitness rows row : ℚ) := List.map_congr_left hshown
    _ = (rows.map (decile .fitness rows)).map fun (bucket : ℕ) ↦ some (bucket : ℚ) := by
      rw [List.map_map]
      rfl
    _ = _ := by
      rw [hdeciles]
      norm_num

end StagedQuery.Pipeline
