import StagedQuery.Statement.Basic

/-!
# Tables of Pairs

The first four tables of the query.  One row stands for one article that cites another one, with
the bibliographic columns of both sides and the category and fitness of the cited side.
-/

namespace StagedQuery.Pipeline

/-- A bibliographic column: its name after the prefix of a side, and its expression over the alias
of that side. -/
def sideColumns (source side : String) : List OutputColumn :=
  let date := source ++ ".[prism:coverDate]"
  [⟨source ++ ".paper_id", side ++ "_id"⟩,
    ⟨source ++ ".eid", side ++ "_eid"⟩,
    ⟨source ++ ".[prism:doi]", side ++ "_doi"⟩,
    ⟨source ++ ".[dc:title]", side ++ "_title"⟩,
    ⟨source ++ ".[prism:publicationName]", side ++ "_journal"⟩,
    ⟨"CAST(" ++ date ++ " AS date)", side ++ "_pub_date"⟩,
    ⟨"YEAR(" ++ date ++ ")", side ++ "_pub_year"⟩,
    ⟨"MONTH(" ++ date ++ ")", side ++ "_pub_month"⟩,
    ⟨"DAY(" ++ date ++ ")", side ++ "_pub_day"⟩]

/-- The days between the dates of the two sides. -/
def lagColumn : OutputColumn :=
  ⟨"CAST(DATEDIFF(DAY, p.[prism:coverDate], c.[prism:coverDate]) AS float)", "citation_time_days"⟩

/-- Every pair of a citing and a cited article that both have a date. -/
def base : NamedTable where
  name := "base"
  select :=
    { columns := sideColumns "p" "cited" ++ sideColumns "c" "citing" ++ [lagColumn]
      source := ⟨"scopus.dbo.[relationship]", "r"⟩
      joins :=
        [⟨.inner, ⟨"scopus.dbo.[paper]", "p"⟩, "p.paper_id = r.paper_id_1"⟩,
          ⟨.inner, ⟨"scopus.dbo.[citation]", "c"⟩, "c.paper_id = r.paper_id_2"⟩]
      filters :=
        ["r.[relationship] = 'citing'", "p.[prism:coverDate] IS NOT NULL",
          "c.[prism:coverDate] IS NOT NULL"] }

/-- One category for each article. -/
def category : NamedTable where
  name := "cat"
  select :=
    { columns :=
        [⟨"target_eid", none⟩, ⟨"MAX(category)", "category"⟩,
          ⟨"MAX(category_raw)", "category_raw"⟩]
      source := ⟨"category.dbo.[article]", none⟩
      groupBy := ["target_eid"] }

/-- One fitness for each article. -/
def fitness : NamedTable where
  name := "fit"
  select :=
    { columns := [⟨"target_eid", none⟩, ⟨"MAX(CAST(fitness AS float))", "fitness"⟩]
      source := ⟨"fitness.dbo.[article]", none⟩
      groupBy := ["target_eid"] }

/-- The pairs with the category and the fitness of the cited article, where it has them. -/
def perPair : NamedTable where
  name := "per_pair"
  select :=
    { columns :=
        [⟨"b.*", none⟩, ⟨"ca.category", "cited_category"⟩,
          ⟨"ca.category_raw", "cited_category_raw"⟩, ⟨"f.fitness", "cited_fitness"⟩]
      source := ⟨"base", "b"⟩
      joins :=
        [⟨.left, ⟨"cat", "ca"⟩, "ca.target_eid = b.cited_eid"⟩,
          ⟨.left, ⟨"fit", "f"⟩, "f.target_eid = b.cited_eid"⟩] }

end StagedQuery.Pipeline
