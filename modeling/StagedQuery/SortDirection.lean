/-!
# Sort Directions
-/

namespace StagedQuery

inductive SortDirection where
  | ascending
  | descending
deriving DecidableEq

namespace SortDirection

def keyword : SortDirection → String
  | .ascending => "ASC"
  | .descending => "DESC"

/-- The accepted spellings, all upper or all lower case. -/
def spellings : List (String × SortDirection) :=
  [("ASC", .ascending), ("asc", .ascending), ("DESC", .descending), ("desc", .descending)]

end SortDirection

end StagedQuery
