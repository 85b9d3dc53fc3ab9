/-!
# Quoted Literals

A text becomes a literal of the query language between single quotes, with every quote inside it
written twice.
-/

namespace StagedQuery.Text

/-- A text with every single quote written twice. -/
def doubleQuotes (text : List Char) : List Char :=
  text.flatMap fun c ↦ if c = '\'' then ['\'', '\''] else [c]

/-- The literal that denotes a text. -/
def quoted (text : String) : String :=
  String.ofList ('\'' :: doubleQuotes text.toList ++ ['\''])

end StagedQuery.Text
