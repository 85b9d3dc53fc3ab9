import StagedQuery.Operator
import StagedQuery.Proofs.Sql.Token
import StagedQuery.Text.Blank

/-!
# Tests

A test is what a condition says of one value: a keyword, or a comparison sign, and the operands
behind it.  The reader takes the longest piece of words and signs for the keyword; the keyword
decides how many operands follow and what stands between them.  An operand is a single token, so a
comma, a keyword or a parenthesis in a quoted literal is never taken for a part of the test.
-/

namespace StagedQuery.Sql

/-- An operand as it is written. -/
inductive Operand where
  /-- A quoted literal, by the text that it denotes. -/
  | quoted (text : String)
  /-- A number without quotes, by its text. -/
  | bare (text : String)
deriving DecidableEq

structure Test where
  keyword : String
  operands : List Operand
deriving DecidableEq

/-! ## The reader -/

namespace Token

/-- Whether a token can belong to a keyword or a sign, or stand beside one. -/
def leads : Token → Bool
  | .word _ | .blank _ => true
  | .symbol character => ['=', '!', '<', '>'].contains character
  | _ => false

/-- The text of tokens without the blanks at its ends. -/
def keyword (tokens : List Token) : String :=
  String.ofList (Text.trim (tokens.flatMap text))

def operand? : Token → Option Operand
  | .literal text => some (.quoted (String.ofList text))
  | .number text => some (.bare (String.ofList text))
  | _ => none

end Token

namespace Test

/-- The keywords and signs, with the operands that each of them takes. -/
def keywords : List (String × Arity) :=
  [("=", .scalar), ("!=", .scalar), ("<", .scalar), ("<=", .scalar), (">", .scalar),
    (">=", .scalar), ("LIKE", .scalar), ("NOT LIKE", .scalar), ("BETWEEN", .range),
    ("NOT BETWEEN", .range), ("IN", .list), ("NOT IN", .list), ("IS NULL", .none),
    ("IS NOT NULL", .none)]

/-- The items of a list behind its opening parenthesis.  The list has an item, and the text ends
with it. -/
def items? : List Token → Option (List Operand)
  | [item, .symbol ')'] => do return [← item.operand?]
  | item :: .symbol ',' :: rest => do return (← item.operand?) :: (← items? rest)
  | _ => none

/-- The operands in tokens without blanks. -/
def operands? : Arity → List Token → Option (List Operand)
  | .none, [] => some []
  | .scalar, [operand] => do return [← operand.operand?]
  | .range, [low, conjunction, high] =>
    if conjunction = .word "AND".toList then do return [← low.operand?, ← high.operand?] else none
  | .list, .symbol '(' :: rest => items? rest
  | _, _ => none

def ofTokens? (tokens : List Token) : Option Test := do
  let keyword := Token.keyword (tokens.takeWhile Token.leads)
  let arity ← keywords.lookup keyword
  let rest := (tokens.dropWhile Token.leads).filter fun token ↦ !token.isBlank
  return ⟨keyword, ← operands? arity rest⟩

/-- Reads a test from a text. -/
def ofText? (text : String) : Option Test := (tokens? text).bind ofTokens?

/-! ## Keywords before operands -/

/-- The tokens are a keyword, perhaps between blanks, that takes operands of the arity. -/
def IsLead (tokens : List Token) (keyword : String) (arity : Arity) : Prop :=
  tokens.all Token.leads ∧ Token.keyword tokens = keyword ∧ keywords.lookup keyword = some arity

instance (tokens : List Token) (keyword : String) (arity : Arity) :
    Decidable (IsLead tokens keyword arity) :=
  inferInstanceAs (Decidable (_ ∧ _ ∧ _))

/-- Behind a keyword stand its operands. -/
theorem ofTokens?_append {lead tail : List Token} {keyword : String} {arity : Arity}
    (hlead : IsLead lead keyword arity) (htail : ∀ token ∈ tail.head?, token.leads = false) :
    ofTokens? (lead ++ tail) =
      (operands? arity (tail.filter fun token ↦ !token.isBlank)).map (Test.mk keyword) := by
  obtain ⟨hall, rfl, harity⟩ := hlead
  have hleads : ∀ token ∈ lead, token.leads := List.all_eq_true.1 hall
  have htake : tail.takeWhile Token.leads = [] := by
    cases tail with
    | nil => rfl
    | cons token rest => rw [List.takeWhile_cons, htail token rfl, if_neg (by decide)]
  have hdrop : tail.dropWhile Token.leads = tail := by
    have hsplit := List.takeWhile_append_dropWhile (p := Token.leads) (l := tail)
    rwa [htake, List.nil_append] at hsplit
  rw [ofTokens?, List.takeWhile_append_of_pos hleads, List.dropWhile_append_of_pos hleads, htake,
    hdrop, List.append_nil, harity]
  simp only [Option.bind_eq_bind, Option.bind_some]
  cases operands? arity (tail.filter fun token ↦ !token.isBlank) <;> rfl

end Test

end StagedQuery.Sql
