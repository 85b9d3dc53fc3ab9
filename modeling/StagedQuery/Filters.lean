import StagedQuery.Condition.Rule

/-!
# Filters

One condition is rendered three times, once for each stage.  A rule adds its text at the stage of
its field only, and adds none if it says nothing.  A group joins the texts that its children add;
if none does, it says nothing either.  What says nothing is rendered as one fixed text, and every
level of a condition compares with that text to tell whether anything is left.
-/

namespace StagedQuery

/-- The condition that restricts nothing. -/
def unrestricted : String := "1=1"

/-- The clauses of the stages. -/
structure Filters where
  raw : Option String
  groupCondition : Option String
  postAggregate : Option String
deriving DecidableEq

/-- The clause that a text stands for. -/
def Filters.clauseOfText? (text : String) : Option String :=
  if text = unrestricted then none else some text

/-- The text of a rule, which restricts nothing if the rule states no condition. -/
def Rule.translate (rule : Rule) (reference : String) (type : FieldType) : String :=
  (rule.fragment reference type).toOption.getD unrestricted

namespace Condition

/-- The text of a group to which its children add the given texts. -/
def clauseOfParts (combinator : Combinator) (negated : Bool) : List String → String
  | [] => unrestricted
  | parts => joinTexts combinator negated parts

mutual

/-- The text that a child adds to its group at a stage, if it adds any.  A rule on an unknown field
is an error at every stage. -/
def part? (stage : Stage) : Condition Rule → Except UnknownField (Option String)
  | .leaf rule => do
    let field ← Catalog.lookup rule.field
    if field.stage = stage then
      return Filters.clauseOfText? (rule.translate field.reference field.type)
    else return none
  | .group combinator negated children => do
    let clause := clauseOfParts combinator negated (← parts stage children)
    return (Filters.clauseOfText? clause).map fun clause ↦ "(" ++ clause ++ ")"

/-- The texts that children add to their group. -/
def parts (stage : Stage) : List (Condition Rule) → Except UnknownField (List String)
  | [] => return []
  | child :: rest => return (← child.part? stage).toList ++ (← parts stage rest)

end

end Condition

/-- The text of a condition at a stage. -/
def Group.render (tree : Group Rule) (stage : Stage) : Except UnknownField String :=
  return Condition.clauseOfParts tree.combinator tree.negated
    (← Condition.parts stage tree.children)

namespace Filters

/-- The clauses of a condition, unless a rule names an unknown field. -/
def ofRules (tree : Group Rule) : Except UnknownField Filters := do
  let raw ← tree.render .raw
  let groupCondition ← tree.render .groupCondition
  let postAggregate ← tree.render .postAggregate
  return ⟨clauseOfText? raw, clauseOfText? groupCondition, clauseOfText? postAggregate⟩

def clause? (filters : Filters) : Stage → Option String
  | .raw => filters.raw
  | .groupCondition => filters.groupCondition
  | .postAggregate => filters.postAggregate

/-- The condition of a stage as a text, which is always present. -/
def text (filters : Filters) (stage : Stage) : String :=
  (filters.clause? stage).getD unrestricted

end Filters

end StagedQuery
