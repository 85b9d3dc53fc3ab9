import StagedQuery.Condition.Rule
import StagedQuery.Json.Text

/-!
# Conditions as JSON

A rule is the record of its field, operator and value, and a group that of its combinator,
negation and rules.  A root is read from a document in the order of its text.  Each child of a
group is first read as a value, so its repeated keys are already settled and its fields are met in
the order of their names; it is a group exactly when it is an object with the key `rules`.
-/

namespace StagedQuery

open Json (Document DoubleReader Head Layout Mismatch ReadError Reader)

/-! ## Fields -/

/-- The combinator that a value asks for: OR by its name in any case, and AND by anything else. -/
def Combinator.ofHead (head : Head) : Except Mismatch Combinator :=
  head.asOptionalText.map fun name ↦
    if name.any fun name ↦ name.toList.map Char.toLower = ['o', 'r'] then .or else .and

def Combinator.name : Combinator → String
  | .and => "and"
  | .or => "or"

/-- The name of an operator; where null is written it is empty, which names none. -/
def Rule.operatorOfHead (head : Head) : Except Mismatch String :=
  head.asOptionalText.map (·.getD "")

def Rule.layout : Layout := ⟨"Rule", 3⟩

def Group.layout : Layout := ⟨"RuleGroup", 3⟩

/-! ## Children -/

namespace Rule

/-- Reads a rule from the members of an object.  Its fields are met in the order of their names.
-/
def ofMembers (members : List (String × Json)) : Except Mismatch Rule := do
  let field ← (members.lookup "field").mapM fun value ↦ value.head.asText
  let operator ← (members.lookup "operator").mapM fun value ↦ operatorOfHead value.head
  match field with
  | none => throw (.missingField "field")
  | some field =>
    return { field, operator := operator.getD "", value := (members.lookup "value").getD .null }

/-- Reads a rule from an array of its fields. -/
def ofItems (items : List Json) : Except Mismatch Rule := do
  let field ← match items[0]? with
    | some value => value.head.asText
    | none => throw (.tooFewElements 0 layout)
  let operator ← match items[1]? with
    | some value => operatorOfHead value.head
    | none => pure ""
  if layout.size < items.length then throw (.tooManyElements items.length)
  return { field, operator, value := items[2]?.getD .null }

/-- Reads a rule from a value that is no group. -/
def ofJson : Json → Except Mismatch Rule
  | .object members => ofMembers members
  | .array items => ofItems items
  | value => .error (.wrongType value.head (.record layout))

end Rule

namespace Condition

mutual

/-- Reads a child of a group. -/
def ofJson : Json → Except Mismatch (Condition Rule)
  | .object members =>
    if (members.lookup "rules").isSome then do
      let combinator ← (members.lookup "combinator").mapM fun value ↦ Combinator.ofHead value.head
      let negated ← (members.lookup "not").mapM fun value ↦ value.head.asBool
      let children ← childrenOfMembers members
      return .group (combinator.getD .and) (negated.getD false) children
    else (Rule.ofMembers members).map .leaf
  | value => (Rule.ofJson value).map .leaf

/-- Reads the children under the key `rules`. -/
def childrenOfMembers : List (String × Json) → Except Mismatch (List (Condition Rule))
  | [] => .ok []
  | (key, value) :: members =>
    if key = "rules" then childrenOfJson value else childrenOfMembers members

def childrenOfJson : Json → Except Mismatch (List (Condition Rule))
  | .array items => childrenOfItems items
  | value => .error (.wrongType value.head .sequence)

def childrenOfItems : List Json → Except Mismatch (List (Condition Rule))
  | [] => .ok []
  | item :: items => return (← ofJson item) :: (← childrenOfItems items)

end

/-- Reads a child of a group that nests at most so many levels. -/
def reader (levels : Nat) : Reader (Condition Rule) := fun document ↦ do
  let value ← Reader.value levels document
  (ofJson value).mapError .mismatch

end Condition

/-! ## Roots -/

namespace Rule

/-- What is known of a rule while its members are read. -/
structure Draft where
  field : Option String := none
  operator : Option String := none
  value : Option Json := none

def Draft.member (levels : Nat) (draft : Draft) (key : String) : Reader Draft := fun document ↦ do
  match key with
  | "field" =>
    return { draft with field := ← Reader.once "field" draft.field (.plain Head.asText) document }
  | "operator" =>
    let operator ← Reader.once "operator" draft.operator (.plain operatorOfHead) document
    return { draft with operator }
  | "value" =>
    return { draft with value := ← Reader.once "value" draft.value (.value levels) document }
  | _ =>
    Reader.skip document
    return draft

/-- Reads a rule that nests at most `levels + 1` levels. -/
def reader (levels : Nat) : Reader Rule
  | .object members closed => do
    let draft ← Reader.members (Draft.member levels) {} members closed
    return {
      field := ← Reader.require "field" draft.field
      operator := draft.operator.getD ""
      value := draft.value.getD .null }
  | .array items closed => do
    let field ← Reader.element layout items closed 0 none (.plain Head.asText)
    let operator ← Reader.element layout items closed 1 (some "") (.plain operatorOfHead)
    let value ← Reader.element layout items closed 2 (some .null) (.value levels)
    Reader.endElements layout items closed
    return { field, operator, value }
  | document => Reader.plain (fun head ↦ .error (.wrongType head (.record layout))) document

/-- Reads a rule from a text. -/
def ofText [DoubleReader] (text : String) : Except ReadError Rule :=
  (reader (Json.nestingLimit - 1)).run text

end Rule

namespace Group

/-- What is known of a group while its members are read. -/
structure Draft where
  combinator : Option Combinator := none
  negated : Option Bool := none
  children : Option (List (Condition Rule)) := none

def Draft.member (levels : Nat) (draft : Draft) (key : String) : Reader Draft := fun document ↦ do
  match key with
  | "combinator" =>
    let combinator ←
      Reader.once "combinator" draft.combinator (.plain Combinator.ofHead) document
    return { draft with combinator }
  | "not" =>
    return { draft with negated := ← Reader.once "not" draft.negated (.plain Head.asBool) document }
  | "rules" =>
    let children ←
      Reader.once "rules" draft.children (.list (Condition.reader levels)) document
    return { draft with children }
  | _ =>
    Reader.skip document
    return draft

/-- Reads a group that nests at most `levels + 2` levels. -/
def reader (levels : Nat) : Reader (Group Rule)
  | .object members closed => do
    let draft ← Reader.members (Draft.member levels) {} members closed
    return {
      combinator := draft.combinator.getD .and
      negated := draft.negated.getD false
      children := draft.children.getD [] }
  | .array items closed => do
    let combinator ← Reader.element layout items closed 0 (some .and) (.plain Combinator.ofHead)
    let negated ← Reader.element layout items closed 1 (some false) (.plain Head.asBool)
    let children ←
      Reader.element layout items closed 2 (some []) (.list (Condition.reader levels))
    Reader.endElements layout items closed
    return { combinator, negated, children }
  | document => Reader.plain (fun head ↦ .error (.wrongType head (.record layout))) document

/-- Reads a group from a text. -/
def ofText [DoubleReader] (text : String) : Except ReadError (Group Rule) :=
  (reader (Json.nestingLimit - 2)).run text

end Group

/-! ## Writing -/

def Rule.toJson (rule : Rule) : Json :=
  .object
    [("field", .string rule.field), ("operator", .string rule.operator), ("value", rule.value)]

/-- The object of a group, given its children. -/
def Group.recordJson (combinator : Combinator) (negated : Bool) (children : List Json) : Json :=
  .object
    [("combinator", .string combinator.name), ("not", .bool negated), ("rules", .array children)]

namespace Condition

mutual

def toJson : Condition Rule → Json
  | .leaf rule => rule.toJson
  | .group combinator negated children => Group.recordJson combinator negated (toJsonAll children)

def toJsonAll : List (Condition Rule) → List Json
  | [] => []
  | child :: rest => child.toJson :: toJsonAll rest

end

end Condition

def Group.toJson (group : Group Rule) : Json :=
  recordJson group.combinator group.negated (Condition.toJsonAll group.children)

end StagedQuery
