import StagedQuery.Proofs.Condition.Wrapping
import StagedQuery.Proofs.Json.Written

/-!
# Conditions as They Are Sent

Anything can stand under the operator and the value of a rule.  The conditions of this module keep
both as they are sent, so that they do not depend on what is read from them.  Any value is read
under the key of the value; under that of the operator nothing but a text or null is, and anything
else is a fault of the whole condition.
-/

namespace StagedQuery

open Json (Document DoubleReader Mismatch nestingLimit)

/-- A rule as it is sent: the name of a field, and whatever stands under the other two keys. -/
structure SentRule where
  field : String
  operator : Option Json
  value : Option Json

namespace SentRule

/-- The fault of an operator that is neither a text nor null. -/
def fault? (sent : SentRule) : Option Mismatch :=
  match sent.operator with
  | none | some .null | some (.string _) => none
  | some operator => some (.wrongType operator.head .text)

/-- The rule that is read if the operator has no fault.  No operator is named by anything that is
not a text. -/
def rule (sent : SentRule) : Rule where
  field := sent.field
  operator :=
    match sent.operator with
    | some (.string name) => name
    | _ => ""
  value := sent.value.getD .null

end SentRule

/-! ## Groups -/

/-- The combinator of a group, if nothing, null or a text stands under its key. -/
def Combinator.sent? : Option Json → Option Combinator
  | none | some .null => some .and
  | some (.string name) => some (if name.toList.map Char.toLower = ['o', 'r'] then .or else .and)
  | some _ => none

/-- Whether a group is negated, if nothing or a boolean stands under its key. -/
def Group.sentNegation? : Option Json → Option Bool
  | none => some false
  | some (.bool negated) => some negated
  | some _ => none

namespace Condition

/-- The condition is sent as the value.  A group is an object with an array of rules, a rule any
other object that names a field by a text; further keys do not matter. -/
inductive IsSentAs : Condition SentRule → Json → Prop
  | leaf {members : List (String × Json)} {sent : SentRule}
    (hrules : members.lookup "rules" = none)
    (hfield : members.lookup "field" = some (.string sent.field))
    (hoperator : members.lookup "operator" = sent.operator)
    (hvalue : members.lookup "value" = sent.value) :
    IsSentAs (.leaf sent) (.object members)
  | group {members : List (String × Json)} {combinator : Combinator} {negated : Bool}
    {children : List (Condition SentRule)} {items : List Json}
    (hcombinator : Combinator.sent? (members.lookup "combinator") = some combinator)
    (hnegated : Group.sentNegation? (members.lookup "not") = some negated)
    (hrules : members.lookup "rules" = some (.array items))
    (hchildren : List.Forall₂ IsSentAs children items) :
    IsSentAs (.group combinator negated children) (.object members)

end Condition

/-! ## Reading -/

theorem Combinator.exists_of_sent? {value? : Option Json} {combinator : Combinator}
    (h : sent? value? = some combinator) :
    ∃ read, value?.mapM (fun value ↦ ofHead value.head) = .ok read ∧
      read.getD .and = combinator := by
  cases value? with
  | none =>
    cases h
    exact ⟨none, rfl, rfl⟩
  | some value =>
    cases value with
    | null =>
      cases h
      exact ⟨some .and, rfl, rfl⟩
    | string name =>
      cases h
      exact ⟨_, rfl, by simp⟩
    | _ => cases h

theorem Group.exists_of_sentNegation? {value? : Option Json} {negated : Bool}
    (h : sentNegation? value? = some negated) :
    ∃ read, value?.mapM (fun value ↦ value.head.asBool) = .ok read ∧
      read.getD false = negated := by
  cases value? with
  | none =>
    cases h
    exact ⟨none, rfl, rfl⟩
  | some value =>
    cases value with
    | bool negated =>
      cases h
      exact ⟨_, rfl, rfl⟩
    | _ => cases h

theorem Rule.ofMembers_eq {members : List (String × Json)} {sent : SentRule}
    (hfield : members.lookup "field" = some (.string sent.field))
    (hoperator : members.lookup "operator" = sent.operator)
    (hvalue : members.lookup "value" = sent.value) :
    ofMembers members = okUnless sent.fault? sent.rule := by
  obtain ⟨field, operator, value⟩ := sent
  rw [ofMembers, hfield, hoperator, hvalue]
  cases operator with
  | none => rfl
  | some operator => cases operator <;> rfl

namespace Condition

theorem childrenOfItems_eq {children : List (Condition SentRule)} {items : List Json}
    (hchildren : List.Forall₂ IsSentAs children items)
    (hread : ∀ child ∈ children, ∀ value, child.IsSentAs value →
      ofJson value = okUnless (child.leaves.findSome? SentRule.fault?) (child.map SentRule.rule)) :
    childrenOfItems items = okUnless ((children.flatMap leaves).findSome? SentRule.fault?)
      (children.map (map SentRule.rule)) := by
  induction hchildren with
  | nil => rfl
  | cons hhead htail ih =>
    obtain ⟨hchild, hrest⟩ := List.forall_mem_cons.1 hread
    rw [childrenOfItems, hchild _ hhead, ih hrest, List.flatMap_cons, List.findSome?_append,
      List.map_cons]
    simp only [okUnless_bind_pure]
    exact okUnless_bind _ _ _ _

/-- Reading a condition as it was sent fails with the first operator that is neither a text nor
null, and otherwise gives its rules in the same groups. -/
theorem ofJson_eq_of_isSentAs {tree : Condition SentRule} {value : Json} (h : tree.IsSentAs value) :
    ofJson value = okUnless (tree.leaves.findSome? SentRule.fault?) (tree.map SentRule.rule) := by
  induction tree generalizing value with
  | leaf sent =>
    cases h with
    | leaf hrules hfield hoperator hvalue =>
      rw [ofJson, if_neg (by simp [hrules]), Rule.ofMembers_eq hfield hoperator hvalue,
        map_okUnless, leaves_leaf, List.findSome?_singleton, map_leaf]
  | group combinator negated children ih =>
    cases h with
    | group hcombinator hnegated hrules hchildren =>
      obtain ⟨readCombinator, hreadCombinator, rfl⟩ := Combinator.exists_of_sent? hcombinator
      obtain ⟨readNegated, hreadNegated, rfl⟩ := Group.exists_of_sentNegation? hnegated
      have hread := childrenOfItems_eq hchildren fun child hchild _ hvalue ↦ ih child hchild hvalue
      rw [ofJson, if_pos (by simp [hrules]), hreadCombinator, hreadNegated, childrenOfMembers_eq,
        hrules]
      simp only [childrenOfJson, hread, leaves_group, map_group]
      exact okUnless_bind_pure _ _ _

end Condition

/-! ## Texts -/

variable [DoubleReader]

/-- An object with rules that is in order is written as a text with rules, if the doubles in it are
read back.  Where it has none this asks for nothing. -/
theorem IsRulesText.of_fits {levels : Nat} {members : List (String × Json)}
    (h : (Json.object members).Fits levels)
    (hdoubles : ∀ double ∈ (Json.object members).doubles, DoubleReader.Recovers double)
    (hrules : "rules" ∈ members.map Prod.fst) :
    IsRulesText levels (Json.object members).text (Json.memberDocuments members)
      (.object members) := by
  obtain ⟨-, -, hordered, -⟩ := Json.fits_object.1 h
  have hkeys : (Json.memberDocuments members).map Prod.fst =
      (members.map Prod.fst).map some := by
    rw [Json.memberDocuments_eq, List.map_map, List.map_map]
    rfl
  have hdistinct {first second : String × Json} (hbefore : Json.KeyBefore first second) :
      first.1 ≠ second.1 := by
    intro hsame
    rw [Json.KeyBefore, hsame] at hbefore
    exact String.lt_irrefl _ hbefore
  have hnodup : (members.map Prod.fst).Nodup := List.pairwise_map.2 (hordered.imp hdistinct)
  exact {
    tokens := Document.ofTokens_text hdoubles
    keys := hkeys ▸ hnodup.map (Option.some_injective _)
    rules := hkeys ▸ List.mem_map_of_mem hrules
    denotes := Json.denotes_toDocument h }

/-- Reading the text of a condition as it was sent fails with the first operator that is neither a
text nor null, and otherwise gives its rules in the same groups. -/
theorem Group.ofText_eq_of_isSentAs {text : String} {members : List (Option String × Document)}
    {value : Json} {tree : Group SentRule} (htext : IsRulesText nestingLimit text members value)
    (hsent : tree.toCondition.IsSentAs value) :
    ofText text =
      (okUnless (tree.leaves.findSome? SentRule.fault?) (tree.map SentRule.rule)).mapError
        .mismatch := by
  have hread := Condition.ofJson_eq_of_isSentAs hsent
  rw [← leaves_eq] at hread
  cases hfault : tree.leaves.findSome? SentRule.fault? with
  | none =>
    rw [hfault, ← toCondition_map] at hread
    exact (ofText_eq_ok_iff htext).2 hread
  | some fault =>
    obtain ⟨-, below, values, hbelow, hvalues, rfl⟩ := Document.denotes_object.1 htext.denotes
    obtain rfl : nestingLimit - 2 + 1 = below := Nat.succ.inj hbelow
    obtain ⟨combinator, negated, children⟩ := tree
    rw [toCondition, Json.ofMembers_eq] at hsent
    cases hsent with
    | group hcombinator hnegated hrules hchildren =>
      obtain ⟨readCombinator, hreadCombinator, -⟩ := Combinator.exists_of_sent? hcombinator
      obtain ⟨readNegated, hreadNegated, -⟩ := Group.exists_of_sentNegation? hnegated
      have hreadChildren := Condition.childrenOfItems_eq hchildren fun _ _ _ ↦
        Condition.ofJson_eq_of_isSentAs
      have hfaulty : Condition.childrenOfMembers (Json.orderedMembers values) = .error fault := by
        rw [leaves_eq, toCondition, Condition.leaves_group] at hfault
        rw [Condition.childrenOfMembers_eq, hrules]
        simp only [Condition.childrenOfJson, hreadChildren, hfault]
        rfl
      have hroot := reader_eq_error hvalues htext.keys hreadCombinator hreadNegated hfaulty
      rw [ofText, Json.Reader.run, htext.tokens]
      simp only [hroot]
      rfl

end StagedQuery
