import StagedQuery.Proofs.Condition.Agreement
import StagedQuery.Proofs.Json.Written

/-!
# Written Conditions

A condition is read back from its JSON value, and a group from the text of its value.  What a reader
has accepted can be written again: the values of its rules are in order, and the condition that is
written nests no deeper than the text that was read.
-/

namespace StagedQuery

open Json (Document DoubleReader Fits KeyBefore ReadError Reader fits_array fits_object
  nestingLimit)

variable {levels : Nat}

/-! ## Children read back -/

theorem Combinator.ofHead_name (combinator : Combinator) :
    Combinator.ofHead (.string combinator.name) = .ok combinator := by
  cases combinator <;> rfl

namespace Condition

/-- A condition is what is read from its value. -/
theorem ofJson_toJson (condition : Condition Rule) : ofJson condition.toJson = .ok condition := by
  induction condition with
  | leaf rule => rfl
  | group combinator negated children ih =>
    have hchildren : childrenOfItems (toJsonAll children) = .ok children := by
      induction children with
      | nil => rfl
      | cons child rest hrest =>
        obtain ⟨hchild, hothers⟩ := List.forall_mem_cons.1 ih
        rw [toJsonAll, childrenOfItems, hchild, hrest hothers]
        rfl
    have hcombinator : (some (Json.string combinator.name)).mapM
        (fun value ↦ Combinator.ofHead value.head) = .ok (some combinator) := by
      rw [Option.mapM_some]
      change (some <$> Combinator.ofHead (.string combinator.name)) = _
      rw [Combinator.ofHead_name]
      rfl
    rw [toJson, Group.recordJson]
    refine (ofJson_object_eq_ok_iff rfl).2
      ⟨some combinator, some negated, children, hcombinator, rfl, hchildren, rfl⟩

theorem toJsonAll_eq (children : List (Condition Rule)) :
    toJsonAll children = children.map toJson := by
  induction children with
  | nil => rfl
  | cons child rest ih => rw [toJsonAll, ih, List.map_cons]

/-! ## Depth and order -/

theorem pairwise_rule (field operator value : Json) :
    [("field", field), ("operator", operator), ("value", value)].Pairwise KeyBefore := by
  have hkeys : ["field", "operator", "value"].Pairwise (· < ·) := by decide
  exact (List.pairwise_map (f := Prod.fst)).1 hkeys

theorem pairwise_record (combinator negated children : Json) :
    [("combinator", combinator), ("not", negated), ("rules", children)].Pairwise KeyBefore := by
  have hkeys : ["combinator", "not", "rules"].Pairwise (· < ·) := by decide
  exact (List.pairwise_map (f := Prod.fst)).1 hkeys

theorem fits_rule {rule : Rule} :
    rule.toJson.Fits levels ↔ ∃ below, levels = below + 1 ∧ rule.value.Fits below := by
  rw [Rule.toJson, fits_object]
  constructor
  · rintro ⟨below, rfl, -, hmembers⟩
    exact ⟨below, rfl, hmembers ("value", rule.value) (by simp)⟩
  · rintro ⟨below, rfl, hvalue⟩
    refine ⟨below, rfl, pairwise_rule _ _ _, ?_⟩
    simp only [List.forall_mem_cons]
    exact ⟨Json.fits_string _, Json.fits_string _, hvalue, List.forall_mem_nil _⟩

theorem fits_record {combinator : Combinator} {negated : Bool}
    {children : List (Condition Rule)} :
    (Group.recordJson combinator negated (toJsonAll children)).Fits levels ↔
      ∃ below, levels = below + 2 ∧ ∀ child ∈ children, child.toJson.Fits below := by
  rw [Group.recordJson, fits_object, toJsonAll_eq]
  constructor
  · rintro ⟨below, rfl, -, hmembers⟩
    have hrules := hmembers ("rules", .array (children.map toJson)) (by simp)
    obtain ⟨lower, rfl, hchildren⟩ := fits_array.1 hrules
    exact ⟨lower, rfl, List.forall_mem_map.1 hchildren⟩
  · rintro ⟨below, rfl, hchildren⟩
    refine ⟨below + 1, rfl, pairwise_record _ _ _, ?_⟩
    simp only [List.forall_mem_cons]
    exact ⟨Json.fits_string _, Json.fits_bool _,
      fits_array.2 ⟨below, rfl, List.forall_mem_map.2 hchildren⟩, List.forall_mem_nil _⟩

theorem isOrdered_record {combinator : Combinator} {negated : Bool}
    {children : List (Condition Rule)} (h : ∀ child ∈ children, child.toJson.isOrdered) :
    (Group.recordJson combinator negated (toJsonAll children)).isOrdered := by
  rw [Group.recordJson, Json.isOrdered_object, toJsonAll_eq]
  refine ⟨pairwise_record _ _ _, ?_⟩
  simp only [List.forall_mem_cons]
  exact ⟨rfl, rfl, Json.isOrdered_array.2 (List.forall_mem_map.2 h), List.forall_mem_nil _⟩

/-- A condition is written in order if the values of its rules are in order. -/
theorem isOrdered_toJson {condition : Condition Rule}
    (h : ∀ rule ∈ condition.leaves, rule.value.isOrdered) : condition.toJson.isOrdered := by
  induction condition with
  | leaf rule =>
    have hvalue := h rule (List.mem_singleton_self _)
    rw [toJson, Rule.toJson, Json.isOrdered_object]
    refine ⟨pairwise_rule _ _ _, ?_⟩
    simp only [List.forall_mem_cons]
    exact ⟨rfl, rfl, hvalue, List.forall_mem_nil _⟩
  | group combinator negated children ih =>
    refine isOrdered_record fun child hchild ↦ ih child hchild fun rule hrule ↦ h rule ?_
    rw [leaves_group]
    exact List.mem_flatMap.2 ⟨child, hchild, hrule⟩

/-! ## Accepted children -/

/-- A rule that was read from an array of its fields is written no deeper. -/
theorem fits_of_ofItems {items : List Json} {rule : Rule} (h : Rule.ofItems items = .ok rule)
    (hfits : (Json.array items).Fits levels) : rule.toJson.Fits levels := by
  obtain ⟨below, rfl, hitems⟩ := fits_array.1 hfits
  refine fits_rule.2 ⟨below, rfl, ?_⟩
  have hvalue : rule.value = items[2]?.getD .null := by
    match items with
    | [] => cases h
    | [_] =>
      obtain ⟨field, -, h⟩ := bind_eq_ok h
      exact (congrArg Rule.value (Except.ok.inj h)).symm
    | [_, _] | [_, _, _] =>
      obtain ⟨field, -, h⟩ := bind_eq_ok h
      obtain ⟨operator, -, h⟩ := bind_eq_ok h
      exact (congrArg Rule.value (Except.ok.inj h)).symm
    | first :: second :: third :: fourth :: rest =>
      have hlong : Rule.layout.size < (first :: second :: third :: fourth :: rest).length := by
        simp only [Rule.layout, List.length_cons]
        omega
      obtain ⟨field, -, h⟩ := bind_eq_ok h
      obtain ⟨operator, -, h⟩ := bind_eq_ok h
      dsimp only at h
      rw [if_pos hlong] at h
      cases h
  rw [hvalue]
  cases hitem : items[2]? with
  | none => exact Json.fits_null below
  | some item => exact hitems item (List.mem_of_getElem? hitem)

theorem fits_of_ofMembers {members : List (String × Json)} {rule : Rule}
    (h : Rule.ofMembers members = .ok rule) (hfits : (Json.object members).Fits levels) :
    rule.toJson.Fits levels := by
  obtain ⟨below, rfl, -, hmembers⟩ := fits_object.1 hfits
  refine fits_rule.2 ⟨below, rfl, ?_⟩
  have hvalue : rule.value = (members.lookup "value").getD .null := by
    simp only [Rule.ofMembers, bind_eq_ok_iff] at h
    obtain ⟨field, -, operator, -, hrest⟩ := h
    split at hrest
    · cases hrest
    · exact (congrArg Rule.value (Except.ok.inj hrest)).symm
  rw [hvalue]
  cases hfound : members.lookup "value" with
  | none => exact Json.fits_null below
  | some value => exact hmembers ("value", value) (Json.mem_of_lookup hfound)

theorem exists_of_childrenOfItems {items : List Json} {children : List (Condition Rule)}
    (h : childrenOfItems items = .ok children) :
    ∀ child ∈ children, ∃ item ∈ items, ofJson item = .ok child := by
  induction items generalizing children with
  | nil =>
    cases h
    simp
  | cons item items ih =>
    simp only [childrenOfItems, bind_eq_ok_iff, pure_eq_ok_iff] at h
    obtain ⟨child, hchild, rest, hrest, rfl⟩ := h
    refine List.forall_mem_cons.2 ⟨⟨item, List.mem_cons_self, hchild⟩, fun other hother ↦ ?_⟩
    obtain ⟨source, hsource, hread⟩ := ih hrest other hother
    exact ⟨source, List.mem_cons_of_mem _ hsource, hread⟩

/-- What is read from a value is written no deeper, both as a child and as a list of children. -/
theorem fits_of_ofJson_and_childrenOfJson (value : Json) :
    (∀ levels condition, value.Fits levels → ofJson value = .ok condition →
      condition.toJson.Fits levels) ∧
    (∀ levels children, value.Fits levels → childrenOfJson value = .ok children →
      ∃ below, levels = below + 1 ∧ ∀ child ∈ children, child.toJson.Fits below) := by
  induction value with
  | array items ih =>
    constructor
    · intro levels condition hfits h
      obtain ⟨rule, hrule, rfl⟩ := map_eq_ok_iff.1 h
      exact fits_of_ofItems hrule hfits
    · intro levels children hfits h
      obtain ⟨below, rfl, hitems⟩ := fits_array.1 hfits
      refine ⟨below, rfl, fun child hchild ↦ ?_⟩
      obtain ⟨item, hitem, hread⟩ := exists_of_childrenOfItems h child hchild
      exact (ih item hitem).1 below child (hitems item hitem) hread
  | object members ih =>
    constructor
    · intro levels condition hfits h
      by_cases hrules : (members.lookup "rules").isSome
      · obtain ⟨below, rfl, -, hmembers⟩ := fits_object.1 hfits
        obtain ⟨combinator, negated, children, -, -, hchildren, rfl⟩ :=
          (ofJson_object_eq_ok_iff hrules).1 h
        obtain ⟨found, hfound⟩ := Option.isSome_iff_exists.1 hrules
        rw [childrenOfMembers_eq, hfound] at hchildren
        have hmember := Json.mem_of_lookup hfound
        obtain ⟨lower, rfl, hlower⟩ :=
          (ih _ hmember).2 below children (hmembers _ hmember) hchildren
        exact fits_record.2 ⟨lower, rfl, hlower⟩
      · rw [ofJson, if_neg hrules] at h
        obtain ⟨rule, hrule, rfl⟩ := map_eq_ok_iff.1 h
        exact fits_of_ofMembers hrule hfits
    · intro levels children _ h
      cases h
  | _ =>
    constructor
    · intro levels condition _ h
      cases h
    · intro levels children _ h
      cases h

theorem fits_of_reader {document : Document} {condition : Condition Rule}
    (h : reader levels document = .ok condition) : condition.toJson.Fits levels := by
  obtain ⟨value, hvalue, hcondition⟩ := bind_eq_ok h
  rw [Reader.value] at hvalue
  split at hvalue
  · next found hfound =>
    cases hvalue
    exact (fits_of_ofJson_and_childrenOfJson value).1 levels condition
      (Document.Denotes.fits hfound) (mapError_eq_ok_iff.1 hcondition)
  · cases hvalue

theorem fits_of_list {document : Document} {children : List (Condition Rule)}
    (h : Reader.list (reader levels) document = .ok children) :
    ∀ child ∈ children, child.toJson.Fits levels := by
  intro child hchild
  obtain ⟨item, hitem⟩ := Reader.read_of_list h child hchild
  exact fits_of_reader hitem

end Condition

namespace Group

/-! ## Roots -/

theorem fits_toJson {group : Group Rule} : group.toJson.Fits levels ↔
    ∃ below, levels = below + 2 ∧ ∀ child ∈ group.children, child.toJson.Fits below :=
  Condition.fits_record

theorem isOrdered_toJson {group : Group Rule} (h : ∀ rule ∈ group.leaves, rule.value.isOrdered) :
    group.toJson.isOrdered := by
  have hcondition : group.toCondition.toJson.isOrdered := Condition.isOrdered_toJson h
  exact hcondition

/-- A group is what is read from its document. -/
theorem reader_toDocument {group : Group Rule} (h : group.toJson.Fits (levels + 2)) :
    reader levels group.toJson.toDocument = .ok group := by
  have hdenotes := Json.denotes_toDocument h
  have hread := Condition.ofJson_toJson group.toCondition
  have hkeys : [some "combinator", some "not", some "rules"].Nodup := by decide
  have hrules : some "rules" ∈ [some "combinator", some "not", some "rules"] := by decide
  exact (reader_eq_ok_iff hdenotes hkeys hrules).2 hread

/-- The children that have been read nest at most so many levels deep. -/
def Draft.Fits (levels : Nat) (draft : Draft) : Prop :=
  ∀ children ∈ draft.children, ∀ child ∈ children, child.toJson.Fits levels

theorem Draft.Fits.member {draft next : Draft} {key : String} {document : Document}
    (h : draft.Fits levels) (hnext : draft.member levels key document = .ok next) :
    next.Fits levels := by
  unfold Draft.member at hnext
  split at hnext
  case h_3 =>
    obtain ⟨children, hchildren, hnext⟩ := bind_eq_ok hnext
    obtain ⟨read, hread, rfl⟩ := Reader.read_of_once hchildren
    cases hnext
    exact fun children hsome ↦ Option.some.inj hsome ▸ Condition.fits_of_list hread
  all_goals
    obtain ⟨_, -, hnext⟩ := bind_eq_ok hnext
    cases hnext
    exact h

/-- A group that was accepted is written no deeper. -/
theorem fits_of_reader {document : Document} {group : Group Rule}
    (h : reader levels document = .ok group) : group.toJson.Fits (levels + 2) := by
  refine fits_toJson.2 ⟨levels, rfl, ?_⟩
  cases document with
  | object members closed =>
    obtain ⟨draft, hdraft, hgroup⟩ := bind_eq_ok h
    have hempty : Draft.Fits levels {} := by
      intro children hnone
      cases hnone
    have hkept : draft.Fits levels :=
      Reader.members_invariant (Draft.Fits levels) hempty
        (fun _ _ _ _ hfits hnext ↦ hfits.member hnext) hdraft
    cases hgroup
    cases hchildren : draft.children with
    | none => simp
    | some children => simpa [hchildren] using hkept children hchildren
  | array items closed =>
    obtain ⟨combinator, -, h⟩ := bind_eq_ok h
    obtain ⟨negated, -, h⟩ := bind_eq_ok h
    obtain ⟨children, hchildren, h⟩ := bind_eq_ok h
    obtain ⟨-, -, hgroup⟩ := bind_eq_ok h
    cases hgroup
    rcases Reader.read_of_element hchildren with habsent | ⟨written, hwritten⟩
    · cases habsent
      simp
    · exact Condition.fits_of_list hwritten
  | _ =>
    simp only [reader] at h
    exact absurd h Reader.plain_error_ne_ok

/-- A group is read back from the text of its value, if the doubles in it are. -/
theorem ofText_text [DoubleReader] {group : Group Rule} (h : group.toJson.Fits nestingLimit)
    (hdoubles : ∀ double ∈ group.toJson.doubles, DoubleReader.Recovers double) :
    ofText group.toJson.text = .ok group := by
  rw [ofText, Reader.run_text _ hdoubles]
  exact reader_toDocument h

end Group

end StagedQuery
