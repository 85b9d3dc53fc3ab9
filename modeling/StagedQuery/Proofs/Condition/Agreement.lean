import StagedQuery.Condition.Record
import StagedQuery.Proofs.Condition.Pruning
import StagedQuery.Proofs.Json.Members

/-!
# Agreement of the Readers

The root of a condition is read member by member in the order of its text, and a child from the
value that its document has.  On an object that repeats no key both readers accept the same groups:
under each key they find the same thing, and each of them checks all that the other one checks.
-/

namespace StagedQuery

open Json (Document Head Mismatch ReadError Reader)
open Json.Document (Denotes DenotesMember)
open Json.Reader (Reads)

variable {levels : Nat} {document : Document} {value : Json}

/-! ## Fields of records -/

/-- A plain value is read from its kind alone. -/
theorem Json.Reader.plain_eq {α : Type} (read : Head → Except Mismatch α)
    (h : document.Denotes levels value) :
    Reader.plain read document = (read value.head).mapError .mismatch := by
  rw [Reader.plain, h.head?_eq]

theorem Json.Reader.list_eq_plain {α : Type} (read : Reader α)
    (h : ∀ items closed, document ≠ .array items closed) : Reader.list read document =
      Reader.plain (fun head ↦ .error (.wrongType head .sequence)) document := by
  cases document with
  | array items closed => exact absurd rfl (h items closed)
  | _ => rfl

/-- A field of a record is read from the document under its key as from the value there. -/
theorem Json.Reader.reads_iff {α : Type} {read : Reader α} {ofValue : Json → Except Mismatch α}
    (hread : ∀ {document : Document} {value : Json}, document.Denotes levels value →
      read document = (ofValue value).mapError .mismatch)
    {document? : Option Document} {value? : Option Json}
    (h : Option.Rel (Denotes levels) document? value?) {after : Option α} :
    Reads read none document? after ↔ value?.mapM ofValue = .ok after := by
  cases h with
  | none =>
    change after = none ↔ Except.ok none = Except.ok after
    rw [Except.ok.injEq, eq_comm]
  | some hvalue =>
    rename_i document value
    have hmap : (some value).mapM ofValue = (ofValue value).map some := rfl
    rw [reads_some, hread hvalue, hmap, map_eq_ok_iff]
    simp only [true_and, mapError_eq_ok_iff, eq_comm]

theorem Json.Reader.reads_plain_iff {α : Type} {read : Head → Except Mismatch α}
    {document? : Option Document} {value? : Option Json}
    (h : Option.Rel (Denotes levels) document? value?) {after : Option α} :
    Reads (.plain read) none document? after ↔
      (value?.mapM fun value ↦ read value.head) = .ok after :=
  reads_iff (fun hvalue ↦ plain_eq read hvalue) h

namespace Condition

/-! ## Children -/

/-- A child of a group is read from its value. -/
theorem reader_eq (h : document.Denotes levels value) :
    reader levels document = (ofJson value).mapError .mismatch := by
  have hvalue : Reader.value levels document = .ok value := by
    rw [Reader.value, show document.toJson? levels = some value from h]
  rw [reader, hvalue]
  rfl

theorem mapM_reader_eq {items : List Document} {values : List Json}
    (h : List.Forall₂ (Denotes levels) items values) :
    items.mapM (reader levels) = (childrenOfItems values).mapError .mismatch := by
  induction h with
  | nil => rfl
  | @cons item value items values hhead htail ih =>
    rw [List.mapM_cons, childrenOfItems, reader_eq hhead, ih]
    cases ofJson value with
    | error fault => rfl
    | ok child => cases childrenOfItems values <;> rfl

/-- The children of a group are read from the value under their key. -/
theorem list_reader_eq (h : document.Denotes (levels + 1) value) :
    Reader.list (reader levels) document = (childrenOfJson value).mapError .mismatch := by
  cases document with
  | array items closed =>
    obtain ⟨rfl, below, values, hbelow, hvalues, rfl⟩ := Document.denotes_array.1 h
    cases hbelow
    have hlist : Reader.list (reader levels) (.array items true) =
        items.mapM (reader levels) >>= pure := rfl
    rw [hlist, bind_pure, mapM_reader_eq hvalues]
    rfl
  | _ =>
    have hhead := h.head?_eq
    rw [Reader.list_eq_plain _ (by simp), Reader.plain, hhead]
    cases value with
    | array values => simp [Document.head?, Json.head] at hhead
    | _ => rfl

theorem reads_children_iff {document? : Option Document} {value? : Option Json}
    (h : Option.Rel (Denotes (levels + 1)) document? value?)
    {after : Option (List (Condition Rule))} :
    Reads (.list (reader levels)) none document? after ↔
      value?.mapM childrenOfJson = .ok after :=
  Reader.reads_iff list_reader_eq h

theorem childrenOfMembers_eq (members : List (String × Json)) :
    childrenOfMembers members =
      match members.lookup "rules" with
      | none => .ok []
      | some value => childrenOfJson value := by
  induction members with
  | nil => rfl
  | cons member rest ih =>
    rw [childrenOfMembers, Json.lookup_cons_eq_ite, ih]
    by_cases hkey : member.1 = "rules"
    · rw [if_pos hkey, if_pos hkey.symm]
    · rw [if_neg hkey, if_neg (Ne.symm hkey)]

/-- A fault of the children is found in the document under their key. -/
theorem exists_rules_of_fault {document? : Option Document} {members : List (String × Json)}
    {fault : Mismatch} (h : Option.Rel (Denotes (levels + 1)) document? (members.lookup "rules"))
    (hfault : childrenOfMembers members = .error fault) :
    ∃ document, document? = some document ∧
      Reader.list (reader levels) document = .error (.mismatch fault) := by
  rw [childrenOfMembers_eq] at hfault
  generalize members.lookup "rules" = value? at h hfault
  cases h with
  | none => cases hfault
  | @some document value hdenotes =>
    have hvalue : childrenOfJson value = .error fault := hfault
    refine ⟨document, rfl, ?_⟩
    rw [list_reader_eq hdenotes, hvalue]
    rfl

/-- A group that is read from the members of an object. -/
theorem ofJson_object_eq_ok_iff {members : List (String × Json)}
    (hrules : (members.lookup "rules").isSome) {condition : Condition Rule} :
    ofJson (.object members) = .ok condition ↔ ∃ combinator negated children,
      (members.lookup "combinator").mapM (fun value ↦ Combinator.ofHead value.head) =
        .ok combinator ∧
      (members.lookup "not").mapM (fun value ↦ value.head.asBool) = .ok negated ∧
      childrenOfMembers members = .ok children ∧
      condition = .group (combinator.getD .and) (negated.getD false) children := by
  rw [ofJson, if_pos hrules]
  simp only [bind_eq_ok_iff, pure_eq_ok_iff]
  constructor
  · rintro ⟨combinator, hcombinator, negated, hnegated, children, hchildren, rfl⟩
    exact ⟨combinator, negated, children, hcombinator, hnegated, hchildren, rfl⟩
  · rintro ⟨combinator, negated, children, hcombinator, hnegated, hchildren, rfl⟩
    exact ⟨combinator, hcombinator, negated, hnegated, children, hchildren, rfl⟩

end Condition

namespace Group

/-! ## The draft of a group -/

section

variable {draft next last : Draft}

theorem member_combinator_eq_ok_iff :
    draft.member levels "combinator" document = .ok next ↔ ∃ combinator,
      Reads (.plain Combinator.ofHead) draft.combinator (some document) combinator ∧
        { draft with combinator } = next := by
  simp only [Draft.member, bind_eq_ok_iff, pure_eq_ok_iff, Reader.once_eq_ok_iff]

theorem member_negated_eq_ok_iff :
    draft.member levels "not" document = .ok next ↔ ∃ negated,
      Reads (.plain Head.asBool) draft.negated (some document) negated ∧
        { draft with negated } = next := by
  simp only [Draft.member, bind_eq_ok_iff, pure_eq_ok_iff, Reader.once_eq_ok_iff]

theorem member_children_eq_ok_iff :
    draft.member levels "rules" document = .ok next ↔ ∃ children,
      Reads (.list (Condition.reader levels)) draft.children (some document) children ∧
        { draft with children } = next := by
  simp only [Draft.member, bind_eq_ok_iff, pure_eq_ok_iff, Reader.once_eq_ok_iff]

/-- The value under any other key only has to be grammatical. -/
theorem member_other {key : String} (hkey : key ∉ ["combinator", "not", "rules"])
    (hwhole : document.isWhole) : draft.member levels key document = .ok draft := by
  simp only [List.mem_cons, List.not_mem_nil, or_false, not_or] at hkey
  obtain ⟨hcombinator, hnegated, hchildren⟩ := hkey
  have hskip : Reader.skip document = .ok () := if_pos hwhole
  unfold Draft.member
  split
  · contradiction
  · contradiction
  · contradiction
  · rw [hskip]
    rfl

/-- A draft becomes another one by members that repeat no key: each field is read from what is
written under its key, and stays as it was where nothing is. -/
def Draft.Becomes (levels : Nat) (draft : Draft) (members : List (Option String × Document))
    (last : Draft) : Prop :=
  Reads (.plain Combinator.ofHead) draft.combinator (members.lookup (some "combinator"))
    last.combinator ∧
  Reads (.plain Head.asBool) draft.negated (members.lookup (some "not")) last.negated ∧
  Reads (.list (Condition.reader levels)) draft.children (members.lookup (some "rules"))
    last.children

theorem becomes_nil : draft.Becomes levels [] last ↔ draft = last := by
  constructor
  · rintro ⟨hcombinator, hnegated, hchildren⟩
    obtain ⟨_, _, _⟩ := last
    cases hcombinator
    cases hnegated
    cases hchildren
    rfl
  · rintro rfl
    exact ⟨rfl, rfl, rfl⟩

/-- One member changes the field that it is about, which no later one can change again. -/
theorem becomes_cons {key : String} {rest : List (Option String × Document)}
    (hwhole : document.isWhole) (hlast : rest.lookup (some key) = none) :
    draft.Becomes levels ((some key, document) :: rest) last ↔
      ∃ next, draft.member levels key document = .ok next ∧ next.Becomes levels rest last := by
  simp only [Draft.Becomes, Json.lookup_cons_eq_ite, Option.some.injEq]
  by_cases hknown : key ∈ ["combinator", "not", "rules"]
  · simp only [List.mem_cons, List.not_mem_nil, or_false] at hknown
    rcases hknown with rfl | rfl | rfl
    · simp only [member_combinator_eq_ok_iff, hlast, String.reduceEq, if_true, if_false]
      constructor
      · rintro ⟨hcombinator, hothers⟩
        exact ⟨_, ⟨last.combinator, hcombinator, rfl⟩, rfl, hothers⟩
      · rintro ⟨_, ⟨combinator, hcombinator, rfl⟩, hresult, hothers⟩
        exact ⟨hresult ▸ hcombinator, hothers⟩
    · simp only [member_negated_eq_ok_iff, hlast, String.reduceEq, if_true, if_false]
      constructor
      · rintro ⟨hcombinator, hnegated, hchildren⟩
        exact ⟨_, ⟨last.negated, hnegated, rfl⟩, hcombinator, rfl, hchildren⟩
      · rintro ⟨_, ⟨negated, hnegated, rfl⟩, hcombinator, hresult, hchildren⟩
        exact ⟨hcombinator, hresult ▸ hnegated, hchildren⟩
    · simp only [member_children_eq_ok_iff, hlast, String.reduceEq, if_true, if_false]
      constructor
      · rintro ⟨hcombinator, hnegated, hchildren⟩
        exact ⟨_, ⟨last.children, hchildren, rfl⟩, hcombinator, hnegated, rfl⟩
      · rintro ⟨_, ⟨children, hchildren, rfl⟩, hcombinator, hnegated, hresult⟩
        exact ⟨hcombinator, hnegated, hresult ▸ hchildren⟩
  · have hnames : "combinator" ≠ key ∧ "not" ≠ key ∧ "rules" ≠ key := by
      refine ⟨?_, ?_, ?_⟩ <;> rintro rfl <;> exact hknown (by decide)
    rw [if_neg hnames.1, if_neg hnames.2.1, if_neg hnames.2.2]
    simp only [member_other hknown hwhole, Except.ok.injEq, exists_eq_left']

/-- What the members of an object that repeats no key make of a draft. -/
theorem members_eq_ok_iff {members : List (Option String × Document)}
    (hkeys : (members.map Prod.fst).Nodup)
    (hread : ∀ member ∈ members, member.1.isSome ∧ member.2.isWhole) :
    Reader.members (Draft.member levels) draft members true = .ok last ↔
      draft.Becomes levels members last := by
  rw [Reader.members]
  simp only [bind_eq_ok_iff, if_true, pure_eq_ok_iff, exists_eq_right]
  induction members generalizing draft with
  | nil => rw [List.foldlM_nil, pure_eq_ok_iff, becomes_nil]
  | cons member rest ih =>
    obtain ⟨⟨hkey, hwhole⟩, hrest⟩ := List.forall_mem_cons.1 hread
    obtain ⟨hnew, htail⟩ := List.nodup_cons.1 hkeys
    obtain ⟨key?, document⟩ := member
    obtain ⟨key, rfl⟩ := Option.isSome_iff_exists.1 hkey
    rw [List.foldlM_cons, becomes_cons hwhole (Json.lookup_eq_none_of_notMem hnew)]
    simp only [bind_eq_ok_iff, ih htail hrest]

end

/-- The reader of roots accepts exactly the groups that are read from the value. -/
theorem reader_eq_ok_iff {members : List (Option String × Document)} {group : Group Rule}
    (h : (Document.object members true).Denotes (levels + 2) value)
    (hkeys : (members.map Prod.fst).Nodup) (hrules : some "rules" ∈ members.map Prod.fst) :
    reader levels (.object members true) = .ok group ↔
      Condition.ofJson value = .ok group.toCondition := by
  obtain ⟨-, below, values, hbelow, hvalues, rfl⟩ := Document.denotes_object.1 h
  cases hbelow
  have hread := Document.isWhole_of_mem hvalues
  have hlookup (key : String) : Option.Rel (Denotes (levels + 1)) (members.lookup (some key))
      ((Json.orderedMembers values).lookup key) :=
    Document.rel_lookup_orderedMembers hvalues hkeys key
  have hsome : ((Json.orderedMembers values).lookup "rules").isSome := by
    rw [Document.keys_eq hvalues, List.mem_map_of_injective (Option.some_injective _)] at hrules
    rw [Json.lookup_orderedMembers (Document.nodup_keys hvalues hkeys)]
    exact Json.isSome_lookup hrules
  obtain ⟨found, hfound⟩ := Option.isSome_iff_exists.1 hsome
  have hmapM : (some found).mapM Condition.childrenOfJson =
      (Condition.childrenOfJson found).map some := rfl
  rw [Json.ofMembers_eq, Condition.ofJson_object_eq_ok_iff hsome]
  simp only [reader, bind_eq_ok_iff, pure_eq_ok_iff, members_eq_ok_iff hkeys hread, Draft.Becomes,
    Reader.reads_plain_iff (hlookup _), Condition.reads_children_iff (hlookup _),
    Condition.childrenOfMembers_eq, hfound, hmapM, map_eq_ok_iff]
  constructor
  · rintro ⟨draft, ⟨hcombinator, hnegated, children, hrulesRead, hdraft⟩, rfl⟩
    refine ⟨draft.combinator, draft.negated, children, hcombinator, hnegated, hrulesRead, ?_⟩
    rw [toCondition, ← hdraft, Option.getD_some]
  · rintro ⟨combinator, negated, children, hcombinator, hnegated, hrulesRead, hgroup⟩
    refine ⟨⟨combinator, negated, some children⟩,
      ⟨hcombinator, hnegated, children, hrulesRead, rfl⟩, ?_⟩
    apply toCondition_injective
    rw [hgroup]
    rfl

/-- The reader of roots reports a fault of the children if the other fields of the group have
none, wherever these stand. -/
theorem reader_eq_error {members : List (Option String × Document)}
    {values : List (String × Json)} {combinator : Option Combinator} {negated : Option Bool}
    {fault : Mismatch} (hvalues : List.Forall₂ (DenotesMember (levels + 1)) members values)
    (hkeys : (members.map Prod.fst).Nodup)
    (hcombinator : ((Json.orderedMembers values).lookup "combinator").mapM
      (fun value ↦ Combinator.ofHead value.head) = .ok combinator)
    (hnegated : ((Json.orderedMembers values).lookup "not").mapM
      (fun value ↦ value.head.asBool) = .ok negated)
    (hfault : Condition.childrenOfMembers (Json.orderedMembers values) = .error fault) :
    reader levels (.object members true) = .error (.mismatch fault) := by
  have hlookup (key : String) := Document.rel_lookup_orderedMembers hvalues hkeys key
  obtain ⟨written, hwritten, hchildren⟩ :=
    Condition.exists_rules_of_fault (hlookup "rules") hfault
  have hreadCombinator := (Reader.reads_plain_iff (hlookup "combinator")).2 hcombinator
  have hreadNegated := (Reader.reads_plain_iff (hlookup "not")).2 hnegated
  obtain ⟨before, after, rfl, hbefore⟩ := List.lookup_eq_some_iff.1 hwritten
  -- The members before the rules are accepted, and leave the rules to be read.
  obtain ⟨readCombinator, hreadCombinator⟩ := Reader.exists_reads_of_append hreadCombinator
  obtain ⟨readNegated, hreadNegated⟩ := Reader.exists_reads_of_append hreadNegated
  have hread : ∀ member ∈ before, member.1.isSome ∧ member.2.isWhole :=
    fun member hmember ↦ Document.isWhole_of_mem hvalues member (List.mem_append_left _ hmember)
  have hnone : before.lookup (some "rules") = none := by
    simpa [List.lookup_eq_none_iff] using hbefore
  have hdraft : Reader.members (Draft.member levels) {} before true =
      .ok ⟨readCombinator, readNegated, none⟩ := by
    rw [List.map_append] at hkeys
    refine (members_eq_ok_iff (List.nodup_append.1 hkeys).1 hread).2
      ⟨hreadCombinator, hreadNegated, ?_⟩
    rw [hnone]
    rfl
  have hmember : Draft.member levels ⟨readCombinator, readNegated, none⟩ "rules" written =
      .error (.mismatch fault) := by
    simp only [Draft.member, Reader.once, hchildren]
    rfl
  rw [reader, Reader.members_eq_error hdraft hmember]
  rfl

end Group

end StagedQuery
