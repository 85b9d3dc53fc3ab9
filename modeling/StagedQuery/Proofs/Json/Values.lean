import StagedQuery.Json.Record
import Mathlib.Data.List.Forall2

/-!
# Values of Documents

A document has a value if it is grammatical and can be read, and if it does not nest too deep.  More
levels do no harm.  A document nests through lists of items and members; the induction principle of
this module hides the recursion through them.
-/

namespace StagedQuery.Json.Document

/-- A statement about documents holds if every container inherits it from what it holds. -/
@[elab_as_elim, induction_eliminator]
theorem induct {motive : Document → Prop} (null : motive .null)
    (bool : ∀ value, motive (.bool value)) (number : ∀ value, motive (.number value))
    (string : ∀ value, motive (.string value))
    (array : ∀ items closed, (∀ item ∈ items, motive item) → motive (.array items closed))
    (object : ∀ members closed, (∀ member ∈ members, motive member.2) →
      motive (.object members closed))
    (missing : motive .missing) (document : Document) : motive document := by
  apply @Document.rec motive (fun items ↦ ∀ item ∈ items, motive item)
    (fun members ↦ ∀ member ∈ members, motive member.2) (fun member ↦ motive member.2)
    null bool number string array object missing
  · simp
  · intro head tail hhead htail
    simpa using ⟨hhead, htail⟩
  · simp
  · intro head tail hhead htail
    exact List.forall_mem_cons.2 ⟨hhead, htail⟩
  · intro key value hvalue
    exact hvalue

variable {document : Document} {items : List Document} {members : List (Option String × Document)}
  {levels more : Nat} {value : Json}

/-! ## Lists of values -/

/-- The document has the value, nested at most so many levels deep. -/
def Denotes (levels : Nat) (document : Document) (value : Json) : Prop :=
  document.toJson? levels = some value

/-- The member has a readable key, and its document the value. -/
def DenotesMember (levels : Nat) (written : Option String × Document) (member : String × Json) :
    Prop :=
  written.1 = some member.1 ∧ written.2.Denotes levels member.2

theorem itemsToJson?_eq_some {values : List Json} :
    itemsToJson? items levels = some values ↔ List.Forall₂ (Denotes levels) items values := by
  induction items generalizing values with
  | nil => simp [itemsToJson?, eq_comm]
  | cons item items ih =>
    simp only [itemsToJson?, Option.bind_eq_bind, Option.bind_eq_some_iff,
      List.forall₂_cons_left_iff, ← ih]
    constructor
    · rintro ⟨value, hvalue, rest, hrest, hresult⟩
      exact ⟨value, rest, hvalue, hrest, (Option.some.inj hresult).symm⟩
    · rintro ⟨value, rest, hvalue, hrest, rfl⟩
      exact ⟨value, hvalue, rest, hrest, rfl⟩

theorem membersToJson?_eq_some {values : List (String × Json)} :
    membersToJson? members levels = some values ↔
      List.Forall₂ (DenotesMember levels) members values := by
  induction members generalizing values with
  | nil => simp [membersToJson?, eq_comm]
  | cons member members ih =>
    obtain ⟨key?, written⟩ := member
    simp only [membersToJson?, Option.bind_eq_bind, Option.bind_eq_some_iff,
      List.forall₂_cons_left_iff, ← ih]
    constructor
    · rintro ⟨key, rfl, value, hvalue, rest, hrest, hresult⟩
      exact ⟨(key, value), rest, ⟨rfl, hvalue⟩, hrest, (Option.some.inj hresult).symm⟩
    · rintro ⟨⟨key, value⟩, rest, ⟨hkey, hvalue⟩, hrest, rfl⟩
      exact ⟨key, hkey, value, hvalue, rest, hrest, rfl⟩

/-! ## Containers -/

theorem denotes_array {closed : Bool} :
    (array items closed).Denotes levels value ↔ closed = true ∧ ∃ below values,
      levels = below + 1 ∧ List.Forall₂ (Denotes below) items values ∧ value = .array values := by
  cases closed with
  | false => simp [Denotes, toJson?]
  | true =>
    cases levels with
    | zero => simp [Denotes, toJson?]
    | succ below =>
      simp only [Denotes, toJson?, Option.map_eq_some_iff, itemsToJson?_eq_some]
      constructor
      · rintro ⟨values, hvalues, rfl⟩
        exact ⟨trivial, below, values, rfl, hvalues, rfl⟩
      · rintro ⟨-, _, values, hbelow, hvalues, rfl⟩
        cases hbelow
        exact ⟨values, hvalues, rfl⟩

theorem denotes_object {closed : Bool} :
    (object members closed).Denotes levels value ↔ closed = true ∧ ∃ below values,
      levels = below + 1 ∧ List.Forall₂ (DenotesMember below) members values ∧
        value = ofMembers values := by
  cases closed with
  | false => simp [Denotes, toJson?]
  | true =>
    cases levels with
    | zero => simp [Denotes, toJson?]
    | succ below =>
      simp only [Denotes, toJson?, Option.map_eq_some_iff, membersToJson?_eq_some]
      constructor
      · rintro ⟨values, hvalues, rfl⟩
        exact ⟨trivial, below, values, rfl, hvalues, rfl⟩
      · rintro ⟨-, _, values, hbelow, hvalues, rfl⟩
        cases hbelow
        exact ⟨values, hvalues, rfl⟩

/-! ## Levels -/

theorem forall₂_mono {α β : Type} {first second : α → β → Prop} {left : List α} {right : List β}
    (h : List.Forall₂ first left right)
    (hmono : ∀ item ∈ left, ∀ value, first item value → second item value) :
    List.Forall₂ second left right := by
  induction h with
  | nil => exact .nil
  | cons hhead htail ih =>
    exact .cons (hmono _ List.mem_cons_self _ hhead)
      (ih fun item hitem ↦ hmono item (List.mem_cons_of_mem _ hitem))

/-- More levels do no harm. -/
theorem Denotes.mono (h : document.Denotes levels value) (hmore : levels ≤ more) :
    document.Denotes more value := by
  induction document generalizing levels more value with
  | array items closed ih =>
    obtain ⟨hclosed, below, values, rfl, hvalues, rfl⟩ := denotes_array.1 h
    obtain ⟨further, rfl⟩ := Nat.exists_eq_add_of_le' (Nat.le_trans (Nat.succ_pos below) hmore)
    refine denotes_array.2 ⟨hclosed, further, values, rfl, ?_, rfl⟩
    exact forall₂_mono hvalues fun item hitem value hvalue ↦
      ih item hitem hvalue (Nat.le_of_succ_le_succ hmore)
  | object members closed ih =>
    obtain ⟨hclosed, below, values, rfl, hvalues, rfl⟩ := denotes_object.1 h
    obtain ⟨further, rfl⟩ := Nat.exists_eq_add_of_le' (Nat.le_trans (Nat.succ_pos below) hmore)
    refine denotes_object.2 ⟨hclosed, further, values, rfl, ?_, rfl⟩
    exact forall₂_mono hvalues fun member hmember value hvalue ↦
      ⟨hvalue.1, ih member hmember hvalue.2 (Nat.le_of_succ_le_succ hmore)⟩
  | null | bool | number | string => simpa [Denotes, toJson?] using h
  | missing => simp [Denotes, toJson?] at h

/-! ## Shapes -/

/-- The head of a document is that of its value. -/
theorem Denotes.head?_eq (h : document.Denotes levels value) :
    document.head? = some value.head := by
  cases document with
  | array items closed =>
    obtain ⟨-, below, values, -, -, rfl⟩ := denotes_array.1 h
    rfl
  | object members closed =>
    obtain ⟨-, below, values, -, -, rfl⟩ := denotes_object.1 h
    rfl
  | null | bool =>
    cases h
    rfl
  | number | string =>
    obtain ⟨read, hread, rfl⟩ := Option.map_eq_some_iff.1 (by simpa [Denotes, toJson?] using h)
    rw [hread]
    rfl
  | missing => simp [Denotes, toJson?] at h

theorem exists_of_forall₂ {α β : Type} {relation : α → β → Prop} {left : List α} {right : List β}
    (h : List.Forall₂ relation left right) :
    ∀ item ∈ left, ∃ value ∈ right, relation item value := by
  induction h with
  | nil => simp
  | cons hhead htail ih => simpa using ⟨.inl hhead, fun item hitem ↦ .inr (ih item hitem)⟩

theorem areWhole_eq (items : List Document) : areWhole items = items.all isWhole := by
  induction items with
  | nil => rfl
  | cons item rest ih => rw [areWhole, ih, List.all_cons]

theorem areWholeMembers_eq (members : List (Option String × Document)) :
    areWholeMembers members = members.all fun member ↦ member.2.isWhole := by
  induction members with
  | nil => rfl
  | cons member rest ih => rw [areWholeMembers, ih, List.all_cons]

/-- A document with a value is grammatical. -/
theorem Denotes.isWhole (h : document.Denotes levels value) : document.isWhole := by
  induction document generalizing levels value with
  | array items closed ih =>
    obtain ⟨rfl, below, values, rfl, hvalues, rfl⟩ := denotes_array.1 h
    rw [Document.isWhole, areWhole_eq, Bool.true_and, List.all_eq_true]
    intro item hitem
    obtain ⟨value, -, hvalue⟩ := exists_of_forall₂ hvalues item hitem
    exact ih item hitem hvalue
  | object members closed ih =>
    obtain ⟨rfl, below, values, rfl, hvalues, rfl⟩ := denotes_object.1 h
    rw [Document.isWhole, areWholeMembers_eq, Bool.true_and, List.all_eq_true]
    intro member hmember
    obtain ⟨value, -, hvalue⟩ := exists_of_forall₂ hvalues member hmember
    exact ih member hmember hvalue.2
  | null | bool | number | string => rfl
  | missing => simp [Denotes, toJson?] at h

end StagedQuery.Json.Document
