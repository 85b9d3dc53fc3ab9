import StagedQuery.Proofs.Json.Members

/-!
# Ordered Values

The objects of a value that has been read have increasing keys, however they were written, and the
value nests no deeper than its reader allows.  An object whose keys increase already is its own
ordered form.
-/

namespace StagedQuery.Json

/-! ## Definitions -/

/-- The key of the first member is before that of the second one. -/
def KeyBefore (first second : String × Json) : Prop := first.1 < second.1

instance (first second : String × Json) : Decidable (KeyBefore first second) :=
  inferInstanceAs (Decidable (first.1 < second.1))

mutual

/-- The number of containers that are nested in each other. -/
def depth : Json → Nat
  | .array items => depthOfItems items + 1
  | .object members => depthOfMembers members + 1
  | _ => 0

def depthOfItems : List Json → Nat
  | [] => 0
  | item :: items => max item.depth (depthOfItems items)

def depthOfMembers : List (String × Json) → Nat
  | [] => 0
  | (_, value) :: members => max value.depth (depthOfMembers members)

end

mutual

/-- Whether the keys increase in every object of a value. -/
def isOrdered : Json → Bool
  | .array items => itemsAreOrdered items
  | .object members => decide (members.Pairwise KeyBefore) && membersAreOrdered members
  | _ => true

def itemsAreOrdered : List Json → Bool
  | [] => true
  | item :: items => item.isOrdered && itemsAreOrdered items

def membersAreOrdered : List (String × Json) → Bool
  | [] => true
  | (_, value) :: members => value.isOrdered && membersAreOrdered members

end

variable {items : List Json} {members : List (String × Json)} {levels : Nat} {value : Json}

theorem depthOfItems_le_iff :
    depthOfItems items ≤ levels ↔ ∀ item ∈ items, item.depth ≤ levels := by
  induction items with
  | nil => simp [depthOfItems]
  | cons item items ih => rw [depthOfItems, Nat.max_le, ih, List.forall_mem_cons]

theorem depthOfMembers_le_iff :
    depthOfMembers members ≤ levels ↔ ∀ member ∈ members, member.2.depth ≤ levels := by
  induction members with
  | nil => simp [depthOfMembers]
  | cons member members ih => rw [depthOfMembers, Nat.max_le, ih, List.forall_mem_cons]

theorem isOrdered_array : (array items).isOrdered ↔ ∀ item ∈ items, item.isOrdered := by
  rw [isOrdered]
  induction items with
  | nil => simp [itemsAreOrdered]
  | cons item items ih => rw [itemsAreOrdered, Bool.and_eq_true, ih, List.forall_mem_cons]

theorem isOrdered_object : (object members).isOrdered ↔
    members.Pairwise KeyBefore ∧ ∀ member ∈ members, member.2.isOrdered := by
  have hmembers : membersAreOrdered members ↔ ∀ member ∈ members, member.2.isOrdered := by
    induction members with
    | nil => simp [membersAreOrdered]
    | cons member members ih => rw [membersAreOrdered, Bool.and_eq_true, ih, List.forall_mem_cons]
  rw [isOrdered, Bool.and_eq_true, hmembers, decide_eq_true_eq]

/-- The value nests at most so many levels deep, and its keys are in order. -/
structure Fits (levels : Nat) (value : Json) : Prop where
  depth_le : value.depth ≤ levels
  isOrdered : value.isOrdered

theorem fits_null (levels : Nat) : null.Fits levels := ⟨Nat.zero_le _, rfl⟩

theorem fits_bool (value : Bool) : (bool value).Fits levels := ⟨Nat.zero_le _, rfl⟩

theorem fits_string (value : String) : (string value).Fits levels := ⟨Nat.zero_le _, rfl⟩

theorem fits_array : (array items).Fits levels ↔
    ∃ below, levels = below + 1 ∧ ∀ item ∈ items, item.Fits below := by
  constructor
  · rintro ⟨hdepth, hordered⟩
    rw [depth] at hdepth
    obtain ⟨below, rfl⟩ := Nat.exists_eq_add_of_le' (Nat.le_trans (Nat.le_add_left 1 _) hdepth)
    rw [Nat.add_le_add_iff_right, depthOfItems_le_iff] at hdepth
    exact ⟨below, rfl, fun item hitem ↦ ⟨hdepth item hitem, isOrdered_array.1 hordered item hitem⟩⟩
  · rintro ⟨below, rfl, hitems⟩
    refine ⟨?_, isOrdered_array.2 ?_⟩
    · rw [depth, Nat.add_le_add_iff_right, depthOfItems_le_iff]
      exact fun item hitem ↦ (hitems item hitem).depth_le
    · exact fun item hitem ↦ (hitems item hitem).isOrdered

theorem fits_object : (object members).Fits levels ↔ ∃ below, levels = below + 1 ∧
    members.Pairwise KeyBefore ∧ ∀ member ∈ members, member.2.Fits below := by
  constructor
  · rintro ⟨hdepth, hordered⟩
    obtain ⟨hkeys, hvalues⟩ := isOrdered_object.1 hordered
    rw [depth] at hdepth
    obtain ⟨below, rfl⟩ := Nat.exists_eq_add_of_le' (Nat.le_trans (Nat.le_add_left 1 _) hdepth)
    rw [Nat.add_le_add_iff_right, depthOfMembers_le_iff] at hdepth
    exact ⟨below, rfl, hkeys, fun member hmember ↦ ⟨hdepth member hmember, hvalues member hmember⟩⟩
  · rintro ⟨below, rfl, hkeys, hmembers⟩
    refine ⟨?_, isOrdered_object.2 ⟨hkeys, ?_⟩⟩
    · rw [depth, Nat.add_le_add_iff_right, depthOfMembers_le_iff]
      exact fun member hmember ↦ (hmembers member hmember).depth_le
    · exact fun member hmember ↦ (hmembers member hmember).isOrdered

/-! ## Inserting members -/

theorem mem_insertMember {key : String} {member : String × Json}
    (h : member ∈ insertMember key value members) : member = (key, value) ∨ member ∈ members := by
  induction members with
  | nil => exact .inl (List.mem_singleton.1 h)
  | cons first rest ih =>
    rw [insertMember] at h
    split at h
    · exact List.mem_cons.1 h
    · split at h
      · exact (List.mem_cons.1 h).imp_right (List.mem_cons_of_mem _)
      · rcases List.mem_cons.1 h with rfl | hrest
        · exact .inr List.mem_cons_self
        · exact (ih hrest).imp_right (List.mem_cons_of_mem _)

/-- Members stay in order when one is put at its place. -/
theorem pairwise_insertMember (key : String) (value : Json) (h : members.Pairwise KeyBefore) :
    (insertMember key value members).Pairwise KeyBefore := by
  induction members with
  | nil => exact List.pairwise_singleton _ _
  | cons first rest ih =>
    obtain ⟨hfirst, hrest⟩ := List.pairwise_cons.1 h
    rw [insertMember]
    split
    · next hkey =>
      refine List.pairwise_cons.2 ⟨List.forall_mem_cons.2 ⟨hkey, fun member hmember ↦ ?_⟩, h⟩
      exact String.lt_trans hkey (hfirst member hmember)
    · next hlt =>
      split
      · next hkey =>
        refine List.pairwise_cons.2 ⟨fun member hmember ↦ ?_, hrest⟩
        rw [hkey]
        exact hfirst member hmember
      · next hne =>
        refine List.pairwise_cons.2 ⟨fun member hmember ↦ ?_, ih hrest⟩
        rcases mem_insertMember hmember with rfl | hmember
        · exact Std.lt_of_le_of_ne (String.not_lt.1 hlt) (Ne.symm hne)
        · exact hfirst member hmember

/-- A member after all the others goes to the end. -/
theorem insertMember_of_forall_lt {key : String} (h : ∀ member ∈ members, member.1 < key) :
    insertMember key value members = members ++ [(key, value)] := by
  induction members with
  | nil => rfl
  | cons first rest ih =>
    obtain ⟨hfirst, hrest⟩ := List.forall_mem_cons.1 h
    rw [insertMember, if_neg (String.lt_asymm hfirst), if_neg (String.ne_of_lt hfirst).symm,
      ih hrest, List.cons_append]

/-! ## Ordered members -/

theorem mem_orderedMembers {member : String × Json} (h : member ∈ orderedMembers members) :
    member ∈ members := by
  have hfold (before rest : List (String × Json)) (hmember : member ∈ rest.foldl
      (fun ordered member ↦ insertMember member.1 member.2 ordered) before) :
      member ∈ before ∨ member ∈ rest := by
    induction rest generalizing before with
    | nil => exact .inl hmember
    | cons first rest ih =>
      rcases ih _ hmember with hinserted | hrest
      · rcases mem_insertMember hinserted with rfl | hbefore
        · exact .inr List.mem_cons_self
        · exact .inl hbefore
      · exact .inr (List.mem_cons_of_mem _ hrest)
  exact (hfold [] members h).resolve_left List.not_mem_nil

theorem pairwise_orderedMembers (members : List (String × Json)) :
    (orderedMembers members).Pairwise KeyBefore := by
  have hfold (before : List (String × Json)) (hbefore : before.Pairwise KeyBefore) :
      (members.foldl (fun ordered member ↦ insertMember member.1 member.2 ordered)
        before).Pairwise KeyBefore := by
    induction members generalizing before with
    | nil => exact hbefore
    | cons first rest ih => exact ih _ (pairwise_insertMember _ _ hbefore)
  exact hfold [] List.Pairwise.nil

/-- Members in order are their own ordered form. -/
theorem orderedMembers_of_pairwise (h : members.Pairwise KeyBefore) :
    orderedMembers members = members := by
  have hfold (before rest : List (String × Json)) (hall : (before ++ rest).Pairwise KeyBefore) :
      rest.foldl (fun ordered member ↦ insertMember member.1 member.2 ordered) before =
        before ++ rest := by
    induction rest generalizing before with
    | nil => exact (List.append_nil before).symm
    | cons first rest ih =>
      have hlast : ∀ member ∈ before, member.1 < first.1 := fun member hmember ↦
        (List.pairwise_append.1 hall).2.2 member hmember first List.mem_cons_self
      rw [List.append_cons] at hall ⊢
      rw [List.foldl_cons, insertMember_of_forall_lt hlast, ih _ hall]
  exact hfold [] members h

/-! ## What a document denotes -/

/-- A value that has been read is ordered, and nests no deeper than it may. -/
theorem Document.Denotes.fits {document : Document} (h : document.Denotes levels value) :
    value.Fits levels := by
  induction document generalizing levels value with
  | array items closed ih =>
    obtain ⟨-, below, values, rfl, hvalues, rfl⟩ := denotes_array.1 h
    refine fits_array.2 ⟨below, rfl, fun value hvalue ↦ ?_⟩
    obtain ⟨item, hitem, hdenotes⟩ := exists_of_forall₂ hvalues.flip value hvalue
    exact ih item hitem hdenotes
  | object members closed ih =>
    obtain ⟨-, below, values, rfl, hvalues, rfl⟩ := denotes_object.1 h
    refine fits_object.2 ⟨below, rfl, pairwise_orderedMembers values, fun member hmember ↦ ?_⟩
    obtain ⟨written, hwritten, hdenotes⟩ :=
      exists_of_forall₂ hvalues.flip member (mem_orderedMembers hmember)
    exact ih written hwritten hdenotes.2
  | null | bool =>
    cases h
    exact ⟨Nat.zero_le _, rfl⟩
  | number | string =>
    obtain ⟨read, -, rfl⟩ := Option.map_eq_some_iff.1 (by simpa [Denotes, toJson?] using h)
    exact ⟨Nat.zero_le _, rfl⟩
  | missing => simp [Denotes, toJson?] at h

end StagedQuery.Json
