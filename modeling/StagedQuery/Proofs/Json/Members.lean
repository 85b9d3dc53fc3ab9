import StagedQuery.Proofs.FirstFault
import StagedQuery.Proofs.Json.Values
import Mathlib.Data.List.Nodup

/-!
# Members of Objects

The members of an object are kept in the order of their keys.  Where no key is repeated this loses
nothing: under every key stands what was written there.
-/

namespace StagedQuery.Json

/-! ## Look-ups -/

theorem lookup_cons_eq_ite {α β : Type} [DecidableEq α] [BEq α] [LawfulBEq α] (key : α)
    (member : α × β) (rest : List (α × β)) : (member :: rest).lookup key =
      if key = member.1 then some member.2 else rest.lookup key := by
  rw [List.lookup_cons]
  by_cases h : key = member.1
  · rw [if_pos h, h, beq_self_eq_true]
  · rw [if_neg h, beq_eq_false_iff_ne.2 h]

theorem lookup_eq_none_of_notMem {α β : Type} [DecidableEq α] [BEq α] [LawfulBEq α]
    {members : List (α × β)} {key : α} (h : key ∉ members.map Prod.fst) :
    members.lookup key = none := by
  induction members with
  | nil => rfl
  | cons member rest ih =>
    obtain ⟨hfirst, hrest⟩ := not_or.1 (by simpa only [List.map_cons, List.mem_cons] using h)
    rw [lookup_cons_eq_ite, if_neg hfirst, ih hrest]

theorem isSome_lookup {α β : Type} [DecidableEq α] [BEq α] [LawfulBEq α]
    {members : List (α × β)} {key : α} (h : key ∈ members.map Prod.fst) :
    (members.lookup key).isSome := by
  induction members with
  | nil => cases h
  | cons member rest ih =>
    rw [lookup_cons_eq_ite]
    split
    · rfl
    · next hfirst => exact ih ((List.mem_cons.1 h).resolve_left hfirst)

theorem mem_of_lookup {α β : Type} [BEq α] [LawfulBEq α] {members : List (α × β)} {key : α}
    {value : β} (h : members.lookup key = some value) : (key, value) ∈ members := by
  obtain ⟨before, after, rfl, -⟩ := List.lookup_eq_some_iff.1 h
  exact List.mem_append_right _ List.mem_cons_self

theorem lookup_insertMember (key other : String) (value : Json) (members : List (String × Json)) :
    (insertMember key value members).lookup other =
      if other = key then some value else members.lookup other := by
  induction members with
  | nil => exact lookup_cons_eq_ite other (key, value) []
  | cons member rest ih =>
    rw [insertMember]
    split
    · exact lookup_cons_eq_ite other (key, value) (member :: rest)
    · split
      · next hkey =>
        rw [lookup_cons_eq_ite, lookup_cons_eq_ite]
        by_cases hother : other = key
        · rw [if_pos hother, if_pos hother]
        · rw [if_neg hother, if_neg hother, if_neg (hkey ▸ hother)]
      · next hkey =>
        rw [lookup_cons_eq_ite, lookup_cons_eq_ite, ih]
        by_cases hfirst : other = member.1
        · rw [if_pos hfirst, if_pos hfirst, if_neg fun hother ↦ hkey (hother.symm.trans hfirst)]
        · rw [if_neg hfirst, if_neg hfirst]

/-- The members in the order of their keys. -/
def orderedMembers (members : List (String × Json)) : List (String × Json) :=
  members.foldl (fun ordered member ↦ insertMember member.1 member.2 ordered) []

theorem ofMembers_eq (members : List (String × Json)) :
    ofMembers members = .object (orderedMembers members) := rfl

theorem lookup_orderedMembers {members : List (String × Json)}
    (h : (members.map Prod.fst).Nodup) (key : String) :
    (orderedMembers members).lookup key = members.lookup key := by
  have hfold (before : List (String × Json)) :
      (members.foldl (fun ordered member ↦ insertMember member.1 member.2 ordered) before).lookup
        key = (members.lookup key).or (before.lookup key) := by
    induction members generalizing before with
    | nil => rfl
    | cons member rest ih =>
      obtain ⟨hfirst, hrest⟩ := List.nodup_cons.1 h
      rw [List.foldl_cons, ih hrest, lookup_insertMember, lookup_cons_eq_ite]
      by_cases hkey : key = member.1
      · rw [if_pos hkey, if_pos hkey, lookup_eq_none_of_notMem (hkey ▸ hfirst)]
        rfl
      · rw [if_neg hkey, if_neg hkey]
  rw [orderedMembers, hfold, List.lookup_nil, Option.or_none]

namespace Document

variable {levels : Nat} {members : List (Option String × Document)} {values : List (String × Json)}

theorem keys_eq (h : List.Forall₂ (DenotesMember levels) members values) :
    members.map Prod.fst = (values.map Prod.fst).map some := by
  induction h with
  | nil => rfl
  | cons hhead htail ih => rw [List.map_cons, List.map_cons, List.map_cons, hhead.1, ih]

theorem nodup_keys (h : List.Forall₂ (DenotesMember levels) members values)
    (hkeys : (members.map Prod.fst).Nodup) : (values.map Prod.fst).Nodup := by
  rw [keys_eq h] at hkeys
  exact List.Nodup.of_map some hkeys

/-- What is written under a key has the value that is found there. -/
theorem rel_lookup (h : List.Forall₂ (DenotesMember levels) members values) (key : String) :
    Option.Rel (Denotes levels) (members.lookup (some key)) (values.lookup key) := by
  induction h with
  | nil => exact .none
  | @cons written member members values hhead htail ih =>
    obtain ⟨written?, document⟩ := written
    obtain ⟨hkey, hvalue⟩ := hhead
    obtain rfl : written? = some member.1 := hkey
    rw [lookup_cons_eq_ite, lookup_cons_eq_ite]
    by_cases hsame : key = member.1
    · rw [if_pos hsame, if_pos (congrArg some hsame)]
      exact .some hvalue
    · rw [if_neg hsame, if_neg fun h ↦ hsame (Option.some.inj h)]
      exact ih

/-- Members with values have readable keys and grammatical documents. -/
theorem isWhole_of_mem (h : List.Forall₂ (DenotesMember levels) members values) :
    ∀ member ∈ members, member.1.isSome ∧ member.2.isWhole := by
  intro member hmember
  obtain ⟨_, -, hkey, hvalue⟩ := exists_of_forall₂ h member hmember
  exact ⟨Option.isSome_of_eq_some hkey, hvalue.isWhole⟩

/-- The value of an object has under every key what is written there, if no key is repeated. -/
theorem rel_lookup_orderedMembers (h : List.Forall₂ (DenotesMember levels) members values)
    (hkeys : (members.map Prod.fst).Nodup) (key : String) :
    Option.Rel (Denotes levels) (members.lookup (some key))
      ((orderedMembers values).lookup key) := by
  rw [lookup_orderedMembers (nodup_keys h hkeys)]
  exact rel_lookup h key

end Document

/-! ## Fields of records -/

namespace Reader

/-- What is known of a field after an object has been read, given what was known before and what is
written under the key of the field. -/
def Reads {α : Type} (read : Reader α) (before : Option α) (document? : Option Document)
    (after : Option α) : Prop :=
  match document? with
  | none => after = before
  | some document => before = none ∧ ∃ value, read document = .ok value ∧ after = some value

theorem reads_some {α : Type} {read : Reader α} {before after : Option α} {document : Document} :
    Reads read before (some document) after ↔
      before = none ∧ ∃ value, read document = .ok value ∧ after = some value :=
  Iff.rfl

/-- A field that can be read can also be read before all of the object is known. -/
theorem exists_reads_of_append {α : Type} {read : Reader α} {key : Option String}
    {before after : List (Option String × Document)} {found : Option α}
    (h : Reads read none ((before ++ after).lookup key) found) :
    ∃ found, Reads read none (before.lookup key) found := by
  cases hbefore : before.lookup key with
  | none => exact ⟨none, rfl⟩
  | some document =>
    rw [List.lookup_append, hbefore, Option.some_or] at h
    exact ⟨found, h⟩

theorem once_eq_ok_iff {α : Type} {name : String} {before after : Option α} {read : Reader α}
    {document : Document} : once name before read document = .ok after ↔
      Reads read before (some document) after := by
  cases before with
  | some value => simp [once, Reads]
  | none =>
    simp only [once, Reads, Option.isSome_none, Bool.false_eq_true, if_false, true_and]
    cases read document <;> simp [Except.map, eq_comm]

theorem once_of_ok {α : Type} {name : String} {read : Reader α} {document : Document} {value : α}
    (h : read document = .ok value) : once name none read document = .ok (some value) :=
  once_eq_ok_iff.2 ⟨rfl, value, h, rfl⟩

/-! ## Accepted records -/

variable {α δ : Type} {read : Reader α} {value : α} {document : Document}

theorem read_of_once {name : String} {before after : Option α}
    (h : once name before read document = .ok after) :
    ∃ value, read document = .ok value ∧ after = some value := by
  obtain ⟨-, hvalue⟩ := reads_some.1 (once_eq_ok_iff.1 h)
  exact hvalue

/-- What holds of a draft and is kept by every member holds of it in the end. -/
theorem members_invariant (kept : δ → Prop) {member : δ → String → Reader δ} {draft last : δ}
    {written : List (Option String × Document)} {closed : Bool} (hdraft : kept draft)
    (hmember : ∀ draft key document next, kept draft → member draft key document = .ok next →
      kept next) (h : Reader.members member draft written closed = .ok last) : kept last := by
  rw [Reader.members] at h
  obtain ⟨final, hfold, hclosed⟩ := bind_eq_ok h
  have hfinal : final = last := by
    split at hclosed
    · exact Except.ok.inj hclosed
    · cases hclosed
  subst hfinal
  clear h hclosed
  induction written generalizing draft with
  | nil => exact Except.ok.inj hfold ▸ hdraft
  | cons first rest ih =>
    rw [List.foldlM_cons] at hfold
    obtain ⟨next, hnext, hrest⟩ := bind_eq_ok hfold
    obtain ⟨_ | key, document⟩ := first
    · cases hnext
    · exact ih (hmember draft key document next hdraft hnext) hrest

/-- An object is refused for a member if those before it are accepted. -/
theorem members_eq_error {member : δ → String → Reader δ} {draft middle : δ} {key : String}
    {before after : List (Option String × Document)} {closed : Bool} {fault : ReadError}
    (hbefore : Reader.members member draft before true = .ok middle)
    (hfault : member middle key document = .error fault) :
    Reader.members member draft (before ++ (some key, document) :: after) closed =
      .error fault := by
  rw [Reader.members] at hbefore
  obtain ⟨final, hfold, hfinal⟩ := bind_eq_ok hbefore
  obtain rfl : final = middle := Except.ok.inj hfinal
  rw [Reader.members, List.foldlM_append, hfold]
  simp only [List.foldlM_cons]
  change ((member final key document >>= _) >>= _) = _
  rw [hfault]
  rfl

theorem eq_some_of_require {name : String} {found : Option α} (h : require name found = .ok value) :
    found = some value := by
  cases found with
  | none => cases h
  | some found => exact congrArg some (Except.ok.inj h)

theorem read_of_element {layout : Layout} {items : List Document} {closed : Bool} {index : Nat}
    {absent : Option α} (h : element layout items closed index absent read = .ok value) :
    absent = some value ∨ ∃ document, read document = .ok value := by
  unfold element at h
  split at h
  · exact .inr ⟨_, h⟩
  · split at h
    · exact .inl (congrArg some (Except.ok.inj h))
    · cases h
  · cases h

/-- What is read from a text is read from a document. -/
theorem read_of_run [DoubleReader] {text : String} (h : read.run text = .ok value) :
    ∃ document, read document = .ok value := by
  rw [Reader.run] at h
  generalize Document.ofTokens (Token.scan text.toList) = found at h
  obtain ⟨document, trailing⟩ := found
  obtain ⟨result, hresult, h⟩ := bind_eq_ok h
  cases trailing with
  | true => cases h
  | false =>
    cases h
    exact ⟨document, hresult⟩

/-- A reader that refuses every head accepts no document. -/
theorem plain_error_ne_ok {fault : Head → Mismatch} :
    Reader.plain (fun head ↦ (.error (fault head) : Except Mismatch α)) document ≠ .ok value := by
  unfold Reader.plain
  intro h
  cases hhead : document.head? with
  | none =>
    rw [hhead] at h
    cases h
  | some head =>
    rw [hhead] at h
    cases h

theorem read_of_mapM {items : List Document} {values : List α}
    (h : items.mapM read = .ok values) : ∀ value ∈ values, ∃ item, read item = .ok value := by
  induction items generalizing values with
  | nil =>
    cases h
    simp
  | cons item items ih =>
    simp only [List.mapM_cons, bind_eq_ok_iff, pure_eq_ok_iff] at h
    obtain ⟨first, hfirst, rest, hrest, rfl⟩ := h
    exact List.forall_mem_cons.2 ⟨⟨item, hfirst⟩, ih hrest⟩

theorem read_of_list {values : List α} (h : list read document = .ok values) :
    ∀ value ∈ values, ∃ item, read item = .ok value := by
  cases document with
  | array items closed =>
    obtain ⟨found, hitems, hclosed⟩ := bind_eq_ok h
    split at hclosed
    · exact Except.ok.inj hclosed ▸ read_of_mapM hitems
    · cases hclosed
  | _ =>
    simp only [list] at h
    exact absurd h plain_error_ne_ok

end Reader

end StagedQuery.Json
