import StagedQuery.Proofs.Binary64.Marked
import StagedQuery.Proofs.Json.Ordered
import StagedQuery.Proofs.Json.Places
import StagedQuery.Proofs.Json.Strings

/-!
# Values Read Back

The compact text of a value is one whole document, which denotes the value if every double in it is
read from the numeral that is written for it.  The machine that builds a document meets the
brackets, commas and colons of the text one after the other, and takes each inner value as a whole.
-/

namespace StagedQuery.Json

/-- A statement about values holds if every container inherits it from what it holds. -/
@[elab_as_elim, induction_eliminator]
theorem induct {motive : Json → Prop} (null : motive .null) (bool : ∀ value, motive (.bool value))
    (number : ∀ value, motive (.number value)) (string : ∀ value, motive (.string value))
    (array : ∀ items, (∀ item ∈ items, motive item) → motive (.array items))
    (object : ∀ members, (∀ member ∈ members, motive member.2) → motive (.object members))
    (value : Json) : motive value := by
  apply @Json.rec motive (fun items ↦ ∀ item ∈ items, motive item)
    (fun members ↦ ∀ member ∈ members, motive member.2) (fun member ↦ motive member.2)
    null bool number string array object
  · simp
  · intro head tail hhead htail
    exact List.forall_mem_cons.2 ⟨hhead, htail⟩
  · simp
  · intro head tail hhead htail
    exact List.forall_mem_cons.2 ⟨hhead, htail⟩
  · intro key value hvalue
    exact hvalue

/-! ## Documents of values -/

mutual

/-- The document of the text of a value. -/
def toDocument : Json → Document
  | .null => .null
  | .bool value => .bool value
  | .number value => .number (some value)
  | .string value => .string (some value)
  | .array items => .array (itemDocuments items) true
  | .object members => .object (memberDocuments members) true

def itemDocuments : List Json → List Document
  | [] => []
  | item :: items => item.toDocument :: itemDocuments items

def memberDocuments : List (String × Json) → List (Option String × Document)
  | [] => []
  | (key, value) :: members => (some key, value.toDocument) :: memberDocuments members

end

theorem itemDocuments_eq (items : List Json) : itemDocuments items = items.map toDocument := by
  induction items with
  | nil => rfl
  | cons item items ih => rw [itemDocuments, ih, List.map_cons]

theorem memberDocuments_eq (members : List (String × Json)) :
    memberDocuments members = members.map fun member ↦ (some member.1, member.2.toDocument) := by
  induction members with
  | nil => rfl
  | cons member members ih => rw [memberDocuments, ih, List.map_cons]

/-- A value is what its document denotes, if its keys are in order and it does not nest too deep. -/
theorem denotes_toDocument {levels : Nat} {value : Json} (h : value.Fits levels) :
    value.toDocument.Denotes levels value := by
  induction value generalizing levels with
  | null | bool | number | string => rfl
  | array items ih =>
    obtain ⟨below, rfl, hitems⟩ := fits_array.1 h
    rw [toDocument, itemDocuments_eq]
    refine Document.denotes_array.2 ⟨rfl, below, items, rfl, ?_, rfl⟩
    refine List.forall₂_map_left_iff.2 (List.forall₂_same.2 fun item hitem ↦ ?_)
    exact ih item hitem (hitems item hitem)
  | object members ih =>
    obtain ⟨below, rfl, hkeys, hmembers⟩ := fits_object.1 h
    rw [toDocument, memberDocuments_eq]
    refine Document.denotes_object.2 ⟨rfl, below, members, rfl, ?_, ?_⟩
    · refine List.forall₂_map_left_iff.2 (List.forall₂_same.2 fun member hmember ↦ ?_)
      exact ⟨rfl, ih member hmember (hmembers member hmember)⟩
    · rw [ofMembers_eq, orderedMembers_of_pairwise hkeys]

/-! ## Doubles of values -/

mutual

/-- The doubles in a value. -/
def doubles : Json → List Binary64.Finite
  | .number (.double value) => [value]
  | .array items => doublesOfItems items
  | .object members => doublesOfMembers members
  | _ => []

def doublesOfItems : List Json → List Binary64.Finite
  | [] => []
  | item :: items => item.doubles ++ doublesOfItems items

def doublesOfMembers : List (String × Json) → List Binary64.Finite
  | [] => []
  | (_, value) :: members => value.doubles ++ doublesOfMembers members

end

theorem doubles_array (items : List Json) : (array items).doubles = items.flatMap doubles := by
  rw [doubles]
  induction items with
  | nil => rfl
  | cons item items ih => rw [doublesOfItems, ih, List.flatMap_cons]

theorem doubles_object (members : List (String × Json)) :
    (object members).doubles = members.flatMap fun member ↦ member.2.doubles := by
  rw [doubles]
  induction members with
  | nil => rfl
  | cons member members ih => rw [doublesOfMembers, ih, List.flatMap_cons]

/-! ## Texts of values -/

theorem itemTexts_eq (items : List Json) : itemTexts items = items.map text := by
  induction items with
  | nil => rfl
  | cons item items ih => rw [itemTexts, ih, List.map_cons]

/-- The text of a member of an object. -/
def memberText (member : String × Json) : String := stringText member.1 ++ ":" ++ member.2.text

theorem memberTexts_eq (members : List (String × Json)) :
    memberTexts members = members.map memberText := by
  induction members with
  | nil => rfl
  | cons member members ih => rw [memberTexts, ih, List.map_cons, memberText]

/-- Texts after the first one, each with a comma before it. -/
def afterCommas (texts : List String) : List Char := texts.flatMap fun text ↦ ',' :: text.toList

theorem afterCommas_cons (text : String) (texts : List String) (closing : Char) :
    afterCommas (text :: texts) ++ [closing] =
      ',' :: (text.toList ++ (afterCommas texts ++ [closing])) := by
  simp [afterCommas]

theorem toList_intercalate (first : String) (rest : List String) :
    (",".intercalate (first :: rest)).toList = first.toList ++ afterCommas rest := by
  induction rest generalizing first with
  | nil => simp [afterCommas]
  | cons second rest ih =>
    rw [String.intercalate_cons_cons, String.toList_append, String.toList_append, ih]
    simp [afterCommas]

theorem toList_enclose_cons (opening closing first : String) (rest : List String) :
    (enclose opening closing (first :: rest)).toList =
      opening.toList ++ (first.toList ++ (afterCommas rest ++ closing.toList)) := by
  rw [enclose, String.toList_append, String.toList_append, toList_intercalate]
  simp only [List.append_assoc]

theorem delimits_afterCommas (texts : List String) {closing : Char} (h : closing ∈ delimiters) :
    Delimits (afterCommas texts ++ [closing]) := by
  cases texts with
  | nil => exact delimits_cons h []
  | cons text texts => exact delimits_cons (by decide) _

variable [DoubleReader]

namespace Token

theorem scan_stringText (value : String) (rest : List Char) :
    scan ((stringText value).toList ++ rest) = .string (some value) :: scan rest := by
  have hfirst := scanFirst_stringText value rest
  have htext : (stringText value).toList ++ rest =
      '"' :: (value.toList.flatMap stringChar ++ '"' :: rest) := by
    simp [stringText]
  rw [htext] at hfirst ⊢
  exact scan_of_scanFirst rfl hfirst

end Token

open Token (scan scan_of_scanFirst scan_append_delimits scan_stringText)

namespace Document

open Place (take afterValue foldl_within foldl_firstItem invalid_notMem_of_foldl)

/-- The text is the document, with nothing around it. -/
def IsTextOf (text : String) (document : Document) : Prop :=
  (scan text.toList).foldl take (.beforeValue []) = .afterRoot document

variable {text : String} {document : Document} {rest : List Char} {frames : List Frame}

theorem IsTextOf.scan_append (h : IsTextOf text document) (hrest : Delimits rest) :
    scan (text.toList ++ rest) = scan text.toList ++ scan rest :=
  scan_append_delimits hrest (invalid_notMem_of_foldl h)

/-- In front of a delimiter, the text of a document is taken as one value. -/
theorem IsTextOf.foldl_append (h : IsTextOf text document) (hrest : Delimits rest)
    (frames : List Frame) : (scan (text.toList ++ rest)).foldl take (.beforeValue frames) =
      (scan rest).foldl take (afterValue document frames) := by
  have hvalue : (scan text.toList).foldl take (.beforeValue frames) = afterValue document frames :=
    foldl_within (by simp) h frames
  rw [h.scan_append hrest, List.foldl_append, hvalue]

/-! ### Arrays -/

theorem foldl_firstItem_append (h : IsTextOf text document) (hrest : Delimits rest)
    (frames : List Frame) : (scan (text.toList ++ rest)).foldl take (.afterOpenArray frames) =
      (scan rest).foldl take (.afterItem [document] frames) := by
  rw [h.scan_append hrest, List.foldl_append, foldl_firstItem h]

/-- The items after the first one, and the end of the array. -/
theorem foldl_items {items : List Json} (h : ∀ item ∈ items, IsTextOf item.text item.toDocument)
    (before : List Document) (frames : List Frame) :
    (scan (afterCommas (items.map Json.text) ++ [']'])).foldl take (.afterItem before frames) =
      afterValue (.array (before.reverse ++ items.map toDocument) true) frames := by
  induction items generalizing before with
  | nil =>
    have hend : scan [']'] = [.endArray] := by
      rw [scan_of_scanFirst rfl rfl, scan]
    simp only [List.map_nil, afterCommas, List.flatMap_nil, List.nil_append, List.append_nil, hend]
    rfl
  | cons item items ih =>
    obtain ⟨hitem, hitems⟩ := List.forall_mem_cons.1 h
    have hrest : Delimits (afterCommas (items.map Json.text) ++ [']']) :=
      delimits_afterCommas _ (by decide)
    have hcomma : take (.afterItem before frames) .comma =
        .beforeValue (.array before :: frames) := rfl
    rw [List.map_cons, afterCommas_cons, scan_of_scanFirst rfl rfl, List.foldl_cons, hcomma,
      hitem.foldl_append hrest, Place.afterValue, ih hitems, List.reverse_cons, List.append_assoc,
      List.map_cons, List.singleton_append]

theorem isTextOf_array {items : List Json}
    (h : ∀ item ∈ items, IsTextOf item.text item.toDocument) :
    IsTextOf (Json.array items).text (Json.array items).toDocument := by
  rw [IsTextOf, Json.text, itemTexts_eq, toDocument, itemDocuments_eq]
  cases items with
  | nil =>
    have hscan : scan ['[', ']'] = [.beginArray, .endArray] := by
      rw [scan_of_scanFirst rfl rfl, scan_of_scanFirst rfl rfl, scan]
    exact congrArg (List.foldl take (.beforeValue [])) hscan
  | cons item items =>
    obtain ⟨hitem, hitems⟩ := List.forall_mem_cons.1 h
    have hrest : Delimits (afterCommas (items.map Json.text) ++ [']']) :=
      delimits_afterCommas _ (by decide)
    have htext : (enclose "[" "]" (item.text :: items.map Json.text)).toList =
        '[' :: (item.text.toList ++ (afterCommas (items.map Json.text) ++ [']'])) := by
      simp [toList_enclose_cons]
    have hopen : take (.beforeValue []) .beginArray = .afterOpenArray [] := rfl
    rw [List.map_cons, htext, scan_of_scanFirst rfl rfl, List.foldl_cons, hopen,
      foldl_firstItem_append hitem hrest, foldl_items hitems]
    rfl

/-! ### Objects -/

theorem scan_memberText (member : String × Json) (rest : List Char) :
    scan ((memberText member).toList ++ rest) =
      .string (some member.1) :: .colon :: scan (member.2.text.toList ++ rest) := by
  have htext : (memberText member).toList ++ rest =
      (stringText member.1).toList ++ ':' :: (member.2.text.toList ++ rest) := by
    simp [memberText]
  rw [htext, scan_stringText, scan_of_scanFirst rfl rfl]

/-- A member, from its key on. -/
theorem foldl_member {member : String × Json}
    (h : IsTextOf member.2.text member.2.toDocument) (hrest : Delimits rest)
    (before : List (Option String × Document)) (frames : List Frame) :
    (scan ((memberText member).toList ++ rest)).foldl take (.beforeKey before frames) =
      (scan rest).foldl take
        (.afterMember ((some member.1, member.2.toDocument) :: before) frames) := by
  have hkey : take (take (.beforeKey before frames) (.string (some member.1))) .colon =
      .beforeValue (.object before (some member.1) :: frames) := rfl
  rw [scan_memberText, List.foldl_cons, List.foldl_cons, hkey, h.foldl_append hrest,
    Place.afterValue]

theorem foldl_members {members : List (String × Json)}
    (h : ∀ member ∈ members, IsTextOf member.2.text member.2.toDocument)
    (before : List (Option String × Document)) (frames : List Frame) :
    (scan (afterCommas (members.map memberText) ++ ['\x7d'])).foldl take
        (.afterMember before frames) =
      afterValue (.object (before.reverse ++
        members.map fun member ↦ (some member.1, member.2.toDocument)) true) frames := by
  induction members generalizing before with
  | nil =>
    have hend : scan ['\x7d'] = [.endObject] := by
      rw [scan_of_scanFirst rfl rfl, scan]
    simp only [List.map_nil, afterCommas, List.flatMap_nil, List.nil_append, List.append_nil, hend]
    rfl
  | cons member members ih =>
    obtain ⟨hmember, hmembers⟩ := List.forall_mem_cons.1 h
    have hrest : Delimits (afterCommas (members.map memberText) ++ ['\x7d']) :=
      delimits_afterCommas _ (by decide)
    have hcomma : take (.afterMember before frames) .comma = .beforeKey before frames := rfl
    rw [List.map_cons, afterCommas_cons, scan_of_scanFirst rfl rfl, List.foldl_cons, hcomma,
      foldl_member hmember hrest, ih hmembers, List.reverse_cons, List.append_assoc, List.map_cons,
      List.singleton_append]

theorem isTextOf_object {members : List (String × Json)}
    (h : ∀ member ∈ members, IsTextOf member.2.text member.2.toDocument) :
    IsTextOf (Json.object members).text (Json.object members).toDocument := by
  rw [IsTextOf, Json.text, memberTexts_eq, toDocument, memberDocuments_eq]
  cases members with
  | nil =>
    have hscan : scan ['\x7b', '\x7d'] = [.beginObject, .endObject] := by
      rw [scan_of_scanFirst rfl rfl, scan_of_scanFirst rfl rfl, scan]
    exact congrArg (List.foldl take (.beforeValue [])) hscan
  | cons member members =>
    obtain ⟨hmember, hmembers⟩ := List.forall_mem_cons.1 h
    have hrest : Delimits (afterCommas (members.map memberText) ++ ['\x7d']) :=
      delimits_afterCommas _ (by decide)
    have htext : (enclose "\x7b" "\x7d" (memberText member :: members.map memberText)).toList =
        '\x7b' :: ((memberText member).toList ++
          (afterCommas (members.map memberText) ++ ['\x7d'])) := by
      simp [toList_enclose_cons]
    have hopen : ∀ tokens, List.foldl take (.beforeValue [])
        (.beginObject :: .string (some member.1) :: tokens) =
          List.foldl take (.beforeKey [] []) (.string (some member.1) :: tokens) := fun _ ↦ rfl
    have hfirst := foldl_member hmember hrest [] []
    rw [scan_memberText] at hfirst
    rw [List.map_cons, htext, scan_of_scanFirst rfl rfl, scan_memberText, hopen, hfirst,
      foldl_members hmembers]
    rfl

end Document

/-! ## Every value -/

/-- Every number is written as a numeral that is read as the number. -/
theorem Number.exists_isWrittenAs {value : Number}
    (h : ∀ double ∈ (Json.number value).doubles, DoubleReader.Recovers double) :
    ∃ numeral, value.IsWrittenAs numeral := by
  cases value with
  | integer value fits => exact ⟨_, integer_isWrittenAs fits⟩
  | double value => exact exists_double_isWrittenAs (h value (List.mem_singleton_self _))

/-- The text of a value is its document, if the doubles in it are read back. -/
theorem isTextOf_text {value : Json} (h : ∀ double ∈ value.doubles, DoubleReader.Recovers double) :
    Document.IsTextOf value.text value.toDocument := by
  induction value with
  | null =>
    have hscan : Token.scan "null".toList = [.null] := by
      rw [show "null".toList = ['n', 'u', 'l', 'l'] by decide, scan_of_scanFirst rfl rfl, scan]
    exact congrArg (List.foldl Document.Place.take (.beforeValue [])) hscan
  | bool value =>
    have hscan : Token.scan (Json.bool value).text.toList = [.bool value] := by
      cases value with
      | true =>
        rw [show (Json.bool true).text.toList = ['t', 'r', 'u', 'e'] by decide,
          scan_of_scanFirst rfl rfl, scan]
      | false =>
        rw [show (Json.bool false).text.toList = ['f', 'a', 'l', 's', 'e'] by decide,
          scan_of_scanFirst rfl rfl, scan]
    exact congrArg (List.foldl Document.Place.take (.beforeValue [])) hscan
  | number value =>
    obtain ⟨numeral, hnumeral⟩ := Number.exists_isWrittenAs h
    exact congrArg (List.foldl Document.Place.take (.beforeValue [])) hnumeral.scan_text
  | string value =>
    have hscan : Token.scan (stringText value).toList = [.string (some value)] := by
      rw [← List.append_nil (stringText value).toList, scan_stringText, scan]
    exact congrArg (List.foldl Document.Place.take (.beforeValue [])) hscan
  | array items ih =>
    rw [doubles_array, List.forall_mem_flatMap] at h
    exact Document.isTextOf_array fun item hitem ↦ ih item hitem (h item hitem)
  | object members ih =>
    rw [doubles_object, List.forall_mem_flatMap] at h
    exact Document.isTextOf_object fun member hmember ↦ ih member hmember (h member hmember)

/-- A reader of documents gets the document of a value from its text. -/
theorem Document.ofTokens_text {value : Json}
    (h : ∀ double ∈ value.doubles, DoubleReader.Recovers double) :
    ofTokens (scan value.text.toList) = (value.toDocument, false) := by
  rw [ofTokens, isTextOf_text h]
  rfl

theorem Reader.run_text {α : Type} (read : Reader α) {value : Json}
    (h : ∀ double ∈ value.doubles, DoubleReader.Recovers double) :
    read.run value.text = read value.toDocument := by
  rw [Reader.run, Document.ofTokens_text h]
  exact bind_pure (read value.toDocument)

end StagedQuery.Json
