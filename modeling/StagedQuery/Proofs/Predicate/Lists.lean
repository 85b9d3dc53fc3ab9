import StagedQuery.Proofs.Predicate.Shapes
import Mathlib.Data.List.DropRight

/-!
# Lists in Texts

A list of texts can be sent as an array, or as one text with its items between commas.  In the text
an item may have blank margins, and pieces without an item may stand anywhere.  Every text lists
some items in this way, and an operator on lists takes it exactly as it takes the array of them.
-/

namespace StagedQuery

/-! ## Blank margins -/

namespace Text

variable {text before after : List Char}

def AllBlank (text : List Char) : Prop := ∀ c ∈ text, isBlank c

instance (text : List Char) : Decidable (AllBlank text) :=
  List.decidableBAll _ text

/-- No blank character stands at either end. -/
structure IsTrimmed (text : List Char) : Prop where
  head : ∀ c ∈ text.head?, isBlank c = false
  last : ∀ c ∈ text.getLast?, isBlank c = false

theorem trim_eq (text : List Char) : trim text = (text.dropWhile isBlank).rdropWhile isBlank := rfl

theorem trim_eq_nil_iff : trim text = [] ↔ AllBlank text := by
  constructor
  · intro h c hc
    rw [← List.takeWhile_append_dropWhile (p := isBlank) (l := text)] at hc
    rcases List.mem_append.1 hc with hc | hc
    · exact List.mem_takeWhile_imp hc
    · exact List.rdropWhile_eq_nil_iff.1 h c hc
  · intro h
    rw [trim_eq, List.dropWhile_eq_nil_iff.2 h, List.rdropWhile_nil]

theorem trim_of_isTrimmed (h : IsTrimmed text) : trim text = text := by
  have hdrop : text.dropWhile isBlank = text := by
    cases text with
    | nil => rfl
    | cons c rest => exact List.dropWhile_cons_of_neg (by simp [h.head c rfl])
  rw [trim_eq, hdrop, List.rdropWhile_eq_self_iff]
  intro hnonempty
  simp [h.last _ (List.getLast?_eq_some_getLast hnonempty)]

theorem trim_append_left (hbefore : AllBlank before) (text : List Char) :
    trim (before ++ text) = trim text := by
  rw [trim_eq, List.dropWhile_append_of_pos hbefore, trim_eq]

/-- A blank margin behind a text is cut off, whatever stands at the beginning of the text. -/
theorem trim_append_right (hafter : AllBlank after) (text : List Char) :
    trim (text ++ after) = trim text := by
  have hblank (text : List Char) :
      (text ++ after).rdropWhile isBlank = text.rdropWhile isBlank := by
    rw [List.rdropWhile, List.reverse_append,
      List.dropWhile_append_of_pos fun c hc ↦ hafter c (List.mem_reverse.1 hc), List.rdropWhile]
  rw [trim_eq, trim_eq, List.dropWhile_append]
  split
  · next hempty =>
    rw [List.isEmpty_iff.1 hempty, List.dropWhile_eq_nil_iff.2 hafter]
  · exact hblank _

theorem isTrimmed_trim (text : List Char) : IsTrimmed (trim text) where
  head := by
    intro c hc
    obtain ⟨after, hafter⟩ := List.rdropWhile_prefix isBlank (text.dropWhile isBlank)
    have hhead := List.head?_dropWhile_not isBlank text
    rw [← hafter, ← trim_eq, List.head?_append, hc] at hhead
    exact hhead
  last := by
    intro c hc
    obtain ⟨hnonempty, rfl⟩ := List.mem_getLast?_eq_getLast hc
    exact Bool.not_eq_true _ ▸ List.rdropWhile_last_not isBlank (text.dropWhile isBlank) hnonempty

/-- A text is itself without its margins, between these margins. -/
theorem exists_margins (text : List Char) : ∃ before after,
    AllBlank before ∧ AllBlank after ∧ text = before ++ trim text ++ after := by
  refine ⟨text.takeWhile isBlank, (text.dropWhile isBlank).rtakeWhile isBlank,
    fun c hc ↦ List.mem_takeWhile_imp hc, fun c hc ↦ List.mem_rtakeWhile_imp hc, ?_⟩
  rw [trim_eq, List.append_assoc, List.rdropWhile_append_rtakeWhile,
    List.takeWhile_append_dropWhile]

/-! ## Pieces between commas -/

theorem notMem_of_mem_splitOn {separator : Char} {text piece : List Char}
    (h : piece ∈ text.splitOn separator) : separator ∉ piece := by
  induction text generalizing piece with
  | nil =>
    obtain rfl : piece = [] := by simpa using h
    exact List.not_mem_nil
  | cons c rest ih =>
    rw [List.splitOn_cons_eq_if_modifyHead] at h
    split at h
    · rcases List.mem_cons.1 h with rfl | h
      · exact List.not_mem_nil
      · exact ih h
    · next hc =>
      obtain ⟨first, later, hsplit⟩ :=
        List.exists_cons_of_ne_nil (List.splitOn_ne_nil separator rest)
      rw [hsplit, List.modifyHead_cons] at h
      rw [hsplit] at ih
      rcases List.mem_cons.1 h with rfl | h
      · have hseparator : separator ≠ c := fun heq ↦ hc (by simp [heq])
        exact List.not_mem_cons_of_ne_of_not_mem hseparator (ih List.mem_cons_self)
      · exact ih (List.mem_cons_of_mem _ h)

/-- A text that a list can have as an item in a text. -/
structure IsItem (item : String) : Prop where
  nonempty : item.toList ≠ []
  comma : ',' ∉ item.toList
  trimmed : IsTrimmed item.toList

/-- The pieces hold the items in their order.  Every piece is an item between blank margins, or
holds nothing but blank characters. -/
inductive Holds : List (List Char) → List String → Prop
  | nil : Holds [] []
  | blank {piece : List Char} {pieces : List (List Char)} {items : List String}
      (isBlank : AllBlank piece) (rest : Holds pieces items) : Holds (piece :: pieces) items
  | item {before after : List Char} {item : String} {pieces : List (List Char)}
      {items : List String} (before_isBlank : AllBlank before) (isItem : IsItem item)
      (after_isBlank : AllBlank after) (rest : Holds pieces items) :
      Holds ((before ++ item.toList ++ after) :: pieces) (item :: items)

/-- Between its commas the text holds the items. -/
def Lists (text : String) (items : List String) : Prop :=
  ∃ pieces, pieces ≠ [] ∧ text.toList = [','].intercalate pieces ∧ Holds pieces items

namespace Holds

variable {pieces : List (List Char)} {items : List String}

theorem comma_notMem (h : Holds pieces items) : ∀ piece ∈ pieces, ',' ∉ piece := by
  have hcomma {text : List Char} (htext : AllBlank text) : ',' ∉ text :=
    fun hmem ↦ absurd (htext ',' hmem) (by decide)
  induction h with
  | nil => exact List.forall_mem_nil _
  | blank isBlank rest ih => exact List.forall_mem_cons.2 ⟨hcomma isBlank, ih⟩
  | item before_isBlank isItem after_isBlank rest ih =>
    refine List.forall_mem_cons.2 ⟨?_, ih⟩
    simp only [List.mem_append, not_or]
    exact ⟨⟨hcomma before_isBlank, isItem.comma⟩, hcomma after_isBlank⟩

/-- Without their margins and without the blank ones, the pieces are the items. -/
theorem filter_map_trim (h : Holds pieces items) :
    (pieces.map trim).filter (· ≠ []) = items.map String.toList := by
  induction h with
  | nil => rfl
  | blank isBlank rest ih =>
    rw [List.map_cons, trim_eq_nil_iff.2 isBlank, List.filter_cons_of_neg (by simp), ih]
  | item before_isBlank isItem after_isBlank rest ih =>
    rw [List.map_cons, trim_append_right after_isBlank, trim_append_left before_isBlank,
      trim_of_isTrimmed isItem.trimmed,
      List.filter_cons_of_pos (by simpa using isItem.nonempty), ih, List.map_cons]

theorem eq_nil_iff (h : Holds pieces items) :
    items = [] ↔ ∀ piece ∈ pieces, AllBlank piece := by
  have hitems := h.filter_map_trim
  rw [← List.map_eq_nil_iff (f := String.toList), ← hitems, List.filter_eq_nil_iff]
  simp [trim_eq_nil_iff]

theorem isItem_of_mem (h : Holds pieces items) : ∀ item ∈ items, IsItem item := by
  induction h with
  | nil => exact List.forall_mem_nil _
  | blank isBlank rest ih => exact ih
  | item before_isBlank isItem after_isBlank rest ih => exact List.forall_mem_cons.2 ⟨isItem, ih⟩

/-- Pieces without commas hold some items. -/
theorem exists_of_comma_notMem (h : ∀ piece ∈ pieces, ',' ∉ piece) :
    ∃ items, Holds pieces items := by
  induction pieces with
  | nil => exact ⟨[], .nil⟩
  | cons piece rest ih =>
    obtain ⟨hpiece, hrest⟩ := List.forall_mem_cons.1 h
    obtain ⟨items, hitems⟩ := ih hrest
    by_cases hblank : trim piece = []
    · exact ⟨items, .blank (trim_eq_nil_iff.1 hblank) hitems⟩
    · obtain ⟨before, after, hbefore, hafter, hmargins⟩ := exists_margins piece
      have hitem : IsItem (String.ofList (trim piece)) := by
        refine ⟨by simpa using hblank, ?_, by simpa using isTrimmed_trim piece⟩
        rw [String.toList_ofList]
        intro hcomma
        rw [hmargins] at hpiece
        exact hpiece (List.mem_append_left _ (List.mem_append_right _ hcomma))
      have hholds := Holds.item hbefore hitem hafter hitems
      rw [String.toList_ofList, ← hmargins] at hholds
      exact ⟨_, hholds⟩

end Holds

namespace Lists

variable {text : String} {items : List String}

theorem holds_splitOn (h : Lists text items) : Holds (text.toList.splitOn ',') items := by
  obtain ⟨pieces, hnonempty, htext, hholds⟩ := h
  rwa [htext, List.splitOn_intercalate ',' hholds.comma_notMem hnonempty]

end Lists

/-- Every text lists some items. -/
theorem exists_lists (text : String) : ∃ items, Lists text items := by
  obtain ⟨items, hitems⟩ := Holds.exists_of_comma_notMem
    fun piece (hpiece : piece ∈ text.toList.splitOn ',') ↦ notMem_of_mem_splitOn hpiece
  exact ⟨items, _, List.splitOn_ne_nil ',' _, (List.intercalate_splitOn ',').symm, hitems⟩

end Text

/-! ## Operators on lists -/

namespace Predicate

open Text (Lists)

theorem splitList_of_lists {text : String} {items : List String} (h : Lists text items) :
    splitList text = items.map .text := by
  rw [splitList, h.holds_splitOn.filter_map_trim, List.map_map]
  exact List.map_congr_left fun item _ ↦ congrArg Scalar.text String.ofList_toList

/-- The predicate of an operator on lists with the given texts, which must not be missing. -/
def ofItems (negated : Bool) (items : List String) : Except RuleFault Predicate :=
  if items = [] then .error (.emptyList (.member negated))
  else .ok (.member negated (items.map .text))

theorem ofJson_of_listItems {negated : Bool} {value : Json} {items : List String}
    (h : listItems (.member negated) value = .ok (items.map .text)) :
    ofJson (.member negated) value = ofItems negated items := by
  have hoperands : listOperands (.member negated) value =
      if items.map Scalar.text = [] then .error (.emptyList (.member negated))
      else .ok (items.map .text) := by
    rw [listOperands, h]
    rfl
  rw [ofJson, hoperands, ofItems]
  by_cases hitems : items = []
  · rw [if_pos hitems, if_pos (List.map_eq_nil_iff.2 hitems)]
    rfl
  · rw [if_neg hitems, if_neg (mt List.map_eq_nil_iff.1 hitems)]
    rfl

theorem ofItems_eq_error_iff {negated : Bool} {items : List String} :
    ofItems negated items = .error (.emptyList (.member negated)) ↔ items = [] := by
  unfold ofItems
  split <;> simp_all

/-- An operator on lists takes a text that lists some items, with blank margins around them and
blank pieces between them, as it takes the array of the items; so both state the same about every
field.  Conversely every text lists some items, which are its pieces between commas without their
blank margins and without the blank pieces, and it is refused exactly if all pieces are blank. -/
theorem list_text_eq_array (negated : Bool) :
    (∀ (text : String) (items : List String), Lists text items →
      ofJson (.member negated) (.string text) = ofItems negated items ∧
      ofJson (.member negated) (.array (items.map .string)) = ofItems negated items ∧
      ∀ (field reference : String) (type : FieldType),
        Rule.fragment ⟨field, (Operator.member negated).name, .string text⟩ reference type =
          Rule.fragment ⟨field, (Operator.member negated).name, .array (items.map .string)⟩
            reference type) ∧
    ∀ text : String, ∃ items, Lists text items ∧ (∀ item ∈ items, Text.IsItem item) ∧
      ofJson (.member negated) (.string text) = ofItems negated items ∧
      (ofJson (.member negated) (.string text) = .error (.emptyList (.member negated)) ↔
        ∀ piece ∈ text.toList.splitOn ',', Text.AllBlank piece) := by
  have htext {text : String} {items : List String} (h : Lists text items) :
      ofJson (.member negated) (.string text) = ofItems negated items :=
    ofJson_of_listItems (congrArg Except.ok (splitList_of_lists h))
  have harray (items : List String) :
      ofJson (.member negated) (.array (items.map .string)) = ofItems negated items :=
    ofJson_of_listItems (listItems_array _ (by simp only [List.map_map]; rfl))
  constructor
  · intro text items h
    refine ⟨htext h, harray items, fun field reference type ↦ ?_⟩
    simp only [Rule.fragment, Rule.predicate, Operator.ofName?_name, htext h, harray items]
  · intro text
    obtain ⟨items, h⟩ := Text.exists_lists text
    refine ⟨items, h, h.holds_splitOn.isItem_of_mem, htext h, ?_⟩
    rw [htext h, ofItems_eq_error_iff, h.holds_splitOn.eq_nil_iff]

theorem list_text_eq_array_padded :
    Lists " , O'Brien\u2003,, a (b)\t," ["O'Brien", "a (b)"] ∧
      ofJson (.member true) (.string " , O'Brien\u2003,, a (b)\t,") =
        ofJson (.member true) (.array [.string "O'Brien", .string "a (b)"]) := by
  have hlists : Lists " , O'Brien\u2003,, a (b)\t," ["O'Brien", "a (b)"] := by
    have hname : Text.IsItem "O'Brien" :=
      ⟨by decide, by decide, by rintro c ⟨⟩; decide, by rintro c ⟨⟩; decide⟩
    have htitle : Text.IsItem "a (b)" :=
      ⟨by decide, by decide, by rintro c ⟨⟩; decide, by rintro c ⟨⟩; decide⟩
    have hblank : Text.AllBlank [' '] := by decide
    have hholds : Text.Holds [[' '], [' '] ++ "O'Brien".toList ++ ['\u2003'], [],
        [' '] ++ "a (b)".toList ++ ['\t'], []] ["O'Brien", "a (b)"] :=
      .blank hblank <| .item hblank hname (by decide) <| .blank (by decide) <|
        .item hblank htitle (by decide) <| .blank (by decide) .nil
    exact ⟨_, List.cons_ne_nil _ _, by decide, hholds⟩
  obtain ⟨htext, harray, -⟩ := (list_text_eq_array true).1 _ _ hlists
  exact ⟨hlists, htext.trans harray.symm⟩

end Predicate

end StagedQuery
