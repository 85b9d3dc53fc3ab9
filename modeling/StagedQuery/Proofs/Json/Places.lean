import StagedQuery.Json.Document

/-!
# Places inside Documents

The machine that builds a document works in the same way inside of any containers: tokens that are
a whole document bring it from before a value to after that value, whatever frames lie around.  Once
it is stuck it stays so, and then the root is broken off.
-/

namespace StagedQuery.Json.Document

variable {frames outer : List Frame} {root value : Document} {tokens : List Token}

/-! ## Broken documents -/

/-- The outermost container has no end, or there is no value at all. -/
def isBroken : Document → Bool
  | .missing | .array _ false | .object _ false => true
  | _ => false

theorem isBroken_breakOff (h : value.isBroken) (frames : List Frame) :
    (breakOff value frames).isBroken := by
  induction frames generalizing value with
  | nil => exact h
  | cons frame frames ih => cases frame <;> exact ih rfl

namespace Place

/-- At the beginning of an array stands an item, unless the array ends. -/
theorem take_afterOpenArray {token : Token} (h : token ≠ .endArray) (frames : List Frame) :
    take (.afterOpenArray frames) token = takeValue (.array [] :: frames) token := by
  cases token
  case endArray => exact absurd rfl h
  all_goals rfl

/-- If the machine is stuck although nothing follows the root, the root is broken. -/
def Explains : Place → Prop
  | .stuck root false => root.isBroken
  | _ => True

theorem explains_afterValue (value : Document) (frames : List Frame) :
    (afterValue value frames).Explains := by
  cases frames with
  | nil => trivial
  | cons frame frames => cases frame <;> trivial

theorem explains_takeValue (frames : List Frame) (token : Token) :
    (takeValue frames token).Explains := by
  cases token
  case null | bool | number | string => exact explains_afterValue _ _
  case beginArray | beginObject => trivial
  all_goals exact isBroken_breakOff rfl frames

theorem explains_take {place : Place} (h : place.Explains) (token : Token) :
    (place.take token).Explains := by
  cases place with
  | beforeValue frames => exact explains_takeValue frames token
  | afterOpenArray frames =>
    by_cases hend : token = .endArray
    · subst hend
      exact explains_afterValue _ _
    · rw [take_afterOpenArray hend]
      exact explains_takeValue _ _
  | afterItem items frames =>
    cases token
    case comma => trivial
    case endArray => exact explains_afterValue _ _
    all_goals exact isBroken_breakOff rfl frames
  | afterOpenObject frames =>
    cases token
    case endObject => exact explains_afterValue _ _
    case string => trivial
    all_goals exact isBroken_breakOff rfl frames
  | beforeKey members frames =>
    cases token
    case string => trivial
    all_goals exact isBroken_breakOff rfl frames
  | afterKey members key frames =>
    cases token
    case colon => trivial
    all_goals exact isBroken_breakOff rfl _
  | afterMember members frames =>
    cases token
    case comma => trivial
    case endObject => exact explains_afterValue _ _
    all_goals exact isBroken_breakOff rfl frames
  | afterRoot root => trivial
  | stuck root trailing => exact h

theorem explains_foldl {place : Place} (h : place.Explains) (tokens : List Token) :
    (tokens.foldl take place).Explains := by
  induction tokens generalizing place with
  | nil => exact h
  | cons token rest ih => exact ih (explains_take h token)

/-- Only after a whole root does a text end without a broken document. -/
theorem eq_afterRoot_of_finish {place : Place} (h : place.Explains)
    (hfinish : place.finish = (root, false)) (hroot : root.isBroken = false) :
    place = .afterRoot root := by
  cases place with
  | afterRoot other =>
    cases hfinish
    rfl
  | stuck other trailing =>
    cases hfinish
    exact absurd (hroot.symm.trans h) (by decide)
  | _ =>
    cases hfinish
    exact absurd (hroot.symm.trans (isBroken_breakOff rfl _)) (by decide)

/-! ## Stuck machines -/

theorem foldl_stuck (root : Document) (trailing : Bool) (tokens : List Token) :
    tokens.foldl take (.stuck root trailing) = .stuck root trailing := by
  induction tokens with
  | nil => rfl
  | cons token rest ih => exact ih

theorem take_invalid (place : Place) :
    ∃ root trailing, place.take .invalid = .stuck root trailing := by
  cases place <;> exact ⟨_, _, rfl⟩

/-- A text that is no JSON at some place gives no whole root. -/
theorem invalid_notMem_of_foldl {place : Place} (h : tokens.foldl take place = .afterRoot root) :
    Token.invalid ∉ tokens := by
  intro hmem
  obtain ⟨before, after, rfl⟩ := List.append_of_mem hmem
  obtain ⟨broken, trailing, hstuck⟩ := take_invalid (before.foldl take place)
  rw [List.foldl_append, List.foldl_cons, hstuck, foldl_stuck] at h
  cases h

/-! ## Inside of further frames -/

/-- The same place, with further frames around it. -/
def within (outer : List Frame) : Place → Place
  | .beforeValue frames => .beforeValue (frames ++ outer)
  | .afterOpenArray frames => .afterOpenArray (frames ++ outer)
  | .afterItem items frames => .afterItem items (frames ++ outer)
  | .afterOpenObject frames => .afterOpenObject (frames ++ outer)
  | .beforeKey members frames => .beforeKey members (frames ++ outer)
  | .afterKey members key frames => .afterKey members key (frames ++ outer)
  | .afterMember members frames => .afterMember members (frames ++ outer)
  | .afterRoot root => afterValue root outer
  | .stuck root trailing => .stuck root trailing

theorem afterValue_within (value : Document) (frames outer : List Frame) :
    (afterValue value frames).within outer = afterValue value (frames ++ outer) := by
  cases frames with
  | nil => rfl
  | cons frame frames => cases frame <;> rfl

theorem takeValue_within {token : Token}
    (h : ∀ root trailing, takeValue frames token ≠ .stuck root trailing) (outer : List Frame) :
    (takeValue frames token).within outer = takeValue (frames ++ outer) token := by
  cases token
  case null | bool | number | string => exact afterValue_within _ _ _
  case beginArray | beginObject => rfl
  all_goals exact absurd rfl (h _ _)

/-- A token that does not end a document has the same effect inside of further frames. -/
theorem take_within {place : Place} {token : Token} (hopen : ∀ root, place ≠ .afterRoot root)
    (h : ∀ root trailing, place.take token ≠ .stuck root trailing) (outer : List Frame) :
    (place.within outer).take token = (place.take token).within outer := by
  cases place with
  | beforeValue frames => exact (takeValue_within h outer).symm
  | afterOpenArray frames =>
    by_cases hend : token = .endArray
    · subst hend
      exact (afterValue_within _ _ _).symm
    · rw [take_afterOpenArray hend] at h ⊢
      rw [takeValue_within h, within, take_afterOpenArray hend, List.cons_append]
  | afterItem items frames =>
    cases token
    case comma => rfl
    case endArray => exact (afterValue_within _ _ _).symm
    all_goals exact absurd rfl (h _ _)
  | afterOpenObject frames =>
    cases token
    case endObject => exact (afterValue_within _ _ _).symm
    case string => rfl
    all_goals exact absurd rfl (h _ _)
  | beforeKey members frames =>
    cases token
    case string => rfl
    all_goals exact absurd rfl (h _ _)
  | afterKey members key frames =>
    cases token
    case colon => rfl
    all_goals exact absurd rfl (h _ _)
  | afterMember members frames =>
    cases token
    case comma => rfl
    case endObject => exact (afterValue_within _ _ _).symm
    all_goals exact absurd rfl (h _ _)
  | afterRoot root => exact absurd rfl (hopen root)
  | stuck root trailing => exact absurd rfl (h root trailing)

/-- Tokens that make up a root are one value inside of further frames. -/
theorem foldl_within {place : Place} (hopen : ∀ root, place ≠ .afterRoot root)
    (h : tokens.foldl take place = .afterRoot root) (outer : List Frame) :
    tokens.foldl take (place.within outer) = afterValue root outer := by
  induction tokens generalizing place with
  | nil => exact absurd h (hopen root)
  | cons token rest ih =>
    rw [List.foldl_cons] at h ⊢
    have hmoves : ∀ root trailing, place.take token ≠ .stuck root trailing := by
      intro broken trailing hstuck
      rw [hstuck, foldl_stuck] at h
      cases h
    rw [take_within hopen hmoves]
    by_cases hend : ∃ other, place.take token = .afterRoot other
    · obtain ⟨other, hother⟩ := hend
      rw [hother] at h ⊢
      cases rest with
      | nil =>
        cases h
        rfl
      | cons second rest =>
        rw [List.foldl_cons] at h
        exact absurd ((foldl_stuck other true rest).symm.trans h) (by simp)
    · exact ih (fun other hother ↦ hend ⟨other, hother⟩) h

/-- The same, as the first item of an array. -/
theorem foldl_firstItem (h : tokens.foldl take (.beforeValue []) = .afterRoot root)
    (outer : List Frame) :
    tokens.foldl take (.afterOpenArray outer) = .afterItem [root] outer := by
  have hvalue : tokens.foldl take (.beforeValue (.array [] :: outer)) = .afterItem [root] outer :=
    foldl_within (by simp) h (.array [] :: outer)
  rw [← hvalue]
  cases tokens with
  | nil => cases h
  | cons token rest =>
    have hend : token ≠ .endArray := by
      rintro rfl
      rw [List.foldl_cons] at h
      exact absurd ((foldl_stuck _ _ rest).symm.trans h) (by simp)
    rw [List.foldl_cons, List.foldl_cons, take_afterOpenArray hend]
    rfl

end Place

/-- The tokens of a whole root, with nothing after it. -/
theorem foldl_of_ofTokens (h : ofTokens tokens = (root, false)) (hroot : root.isBroken = false) :
    tokens.foldl Place.take (.beforeValue []) = .afterRoot root := by
  have hstart : (Place.beforeValue []).Explains := trivial
  exact Place.eq_afterRoot_of_finish (Place.explains_foldl hstart tokens) h hroot

end StagedQuery.Json.Document
