import StagedQuery.Proofs.Condition.Agreement
import StagedQuery.Proofs.Json.Places
import StagedQuery.Proofs.Json.Scanning
import Mathlib.Logic.Function.Iterate

/-!
# Wrapped Groups

A group can be written as the only rule of another group.  It is then no longer read from the text,
but from the value of its part of the text.  The outer group is accepted exactly if the inner one is
accepted on its own.
-/

namespace StagedQuery

open Json (Document DoubleReader Reader Token nestingLimit)
open Json.Document (Denotes Frame Place)

/-! ## Wrapping -/

/-- The text of an object with one rule. -/
def wrapText (text : String) : String := "\x7b\"rules\":[" ++ text ++ "]\x7d"

/-- A group with one child, which may be any group. -/
def Group.wrap (group : Group Rule) : Group Rule := ⟨.and, false, [group.toCondition]⟩

def Json.Document.wrap (document : Document) : Document :=
  .object [(some "rules", .array [document] true)] true

def Json.wrap (value : Json) : Json := .object [("rules", .array [value])]

section

variable [DoubleReader]

/-! ## Tokens -/

theorem Json.Token.scan_wrapText {text : String} (h : Token.invalid ∉ Token.scan text.toList) :
    Token.scan (wrapText text).toList =
      [.beginObject, .string (some "rules"), .colon, .beginArray] ++ Token.scan text.toList ++
        [.endArray, .endObject] := by
  have hclosing : Token.scan [']', '\x7d'] = [.endArray, .endObject] := by
    rw [Token.scan_of_scanFirst rfl rfl, Token.scan_of_scanFirst rfl rfl, Token.scan]
  have hinner : Token.scan (text.toList ++ [']', '\x7d']) =
      Token.scan text.toList ++ [.endArray, .endObject] := by
    rw [Token.scan_append_delimits (Json.delimits_cons (by decide) _) h, hclosing]
  have htext : (wrapText text).toList =
      '\x7b' :: '"' :: 'r' :: 'u' :: 'l' :: 'e' :: 's' :: '"' :: ':' :: '[' ::
        (text.toList ++ [']', '\x7d']) := by
    simp [wrapText]
  rw [htext, Token.scan_of_scanFirst rfl rfl, Token.scan_of_scanFirst rfl rfl,
    Token.scan_of_scanFirst rfl rfl, Token.scan_of_scanFirst rfl rfl, hinner]
  rfl

theorem Json.Document.ofTokens_wrapText {text : String} {document : Document}
    (h : Document.ofTokens (Token.scan text.toList) = (document, false))
    (hwhole : document.isBroken = false) :
    Document.ofTokens (Token.scan (wrapText text).toList) = (document.wrap, false) := by
  have hroot := Document.foldl_of_ofTokens h hwhole
  rw [Document.ofTokens, Token.scan_wrapText (Place.invalid_notMem_of_foldl hroot),
    List.foldl_append, List.foldl_append]
  have hopening : [Token.beginObject, .string (some "rules"), .colon, .beginArray].foldl
      Place.take (.beforeValue []) = .afterOpenArray [.object [] (some "rules")] := rfl
  rw [hopening, Place.foldl_firstItem hroot]
  rfl

/-! ## Objects with rules -/

/-- The text is one of an object that has rules and repeats no key, and has the value. -/
structure IsRulesText (levels : Nat) (text : String) (members : List (Option String × Document))
    (value : Json) : Prop where
  tokens : Document.ofTokens (Token.scan text.toList) = (.object members true, false)
  keys : (members.map Prod.fst).Nodup
  rules : some "rules" ∈ members.map Prod.fst
  denotes : (Document.object members true).Denotes levels value

variable {levels : Nat} {text : String} {members : List (Option String × Document)} {value : Json}

theorem IsRulesText.levels_pos (h : IsRulesText levels text members value) : 0 < levels := by
  obtain ⟨-, below, values, rfl, -, -⟩ := Document.denotes_object.1 h.denotes
  exact Nat.succ_pos below

theorem IsRulesText.wrap (h : IsRulesText levels text members value) :
    IsRulesText (levels + 2) (wrapText text)
      [(some "rules", .array [.object members true] true)] value.wrap where
  tokens := Document.ofTokens_wrapText h.tokens rfl
  keys := List.nodup_singleton _
  rules := List.mem_singleton_self _
  denotes := by
    have harray : (Document.array [.object members true] true).Denotes (levels + 1)
        (.array [value]) :=
      Document.denotes_array.2 ⟨rfl, levels, _, rfl, .cons h.denotes .nil, rfl⟩
    exact Document.denotes_object.2 ⟨rfl, levels + 1, [("rules", .array [value])], rfl,
      .cons ⟨rfl, harray⟩ .nil, rfl⟩

namespace Group

/-- A whole text of a group is read by the reader of roots, with the value reader as its measure. -/
theorem ofText_eq_ok_iff (h : IsRulesText nestingLimit text members value) {group : Group Rule} :
    ofText text = .ok group ↔ Condition.ofJson value = .ok group.toCondition := by
  have hrun : ofText text =
      reader (nestingLimit - 2) (.object members true) >>= pure := by
    rw [ofText, Reader.run, h.tokens]
    rfl
  rw [hrun, bind_pure]
  exact reader_eq_ok_iff h.denotes h.keys h.rules

/-- The value of an object with rules can only be read as a group. -/
theorem exists_of_ofJson (h : IsRulesText levels text members value) {condition : Condition Rule}
    (hcondition : Condition.ofJson value = .ok condition) :
    ∃ group : Group Rule, condition = group.toCondition := by
  obtain ⟨-, below, values, -, hvalues, rfl⟩ := Document.denotes_object.1 h.denotes
  have hrules : ((Json.orderedMembers values).lookup "rules").isSome := by
    rw [Json.lookup_orderedMembers (Document.nodup_keys hvalues h.keys)]
    apply Json.isSome_lookup
    simpa [Document.keys_eq hvalues] using h.rules
  obtain ⟨combinator, negated, children, -, -, -, rfl⟩ :=
    (Condition.ofJson_object_eq_ok_iff hrules).1 hcondition
  exact ⟨⟨combinator.getD .and, negated.getD false, children⟩, rfl⟩

/-- One group around a text is accepted exactly if the text is. -/
theorem ofText_wrapText (h : IsRulesText levels text members value)
    (hlevels : levels + 2 ≤ nestingLimit) {outer : Group Rule} :
    ofText (wrapText text) = .ok outer ↔ ∃ group, ofText text = .ok group ∧ outer = group.wrap := by
  have hinner : IsRulesText nestingLimit text members value :=
    { h with denotes := h.denotes.mono (Nat.le_trans (Nat.le_add_right levels 2) hlevels) }
  have houter : IsRulesText nestingLimit (wrapText text) _ value.wrap :=
    { h.wrap with denotes := h.wrap.denotes.mono hlevels }
  have hwrap : Condition.ofJson value.wrap =
      Condition.ofJson value >>= fun child ↦ .ok (.group .and false [child]) := by
    simp only [Json.wrap, Condition.ofJson, Condition.childrenOfMembers, Condition.childrenOfJson,
      Condition.childrenOfItems]
    cases Condition.ofJson value <;> rfl
  simp only [ofText_eq_ok_iff houter, ofText_eq_ok_iff hinner, hwrap, bind_eq_ok_iff]
  constructor
  · rintro ⟨child, hchild, hresult⟩
    obtain ⟨group, rfl⟩ := exists_of_ofJson h hchild
    exact ⟨group, hchild, toCondition_injective (Except.ok.inj hresult).symm⟩
  · rintro ⟨group, hgroup, rfl⟩
    exact ⟨group.toCondition, hgroup, rfl⟩

/-- A text of an object with rules that repeats no key, nests within the limit and can be read
throughout is accepted as a root exactly if it is accepted inside of any number of groups, as long
as these nest within the limit too.  The groups around it then hold the group that it is on its
own. -/
theorem ofText_iterate_wrapText {text : String} {members : List (Option String × Document)}
    (hdocument : Document.ofTokens (Token.scan text.toList) = (.object members true, false))
    (hkeys : (members.map Prod.fst).Nodup) (hrules : some "rules" ∈ members.map Prod.fst)
    {count : Nat}
    (hvalue : ((Document.object members true).toJson? (nestingLimit - 2 * count)).isSome)
    (outer : Group Rule) :
    ofText (wrapText^[count] text) = .ok outer ↔
      ∃ group, ofText text = .ok group ∧ outer = wrap^[count] group := by
  obtain ⟨value, hdenotes⟩ := Option.isSome_iff_exists.1 hvalue
  have h : IsRulesText (nestingLimit - 2 * count) text members value :=
    ⟨hdocument, hkeys, hrules, hdenotes⟩
  clear hdocument hkeys hrules hvalue hdenotes
  induction count generalizing text members value with
  | zero => simp
  | succ count ih =>
    have hpositive := h.levels_pos
    have hlevels : nestingLimit - 2 * (count + 1) + 2 ≤ nestingLimit := by omega
    have hrest : nestingLimit - 2 * (count + 1) + 2 = nestingLimit - 2 * count := by omega
    have hwrapped : IsRulesText (nestingLimit - 2 * count) (wrapText text) _ value.wrap :=
      hrest ▸ h.wrap
    rw [Function.iterate_succ_apply]
    refine (ih value.wrap hwrapped).trans ?_
    simp only [ofText_wrapText h hlevels, Function.iterate_succ_apply]
    constructor
    · rintro ⟨_, ⟨group, hgroup, rfl⟩, rfl⟩
      exact ⟨group, hgroup, rfl⟩
    · rintro ⟨group, hgroup, rfl⟩
      exact ⟨group.wrap, ⟨group, hgroup, rfl⟩, rfl⟩

end Group

end

open StagedQuery.Group in
/-- A rule with a value is read in a root, and two groups further in. -/
theorem Group.ofText_iterate_wrapText_twice :
    let text := "\x7b\"not\":true,\"rules\":[" ++
      "\x7b\"field\":\"fitness\",\"operator\":\">\",\"value\":5\x7d]\x7d"
    let five : Json.Number := .integer 5 (by decide)
    let members : List (Option String × Document) :=
      [(some "not", .bool true), (some "rules", .array [.object
        [(some "field", .string (some "fitness")), (some "operator", .string (some ">")),
          (some "value", .number (some five))] true] true)]
    let group : Group Rule := ⟨.and, true, [.leaf ⟨"fitness", ">", .number five⟩]⟩
    Document.ofTokens (@Token.scan .nearest text.toList) = (.object members true, false) ∧
      (members.map Prod.fst).Nodup ∧ some "rules" ∈ members.map Prod.fst ∧
      ((Document.object members true).toJson? (nestingLimit - 2 * 2)).isSome ∧
      @ofText .nearest (wrapText (wrapText text)) = .ok (wrap (wrap group)) := by
  intro text five members group
  let reader : DoubleReader := .nearest
  have htokens : Token.scan text.toList =
      [.beginObject, .string (some "not"), .colon, .bool true, .comma, .string (some "rules"),
        .colon, .beginArray, .beginObject, .string (some "field"), .colon,
        .string (some "fitness"), .comma, .string (some "operator"), .colon, .string (some ">"),
        .comma, .string (some "value"), .colon, .number (some five), .endObject, .endArray,
        .endObject] := by
    decide +kernel
  have hdocument : Document.ofTokens (Token.scan text.toList) = (.object members true, false) := by
    rw [htokens]
    rfl
  have hkeys : (members.map Prod.fst).Nodup := by decide
  have hrules : some "rules" ∈ members.map Prod.fst := by decide
  have hvalue : ((Document.object members true).toJson? (nestingLimit - 2 * 2)).isSome := by rfl
  have hgroup : Group.reader (nestingLimit - 2) (.object members true) = .ok group := by
    dsimp only [members, group, five]
    rfl
  have hinner : ofText text = .ok group := by
    rw [ofText, Reader.run, hdocument]
    simp only [hgroup]
    rfl
  exact ⟨hdocument, hkeys, hrules, hvalue,
    (ofText_iterate_wrapText hdocument hkeys hrules hvalue _).2 ⟨_, hinner, rfl⟩⟩

end StagedQuery
