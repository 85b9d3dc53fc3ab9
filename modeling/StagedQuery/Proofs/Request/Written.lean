import StagedQuery.Request
import StagedQuery.Proofs.Chart.Written
import StagedQuery.Proofs.Condition.Written

/-!
# Written Requests

Writing a request and reading it are inverse, as long as the text nests within the limit and every
double is read back from the numeral that is written for it: the text of a request is read as the
request, so compiling the text and compiling the request give the same statement or the same error.
Every request that was read can be written, since its condition nests no deeper than the text that
it came from.
-/

namespace StagedQuery

open Json (Document DoubleReader Reader Token nestingLimit)

namespace Request

variable {request : Request} {document : Document}

theorem depth_toJson (request : Request) : request.toJson.depth =
    max request.conditions.toJson.depth request.chart.toJson.depth + 1 := by
  rw [toJson, Json.depth, Json.depthOfMembers, Json.depthOfMembers, Json.depthOfMembers,
    Nat.max_zero]

/-! ## Reading what was written -/

/-- The condition nests within a request as deep as it may, and the widths are numbers. -/
structure IsWritable (request : Request) : Prop where
  conditions : request.conditions.toJson.Fits (nestingLimit - 1)
  chart : request.chart.HasFiniteWidths

theorem ofText_text [DoubleReader] (h : request.IsWritable)
    (hdoubles : ∀ double ∈ request.toJson.doubles, DoubleReader.Recovers double) :
    ofText request.toJson.text = .ok request := by
  have hconditions : readConditions request.conditions.toJson.toDocument = .ok request.conditions :=
    Group.reader_toDocument h.conditions
  have hchart := ChartSettings.reader_toDocument h.chart
  have hmembers : Reader.members Draft.member {}
      [(some "conditions", request.conditions.toJson.toDocument),
        (some "chart", request.chart.toJson.toDocument)] true =
          .ok ⟨some request.conditions, some request.chart⟩ := by
    simp only [Reader.members, List.foldlM_cons, List.foldlM_nil, Draft.member, bind, Except.bind,
      pure, Except.pure, Reader.once_of_ok hconditions, Reader.once_of_ok hchart, if_true]
  rw [ofText, Reader.run_text reader hdoubles]
  exact bind_eq_ok_iff.2 ⟨_, hmembers, rfl⟩

/-! ## Writing what was read -/

/-- The parts that have been read can be written. -/
structure Draft.IsWritable (draft : Draft) : Prop where
  conditions : ∀ conditions ∈ draft.conditions, conditions.toJson.Fits (nestingLimit - 1)
  chart : ∀ chart ∈ draft.chart, chart.HasFiniteWidths

theorem Draft.IsWritable.member {draft next : Draft} {key : String} (h : draft.IsWritable)
    (hnext : draft.member key document = .ok next) : next.IsWritable := by
  unfold Draft.member at hnext
  split at hnext
  case h_3 =>
    obtain ⟨chart, hchart, hnext⟩ := bind_eq_ok hnext
    obtain ⟨read, hread, rfl⟩ := Reader.read_of_once hchart
    cases hnext
    exact ⟨h.conditions,
      fun _ hsome ↦ Option.some.inj hsome ▸ ChartSettings.hasFiniteWidths_of_reader hread⟩
  case h_4 =>
    obtain ⟨_, -, hnext⟩ := bind_eq_ok hnext
    cases hnext
    exact h
  all_goals
    obtain ⟨conditions, hconditions, hnext⟩ := bind_eq_ok hnext
    obtain ⟨read, hread, rfl⟩ := Reader.read_of_once hconditions
    cases hnext
    exact ⟨fun _ hsome ↦ Option.some.inj hsome ▸ Group.fits_of_reader hread, h.chart⟩

theorem fits_default : (Group.toJson {}).Fits (nestingLimit - 1) :=
  Group.fits_toJson.2 ⟨nestingLimit - 3, rfl, List.forall_mem_nil _⟩

/-- A request that was accepted can be written. -/
theorem isWritable_of_reader (h : reader document = .ok request) : request.IsWritable := by
  cases document with
  | object members closed =>
    obtain ⟨draft, hdraft, h⟩ := bind_eq_ok h
    have hkept : draft.IsWritable := by
      refine Reader.members_invariant Draft.IsWritable ?_ ?_ hdraft
      · exact ⟨fun _ hnone ↦ (nomatch hnone), fun _ hnone ↦ (nomatch hnone)⟩
      · exact fun draft key document next hkept hnext ↦ hkept.member hnext
    obtain ⟨chart, hchart, h⟩ := bind_eq_ok h
    cases h
    refine ⟨?_, hkept.chart _ (Reader.eq_some_of_require hchart)⟩
    cases hconditions : draft.conditions with
    | none => exact fits_default
    | some conditions => exact hkept.conditions _ hconditions
  | array items closed =>
    obtain ⟨conditions, hconditions, h⟩ := bind_eq_ok h
    obtain ⟨chart, hchart, h⟩ := bind_eq_ok h
    obtain ⟨-, -, h⟩ := bind_eq_ok h
    cases h
    obtain ⟨_, hchart⟩ := (Reader.read_of_element hchart).resolve_left (by simp)
    refine ⟨?_, ChartSettings.hasFiniteWidths_of_reader hchart⟩
    rcases Reader.read_of_element hconditions with habsent | ⟨_, hread⟩
    · cases habsent
      exact fits_default
    · exact Group.fits_of_reader hread
  | _ =>
    simp only [reader] at h
    exact absurd h Reader.plain_error_ne_ok

end Request

/-- Requests, groups and chart settings are read back from their texts, with any reader that
recovers the doubles in them: those whose JSON values have ordered keys, whose widths are finite and
whose text nests within the limit.  A request is then compiled alike from its text and on its own.
So is every request that was read from any text. -/
theorem written_isReadBack [DoubleReader] :
    (∀ request : Request, (∀ rule ∈ request.conditions.leaves, rule.value.isOrdered) →
      request.chart.HasFiniteWidths → request.toJson.depth ≤ nestingLimit →
      (∀ double ∈ request.toJson.doubles, DoubleReader.Recovers double) →
      Request.ofText request.toJson.text = .ok request ∧
        compileText request.toJson.text = compile request.conditions request.chart) ∧
    (∀ group : Group Rule, (∀ rule ∈ group.leaves, rule.value.isOrdered) →
      group.toJson.depth ≤ nestingLimit →
      (∀ double ∈ group.toJson.doubles, DoubleReader.Recovers double) →
      Group.ofText group.toJson.text = .ok group) ∧
    (∀ settings : ChartSettings, settings.HasFiniteWidths →
      (∀ double ∈ settings.toJson.doubles, DoubleReader.Recovers double) →
      ChartSettings.ofText settings.toJson.text = .ok settings) ∧
    ∀ text request, Request.ofText text = .ok request →
      (∀ double ∈ request.toJson.doubles, DoubleReader.Recovers double) →
      Request.ofText request.toJson.text = .ok request ∧
        compileText request.toJson.text = compile request.conditions request.chart := by
  have hcompile {text : String} {request : Request} (h : Request.ofText text = .ok request) :
      compileText text = compile request.conditions request.chart := by
    rw [compileText, h]
    rfl
  refine ⟨fun request hvalues hwidths hdepth hdoubles ↦ ?_,
    fun group hvalues hdepth hdoubles ↦ ?_, fun settings ↦ ChartSettings.ofText_text,
    fun text request h hdoubles ↦ ?_⟩
  · have hconditions : request.conditions.toJson.depth ≤ nestingLimit - 1 := by
      rw [Request.depth_toJson] at hdepth
      omega
    have hread : Request.ofText request.toJson.text = .ok request :=
      Request.ofText_text ⟨⟨hconditions, Group.isOrdered_toJson hvalues⟩, hwidths⟩ hdoubles
    exact ⟨hread, hcompile hread⟩
  · exact Group.ofText_text ⟨hdepth, Group.isOrdered_toJson hvalues⟩ hdoubles
  · obtain ⟨document, hdocument⟩ := Reader.read_of_run h
    have hread := Request.ofText_text (Request.isWritable_of_reader hdocument) hdoubles
    exact ⟨hread, hcompile hread⟩

/-- The nearest double recovers the value of a rule in a negated group and the widths of a chart. -/
theorem written_isReadBack_nested :
    let minusHalf : Binary64.Finite := ⟨true, ⟨1022 * Nat.pow 2 52, by decide⟩⟩
    let value : Json := .object [("least", .number (.double minusHalf)),
      ("names", .array [.string "a\n", .null])]
    let group : Group Rule :=
      ⟨.or, true, [.leaf ⟨"title", "in", value⟩, .group .and false [.leaf ⟨"", "", .null⟩]]⟩
    let request : Request := ⟨group, .initial⟩
    let text := "[\x7b\x7d,[\"x\",[],\"asc\",\"y\",\"avg\",1,2]]"
    let width (value : Int) (fits : -Nat.pow 2 63 ≤ value ∧ value < Nat.pow 2 64) : Binary64 :=
      .finite (Json.Number.integer value fits).toDouble
    let read : Request :=
      ⟨{}, ⟨"x", [], .ascending, "y", .average, width 1 (by decide), width 2 (by decide)⟩⟩
    ((∀ rule ∈ group.leaves, rule.value.isOrdered) ∧ ChartSettings.initial.HasFiniteWidths ∧
      request.toJson.depth ≤ nestingLimit ∧ group.toJson.depth ≤ nestingLimit ∧
      (∀ double ∈ request.toJson.doubles, DoubleReader.Recovers double) ∧
      Request.ofText text = .ok read ∧
      ∀ double ∈ read.toJson.doubles, DoubleReader.Recovers double) ∧
    (Request.ofText request.toJson.text = .ok request ∧
      compileText request.toJson.text = compile group .initial) ∧
    Group.ofText group.toJson.text = .ok group ∧
    ChartSettings.ofText ChartSettings.initial.toJson.text = .ok .initial ∧
    Request.ofText read.toJson.text = .ok read := by
  intro minusHalf value group request text width read
  have hvalues : ∀ rule ∈ group.leaves, rule.value.isOrdered := by decide
  have hwidths : ChartSettings.initial.HasFiniteWidths := ⟨rfl, rfl⟩
  have hdepth : request.toJson.depth ≤ nestingLimit := by decide
  have hgroupDepth : group.toJson.depth ≤ nestingLimit := by decide
  have hread : Request.ofText text = .ok read := by
    have htokens : Token.scan text.toList =
        [.beginArray, .beginObject, .endObject, .comma, .beginArray, .string (some "x"), .comma,
          .beginArray, .endArray, .comma, .string (some "asc"), .comma, .string (some "y"), .comma,
          .string (some "avg"), .comma, .number (some (.integer 1 (by decide))), .comma,
          .number (some (.integer 2 (by decide))), .endArray, .endArray] := by
      decide +kernel
    rw [Request.ofText, Reader.run, htokens]
    rfl
  have hdoubles (value : Json) : ∀ double ∈ value.doubles, DoubleReader.Recovers double :=
    fun double _ ↦ DoubleReader.nearest_recovers double
  obtain ⟨hrequests, hgroups, hsettings, haccepted⟩ := written_isReadBack
  exact ⟨⟨hvalues, hwidths, hdepth, hgroupDepth, hdoubles _, hread, hdoubles _⟩,
    hrequests request hvalues hwidths hdepth (hdoubles _),
    hgroups group hvalues hgroupDepth (hdoubles _), hsettings _ hwidths (hdoubles _),
    (haccepted text read hread (hdoubles _)).1⟩

end StagedQuery
