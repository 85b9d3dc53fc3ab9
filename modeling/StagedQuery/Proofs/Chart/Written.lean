import StagedQuery.Chart.Record
import StagedQuery.Proofs.Json.Written

/-!
# Written Charts

Chart settings whose widths are finite are read back from the text of their value, if these doubles
are.  Every width that was read is finite, since the text of a number is that of a finite double.
-/

namespace StagedQuery

open Json (Document DoubleReader ReadError Reader)

/-! ## Values of fields -/

/-- The double is a number. -/
def Binary64.isFinite : Binary64 → Bool
  | .finite _ => true
  | .infinite _ | .nan => false

theorem SortDirection.reader_keyword (direction : SortDirection) :
    SortDirection.reader (.string (some direction.keyword)) = .ok direction := by
  cases direction <;> rfl

namespace ChartSettings

theorem readDouble_widthJson {width : Binary64} (h : width.isFinite) :
    readDouble (widthJson width).toDocument = .ok width := by
  cases width with
  | finite value => rfl
  | infinite | nan => cases h

theorem readNames_toDocument (names : List String) :
    readNames (Json.array (names.map .string)).toDocument = .ok names := by
  have hitems : ((names.map Json.string).map Json.toDocument).mapM readText = .ok names := by
    induction names with
    | nil => rfl
    | cons name names ih =>
      rw [List.map_cons, List.map_cons, List.mapM_cons, ih]
      rfl
  rw [Json.toDocument, Json.itemDocuments_eq]
  exact bind_eq_ok_iff.2 ⟨names, hitems, rfl⟩

theorem readAggregation_keyword (aggregation : Aggregation) :
    readAggregation (.string (some aggregation.keyword)) = .ok aggregation := by
  cases aggregation <;> rfl

/-- The widths are numbers. -/
structure HasFiniteWidths (settings : ChartSettings) : Prop where
  fitness : settings.fitnessBinSize.isFinite
  citationCount : settings.citationCountBinSize.isFinite

/-- Settings are what is read from their document. -/
theorem reader_toDocument {settings : ChartSettings} (h : settings.HasFiniteWidths) :
    reader settings.toJson.toDocument = .ok settings := by
  have htext (text : String) : readText (.string (some text)) = .ok text := rfl
  have hmembers : Reader.members Draft.member {} [(some "x", .string (some settings.x)),
      (some "groupBy", (Json.array (settings.groupBy.map .string)).toDocument),
      (some "orderDir", .string (some settings.direction.keyword)),
      (some "yField", .string (some settings.yField)),
      (some "yAgg", .string (some settings.yAggregation.keyword)),
      (some "fitnessBinSize", (widthJson settings.fitnessBinSize).toDocument),
      (some "citationCountBinSize", (widthJson settings.citationCountBinSize).toDocument)] true =
        .ok ⟨some settings.x, some settings.groupBy, some settings.direction, some settings.yField,
          some settings.yAggregation, some settings.fitnessBinSize,
          some settings.citationCountBinSize⟩ := by
    simp only [Reader.members, List.foldlM_cons, List.foldlM_nil, Draft.member, bind, Except.bind,
      pure, Except.pure, Reader.once_of_ok (htext _), Reader.once_of_ok (readNames_toDocument _),
      Reader.once_of_ok (SortDirection.reader_keyword _),
      Reader.once_of_ok (readAggregation_keyword _),
      Reader.once_of_ok (readDouble_widthJson h.fitness),
      Reader.once_of_ok (readDouble_widthJson h.citationCount), if_true]
  exact bind_eq_ok_iff.2 ⟨_, hmembers, rfl⟩

/-! ## Accepted settings -/

/-- The widths that have been read are numbers. -/
structure Draft.HasFiniteWidths (draft : Draft) : Prop where
  fitness : ∀ width ∈ draft.fitnessBinSize, width.isFinite
  citationCount : ∀ width ∈ draft.citationCountBinSize, width.isFinite

theorem isFinite_of_readDouble {document : Document} {width : Binary64}
    (h : readDouble document = .ok width) : width.isFinite := by
  rw [readDouble, Reader.plain] at h
  split at h
  · next head _ =>
    cases head with
    | number value =>
      cases mapError_eq_ok_iff.1 h
      rfl
    | _ => cases h
  · cases h

theorem Draft.HasFiniteWidths.member {draft next : Draft} {key : String} {document : Document}
    (h : draft.HasFiniteWidths) (hnext : draft.member key document = .ok next) :
    next.HasFiniteWidths := by
  unfold Draft.member at hnext
  split at hnext
  case h_6 =>
    obtain ⟨width, hwidth, hnext⟩ := bind_eq_ok hnext
    obtain ⟨read, hread, rfl⟩ := Reader.read_of_once hwidth
    cases hnext
    exact ⟨fun _ hsome ↦ Option.some.inj hsome ▸ isFinite_of_readDouble hread, h.citationCount⟩
  case h_7 =>
    obtain ⟨width, hwidth, hnext⟩ := bind_eq_ok hnext
    obtain ⟨read, hread, rfl⟩ := Reader.read_of_once hwidth
    cases hnext
    exact ⟨h.fitness, fun _ hsome ↦ Option.some.inj hsome ▸ isFinite_of_readDouble hread⟩
  all_goals
    obtain ⟨_, -, hnext⟩ := bind_eq_ok hnext
    cases hnext
    exact ⟨h.fitness, h.citationCount⟩

/-- Settings that were accepted have finite widths. -/
theorem hasFiniteWidths_of_reader {document : Document} {settings : ChartSettings}
    (h : reader document = .ok settings) : settings.HasFiniteWidths := by
  cases document with
  | object members closed =>
    obtain ⟨draft, hdraft, h⟩ := bind_eq_ok h
    have hkept : draft.HasFiniteWidths := by
      refine Reader.members_invariant Draft.HasFiniteWidths ?_ ?_ hdraft
      · exact ⟨fun _ hnone ↦ (nomatch hnone), fun _ hnone ↦ (nomatch hnone)⟩
      · exact fun draft key document next hkept hnext ↦ hkept.member hnext
    obtain ⟨x, -, h⟩ := bind_eq_ok h
    obtain ⟨groupBy, -, h⟩ := bind_eq_ok h
    obtain ⟨direction, -, h⟩ := bind_eq_ok h
    obtain ⟨yField, -, h⟩ := bind_eq_ok h
    obtain ⟨yAggregation, -, h⟩ := bind_eq_ok h
    obtain ⟨fitness, hfitness, h⟩ := bind_eq_ok h
    obtain ⟨citationCount, hcitationCount, h⟩ := bind_eq_ok h
    cases h
    exact ⟨hkept.fitness _ (Reader.eq_some_of_require hfitness),
      hkept.citationCount _ (Reader.eq_some_of_require hcitationCount)⟩
  | array items closed =>
    obtain ⟨x, -, h⟩ := bind_eq_ok h
    obtain ⟨groupBy, -, h⟩ := bind_eq_ok h
    obtain ⟨direction, -, h⟩ := bind_eq_ok h
    obtain ⟨yField, -, h⟩ := bind_eq_ok h
    obtain ⟨yAggregation, -, h⟩ := bind_eq_ok h
    obtain ⟨fitness, hfitness, h⟩ := bind_eq_ok h
    obtain ⟨citationCount, hcitationCount, h⟩ := bind_eq_ok h
    obtain ⟨-, -, h⟩ := bind_eq_ok h
    cases h
    obtain ⟨_, hfitness⟩ := (Reader.read_of_element hfitness).resolve_left (by simp)
    obtain ⟨_, hcitationCount⟩ := (Reader.read_of_element hcitationCount).resolve_left (by simp)
    exact ⟨isFinite_of_readDouble hfitness, isFinite_of_readDouble hcitationCount⟩
  | _ =>
    simp only [reader] at h
    exact absurd h Reader.plain_error_ne_ok

/-- Settings are read back from the text of their value, if their widths are. -/
theorem ofText_text [DoubleReader] {settings : ChartSettings} (h : settings.HasFiniteWidths)
    (hdoubles : ∀ double ∈ settings.toJson.doubles, DoubleReader.Recovers double) :
    ofText settings.toJson.text = .ok settings := by
  rw [ofText, Reader.run_text reader hdoubles]
  exact reader_toDocument h

end ChartSettings

end StagedQuery
