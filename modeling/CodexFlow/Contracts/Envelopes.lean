import CodexFlow.Contracts.Reviews

/-!
# Round trips of the terminal envelopes

What a result and a review are written as, and what is read back of it. A review is written only
where the canonical text of each finding's evidence is within the bound of the wire, while the
reader holds the text as it was sent against that bound.
-/

namespace CodexFlow.Contracts

open Hook (PyStr lit)
open Capsule (Floats JsonValue DictValue StrEnum Checked Identifier expect expect_some expect_eq_ok
  enumText texts byteLength strictLoads strictLoads_text textBytes fieldBytes quotedBytes separated
  readable_of_strictLoads ordered_of_strictLoads)
open Ipc (encodable strictLoadsBytes textBytes_ofFields)
open Checked

variable {floats : Floats}

/-! ### Blockers and validations -/

namespace TypedBlocker

/-- The fields that `to_json` writes. -/
def field (b : TypedBlocker) : BlockerKey → Option (JsonValue floats)
  | .gateId => some (.str b.gateId)
  | .kind => some (enumText b.kind)
  | .scope => some (enumText b.scope)
  | .promotionBlocking => some ⟨.bool b.promotionBlocking, rfl⟩
  | .requiredAction => some (.str b.requiredAction)

/-- `to_json` -/
def toJson (b : TypedBlocker) : DictValue floats := record b.field

theorem fromJson_toJson (b : Built TypedBlocker) :
    fromJson (b.val.toJson : DictValue floats) = .ok b := by
  have hkeys : hasKeys (record b.val.field : DictValue floats) StrEnum.all = true :=
    (hasKeys_record _ _).2 fun key => by cases key <;> exact ⟨fun _ => mem_all _, fun _ => rfl⟩
  simp only [fromJson, toJson, hkeys, ensure_of, at_record, field, Option.getD_some, enumOf,
    enumText, JsonValue.asStr_str, Option.bind_some, StrEnum.ofValue_value, expect_some, asBool, ok_bind]
  exact Built.new_val b

end TypedBlocker

namespace ModelValidation

def field (v : ModelValidation) : ValidationKey → Option (JsonValue floats)
  | .name => some (.str v.name)
  | .passed => some ⟨.bool v.passed, rfl⟩
  | .evidence => some (.str v.evidence)

def toJson (v : ModelValidation) : JsonValue floats := .dict (record v.field)

theorem fromJson_toJson (v : Built ModelValidation) :
    fromJson (v.val.toJson : JsonValue floats) = .ok v := by
  have hkeys : hasKeys (record v.val.field : DictValue floats) StrEnum.all = true :=
    (hasKeys_record _ _).2 fun key => by cases key <;> exact ⟨fun _ => mem_all _, fun _ => rfl⟩
  simp only [fromJson, toJson, JsonValue.asDict_dict, hkeys, ensure_of, at_record, field,
    Option.getD_some, JsonValue.asStr_str, expect_some, asBool, ok_bind]
  exact Built.new_val v

end ModelValidation

/-! ### Results -/

namespace ModelFacingResult

/-- The fields that `to_json` writes. -/
def field (r : ModelFacingResult) : ResultKey → Option (JsonValue floats)
  | .schemaVersion => some (.int r.schemaVersion)
  | .status => some (enumText r.status)
  | .summary => some (.str r.summary)
  | .changedSurfaces => some (texts r.changedSurfaces)
  | .validations => some (.list (r.validations.map fun v => v.val.toJson))
  | .durableStatus => some (.str r.durableStatus)
  | .nextAction => some ((r.nextAction.map .str).getD .null)
  | .blocker => some ((r.blocker.map fun b => .dict b.val.toJson).getD .null)
  | .runtimeArtifactPaths =>
    if r.schemaVersion = 2 then some ((r.runtimeArtifactPaths.map texts).getD .null) else none

/-- `to_json` -/
def toJson (r : ModelFacingResult) : DictValue floats := record r.field

theorem accepts_toJson {r : ModelFacingResult} (h : r.schemaVersion = 1 ∨ r.schemaVersion = 2) :
    (acceptedShapes (.int r.schemaVersion : JsonValue floats)).any
      (hasKeys (r.toJson : DictValue floats) ·) = true := by
  rw [List.any_eq_true]
  obtain hone | htwo := h
  · refine ⟨expectedKeys ++ [.blocker], ?_, (hasKeys_record _ _).2 fun key => ?_⟩
    · rw [hone]
      exact List.mem_cons_of_mem _ List.mem_cons_self
    · cases key with
      | runtimeArtifactPaths =>
        show (if r.schemaVersion = 2 then _ else none).isSome = true ↔ _
        rw [hone]
        exact ⟨nofun, fun h => absurd h (by decide)⟩
      | _ => exact ⟨fun _ => by decide, fun _ => rfl⟩
  · refine ⟨expectedKeys ++ [.blocker, .runtimeArtifactPaths], ?_,
      (hasKeys_record _ _).2 fun key => ?_⟩
    · rw [htwo]
      exact List.mem_cons_of_mem _ List.mem_cons_self
    · cases key with
      | runtimeArtifactPaths =>
        show (if r.schemaVersion = 2 then _ else none).isSome = true ↔ _
        rw [if_pos htwo]
        exact ⟨fun _ => by decide, fun _ => rfl⟩
      | _ => exact ⟨fun _ => by decide, fun _ => rfl⟩

theorem fromJson_toJson (r : Built ModelFacingResult) :
    fromJson (r.val.toJson : DictValue floats) = .ok r := by
  obtain ⟨hcheck, -⟩ := PostInit.ofCheck_eq_ok.1 r.built
  simp only [check, checks_ok, checkText_eq_ok, checkOptionalText_eq_ok] at hcheck
  obtain ⟨hversion, -, -, -, _, -, -, hnone, -⟩ := hcheck
  have hshape := @accepts_toJson floats r.val hversion
  have hvalidations : (r.val.validations.map fun v => (v.val.toJson : JsonValue floats)).mapM
      ModelValidation.fromJson = .ok r.val.validations :=
    mapM_map_eq_ok.2 fun v _ => ModelValidation.fromJson_toJson v
  have hblocker : optional JsonValue.asDict
      ((r.val.blocker.map fun b => (.dict b.val.toJson : JsonValue floats)).getD .null)
      "result blocker must be an object or null" = .ok (r.val.blocker.map fun b => b.val.toJson) :=
    optional_map JsonValue.asDict (fun b : Built TypedBlocker => .dict b.val.toJson)
      (fun b => b.val.toJson) (fun _ => ⟨rfl, rfl⟩) _ _
  have hblockers : (r.val.blocker.map fun b => (b.val.toJson : DictValue floats)).mapM
      TypedBlocker.fromJson = .ok r.val.blocker :=
    mapM_map_self TypedBlocker.fromJson_toJson r.val.blocker
  have hpaths : optional JsonValue.asStrings
      ((if r.val.schemaVersion = 2 then
          some ((r.val.runtimeArtifactPaths.map texts).getD (.null : JsonValue floats))
        else none).getD .null)
      "result runtime_artifact_paths must be an array of strings or null" =
        .ok r.val.runtimeArtifactPaths := by
    split_ifs with htwo
    · exact optional_getD JsonValue.asStrings texts (fun _ => ⟨rfl, JsonValue.asStrings_list _⟩) _ _
    · have hone := hversion.resolve_right htwo
      rw [Option.not_isSome_iff_eq_none.1 fun hsome => hnone ⟨hone, hsome⟩]
      rfl
  unfold fromJson
  rw [show (at_ (r.val.toJson : DictValue floats) ResultKey.schemaVersion) =
    .int r.val.schemaVersion from at_record _ _, ensure_of hshape, ok_bind]
  simp only [toJson, at_record, field, Option.getD_some, enumText, JsonValue.asStr_str,
    JsonValue.asInt_int, JsonValue.asList_list, expect_some, ok_bind, StrEnum.ofValue_value,
    hvalidations, hblocker, hblockers, hpaths, optional_str, texts, JsonValue.asStrings_list]
  exact Built.new_val r

theorem fromAgentMessage_toJson {r : Built ModelFacingResult} {raw : List UInt8}
    (h : writeObject (r.val.toJson : DictValue floats) = .ok raw)
    (hlength : raw.length ≤ maxAgentMessageBytes) : fromAgentMessage floats raw = .ok r := by
  unfold fromAgentMessage
  rw [readObject_writeObject h hlength, ok_bind]
  exact fromJson_toJson r

end ModelFacingResult

/-! ### Findings -/

/-- What is written element by element is read back element by element. -/
theorem mapM_of_mapM {α β ε : Type} {write : α → Except ε β} {read : β → Except ε α}
    (h : ∀ a b, write a = .ok b → read b = .ok a) :
    ∀ {l : List α} {written : List β}, l.mapM write = .ok written → written.mapM read = .ok l
  | [], _, hl => by
    cases hl
    rfl
  | a :: l, written, hl => by
    rw [List.mapM_cons] at hl
    obtain ⟨b, hb, hl⟩ := bind_eq_ok.1 hl
    obtain ⟨rest, hrest, hl⟩ := bind_eq_ok.1 hl
    cases hl
    rw [List.mapM_cons, h a b hb, ok_bind, mapM_of_mapM h hrest]
    rfl

theorem exists_mapM_ok {α β ε : Type} {write : α → Except ε β} {l : List α} :
    (∃ written, l.mapM write = .ok written) ↔ ∀ a ∈ l, ∃ b, write a = .ok b := by
  induction l with
  | nil => exact ⟨fun _ => nofun, fun _ => ⟨[], rfl⟩⟩
  | cons a l ih =>
    rw [List.forall_mem_cons, ← ih, List.mapM_cons]
    constructor
    · rintro ⟨written, h⟩
      obtain ⟨b, hb, h⟩ := bind_eq_ok.1 h
      obtain ⟨rest, hrest, -⟩ := bind_eq_ok.1 h
      exact ⟨⟨b, hb⟩, rest, hrest⟩
    · rintro ⟨⟨b, hb⟩, rest, hrest⟩
      exact ⟨b :: rest, by rw [hb, ok_bind, hrest]; rfl⟩

namespace ReviewFinding

/-- `_review_evidence_to_json` -/
def evidenceToJson (evidence : DictValue floats) : Checked PyStr := do
  ensure (encodable (.obj evidence.val)) "review finding evidence is not interoperable JSON"
  let encoded := Capsule.text (.obj evidence.val)
  ensure (byteLength encoded ≤ maxEvidenceBytes) "review finding evidence exceeds its byte limit"
  pure encoded

/-- The fields of one of the written findings. -/
def field (f : ReviewFinding floats) (evidence : PyStr) : FindingKey → Option (JsonValue floats)
  | .findingId => some (.str f.findingId)
  | .causalClass => some (enumText f.causalClass)
  | .severity => some (enumText f.severity)
  | .promotionBlocking => some ⟨.bool f.promotionBlocking, rfl⟩
  | .promotionReason => some (.str f.promotionReason)
  | .evidenceJson => some (.str evidence)
  | .criterion => some (.str f.criterion)
  | .deferTo => some ((f.deferTo.map .str).getD .null)
  | .survivesPriorRepair => some f.survivesPriorRepair

def toJson (f : ReviewFinding floats) : Checked (JsonValue floats) := do
  let evidence ← evidenceToJson f.evidence
  pure (.dict (record (f.field evidence)))

/-- The evidence has a canonical text within the bound of the wire. -/
def IsWritable (f : ReviewFinding floats) : Prop :=
  encodable (.obj f.evidence.val) = true ∧
    byteLength (Capsule.text (.obj f.evidence.val)) ≤ maxEvidenceBytes

/-- The canonical text of the evidence is within the bound of the wire. -/
def IsShort (f : ReviewFinding floats) : Prop :=
  byteLength (Capsule.text (.obj f.evidence.val)) ≤ maxEvidenceBytes

theorem evidenceToJson_eq_ok {evidence : DictValue floats} {encoded : PyStr} :
    evidenceToJson evidence = .ok encoded ↔ encodable (.obj evidence.val) = true ∧
      byteLength encoded ≤ maxEvidenceBytes ∧ Capsule.text (.obj evidence.val) = encoded := by
  simp only [evidenceToJson, steps_ok]
  refine and_congr_right fun _ => ⟨?_, ?_⟩
  · rintro ⟨hlength, rfl⟩
    exact ⟨hlength, rfl⟩
  · rintro ⟨hlength, rfl⟩
    exact ⟨hlength, rfl⟩

theorem evidenceFromJson_evidenceToJson {evidence : DictValue floats} {encoded : PyStr}
    (h : evidenceToJson evidence = .ok encoded) :
    evidenceFromJson (.str encoded : JsonValue floats) = .ok evidence := by
  obtain ⟨hencodable, hlength, rfl⟩ := evidenceToJson_eq_ok.1 h
  obtain ⟨hprintable, hinteroperable⟩ := Bool.and_eq_true_iff.1 hencodable
  have hread := strictLoads_text ⟨evidence.property, hprintable, hinteroperable⟩ (.inl rfl)
    maxEvidenceBytes
  rw [List.append_nil, if_pos hlength] at hread
  unfold evidenceFromJson
  rw [JsonValue.asStr_str, expect_some, ok_bind]
  split
  · rename_i hnone
    rw [hread] at hnone
    cases hnone
  · rename_i fields hsome
    rw [hread] at hsome
    cases hsome
    rfl
  · rename_i other hsome
    rw [hread] at hsome
    cases hsome
    exact absurd rfl (other _)

/-- What the reader makes of a text can be written in JSON. -/
theorem encodable_of_evidenceFromJson {value : JsonValue floats} {evidence : DictValue floats}
    (h : evidenceFromJson value = .ok evidence) : encodable (.obj evidence.val) = true := by
  obtain ⟨encoded, -, h⟩ := bind_eq_ok.1 h
  split at h
  · cases h
  · rename_i fields hload
    cases h
    have hreadable := readable_of_strictLoads hload
    rw [encodable, hreadable.printable, hreadable.interoperable]
    rfl
  · cases h

theorem exists_toJson {f : ReviewFinding floats} :
    (∃ value, f.toJson = .ok value) ↔ f.IsWritable := by
  unfold toJson
  constructor
  · rintro ⟨value, h⟩
    obtain ⟨encoded, hencoded, -⟩ := bind_eq_ok.1 h
    obtain ⟨hencodable, hlength, rfl⟩ := evidenceToJson_eq_ok.1 hencoded
    exact ⟨hencodable, hlength⟩
  · rintro ⟨hencodable, hlength⟩
    exact ⟨_, bind_eq_ok.2 ⟨_, evidenceToJson_eq_ok.2 ⟨hencodable, hlength, rfl⟩, rfl⟩⟩

/-- A finding is read back from its fields and any text that its evidence is read from. -/
theorem fromJson_record {f : Built (ReviewFinding floats)} {encoded : PyStr}
    (h : evidenceFromJson (.str encoded : JsonValue floats) = .ok f.val.evidence) :
    fromJson (.dict (record (f.val.field encoded))) = .ok f := by
  have hkeys : hasKeys (record (f.val.field encoded) : DictValue floats) StrEnum.all = true :=
    (hasKeys_record _ _).2 fun key => by cases key <;> exact ⟨fun _ => mem_all _, fun _ => rfl⟩
  simp only [fromJson, JsonValue.asDict_dict, hkeys, ensure_of, at_record, field, Option.getD_some,
    h, enumOf, enumText, JsonValue.asStr_str, Option.bind_some, StrEnum.ofValue_value,
    expect_some, asBool, optional_str, ok_bind]
  exact Built.new_val f

theorem fromJson_toJson {f : Built (ReviewFinding floats)} {value : JsonValue floats}
    (h : f.val.toJson = .ok value) : fromJson value = .ok f := by
  obtain ⟨encoded, hencoded, h⟩ := bind_eq_ok.1 h
  cases h
  exact fromJson_record (evidenceFromJson_evidenceToJson hencoded)

end ReviewFinding

/-! ### Reviews -/

namespace ReviewResult

/-- The fields that `review_result_to_json` writes. -/
def field (r : ReviewResult floats) (findings : List (JsonValue floats)) :
    ReviewKey → Option (JsonValue floats)
  | .schemaVersion => some (.int wireSchemaVersion)
  | .reviewId => some (.str r.reviewId)
  | .reviewerRole => some (.str r.reviewerRole.val)
  | .accepted => some r.accepted
  | .findings => some (.list findings)
  | .reviewedRevision => some (.str r.reviewedRevision)
  | .fresh => some r.fresh
  | .readOnly => some r.readOnly
  | .priorReviewId => some r.priorReviewId
  | .acceptanceMode => some (enumText r.acceptanceMode)
  | .evidenceIds => some (texts r.evidenceIds)

/-- `review_result_to_json` -/
def toJson (r : ReviewResult floats) : Checked (DictValue floats) := do
  let findings ← r.findings.mapM (·.val.toJson)
  pure (record (r.field findings))

/-- A review is read back from its fields and any objects that its findings are read from. -/
theorem fromJson_record {r : Built (ReviewResult floats)} {findings : List (JsonValue floats)}
    (h : findings.mapM ReviewFinding.fromJson = .ok r.val.findings) :
    fromJson (record (r.val.field findings)) = .ok r := by
  have hkeys : hasKeys (record (r.val.field findings) : DictValue floats) StrEnum.all = true :=
    (hasKeys_record _ _).2 fun key => by cases key <;> exact ⟨fun _ => mem_all _, fun _ => rfl⟩
  simp only [fromJson, hkeys, ensure_of, at_record, field, Option.getD_some, JsonValue.asInt_int,
    JsonValue.asList_list, h, texts, JsonValue.asStrings_list, JsonValue.asStr_str,
    Identifier.new_val, enumOf, enumText, Option.bind_some, StrEnum.ofValue_value, expect_some,
    ok_bind]
  exact Built.new_val r

theorem fromJson_toJson {r : Built (ReviewResult floats)} {d : DictValue floats}
    (h : r.val.toJson = .ok d) : fromJson d = .ok r := by
  obtain ⟨findings, hfindings, h⟩ := bind_eq_ok.1 h
  cases h
  exact fromJson_record (mapM_of_mapM (fun _ _ => ReviewFinding.fromJson_toJson) hfindings)

theorem exists_toJson {r : ReviewResult floats} :
    (∃ d, r.toJson = .ok d) ↔ ∀ f ∈ r.findings, f.val.IsWritable := by
  have hfindings := @exists_mapM_ok _ _ _ (fun f : Built (ReviewFinding floats) => f.val.toJson)
    r.findings
  simp only [ReviewFinding.exists_toJson] at hfindings
  rw [← hfindings]
  unfold toJson
  constructor
  · rintro ⟨d, h⟩
    obtain ⟨findings, h, -⟩ := bind_eq_ok.1 h
    exact ⟨findings, h⟩
  · rintro ⟨findings, h⟩
    exact ⟨_, bind_eq_ok.2 ⟨findings, h, rfl⟩⟩

/-- The review is written, and read back from its object and from the text of that. -/
def RoundTrips (r : Built (ReviewResult floats)) : Prop :=
  ∃ d, r.val.toJson = .ok d ∧ fromJson d = .ok r ∧
    ∀ raw, writeObject d = .ok raw → raw.length ≤ ModelFacingResult.maxAgentMessageBytes →
      fromAgentMessage floats raw = .ok r

/-- That is so exactly where each finding can be written. -/
theorem roundTrips_iff (r : Built (ReviewResult floats)) :
    RoundTrips r ↔ ∀ f ∈ r.val.findings, f.val.IsWritable := by
  rw [← exists_toJson]
  constructor
  · rintro ⟨d, hwrite, -⟩
    exact ⟨d, hwrite⟩
  · rintro ⟨d, hwrite⟩
    have hread := fromJson_toJson hwrite
    refine ⟨d, hwrite, hread, fun raw hraw hlength => ?_⟩
    unfold fromAgentMessage
    rw [readObject_writeObject hraw hlength, ok_bind]
    exact hread

/-- The evidence of a review that is read can be written in JSON. -/
theorem encodable_of_fromJson {d : DictValue floats} {r : Built (ReviewResult floats)}
    (h : fromJson d = .ok r) :
    ∀ f ∈ r.val.findings, encodable (.obj f.val.evidence.val) = true := by
  unfold fromJson at h
  simp only [checks_ok] at h
  obtain ⟨-, -, _, -, findings, hfindings, _, -, _, -, _, -, _, -, _, -, _, -, hnew⟩ := h
  obtain ⟨-, hval⟩ := PostInit.ofCheck_eq_ok.1 (Built.new_eq_ok.1 hnew)
  rw [← hval]
  intro f hmem
  obtain ⟨value, -, hread⟩ := mem_of_mapM_ok hfindings f hmem
  unfold ReviewFinding.fromJson at hread
  simp only [checks_ok] at hread
  obtain ⟨_, -, -, evidence, hevidence, _, -, _, -, _, -, _, -, _, -, _, -, _, -, hnew⟩ := hread
  obtain ⟨-, hval⟩ := PostInit.ofCheck_eq_ok.1 (Built.new_eq_ok.1 hnew)
  rw [← hval]
  exact ReviewFinding.encodable_of_evidenceFromJson hevidence

/-- A review that is read is written and read back exactly where the canonical texts of its
evidence are within the bound. -/
theorem roundTrips_of_fromAgentMessage {raw : List UInt8} {r : Built (ReviewResult floats)}
    (h : fromAgentMessage floats raw = .ok r) :
    RoundTrips r ↔ ∀ f ∈ r.val.findings, f.val.IsShort := by
  obtain ⟨d, -, hread⟩ := bind_eq_ok.1 h
  have hencodable := encodable_of_fromJson hread
  rw [roundTrips_iff]
  exact ⟨fun hw f hmem => (hw f hmem).2, fun hs f hmem => ⟨hencodable f hmem, hs f hmem⟩⟩

end ReviewResult

/-! ### Both envelopes -/

/-- The result is read back from its object and from the text of that. -/
def ModelFacingResult.RoundTrips (floats : Floats) (r : Built ModelFacingResult) : Prop :=
  fromJson (r.val.toJson : DictValue floats) = .ok r ∧
    ∀ raw, writeObject (r.val.toJson : DictValue floats) = .ok raw →
      raw.length ≤ maxAgentMessageBytes → fromAgentMessage floats raw = .ok r

theorem ModelFacingResult.roundTrips (r : Built ModelFacingResult) : RoundTrips floats r :=
  ⟨fromJson_toJson r, fun _ => fromAgentMessage_toJson⟩

/-- The keys of an object are within any set that they are. -/
theorem mem_of_keysAre {d : DictValue floats} {a b : List PyStr} (ha : d.keysAre a = true)
    (hb : d.keysAre b = true) {key : PyStr} (hkey : key ∈ b) : key ∈ a := by
  unfold DictValue.keysAre Hook.Dict.keysAre at ha hb
  have hwithin := List.all_eq_true.1 (Bool.and_eq_true_iff.1 ha).1
  have hhas := List.all_eq_true.1 (Bool.and_eq_true_iff.1 hb).2 key hkey
  obtain ⟨value, hmem⟩ : ∃ value, (key, value) ∈ d.val := by
    simpa [Hook.Dict.has, Hook.Dict.get?] using hhas
  exact of_decide_eq_true (hwithin _ hmem)

theorem load_of_readObject {limit : ℕ} {raw : List UInt8} {error : String} {d : DictValue floats}
    (h : readObject floats limit raw error = .ok d) :
    strictLoadsBytes floats limit raw = some (.obj d.val) := by
  unfold readObject at h
  split at h
  · cases h
  · rename_i fields hload
    cases h
    exact hload
  · cases h

theorem not_both {d : DictValue floats} {r : Built ModelFacingResult}
    {v : Built (ReviewResult floats)} (hr : ModelFacingResult.fromJson d = .ok r) (hv : ReviewResult.fromJson d = .ok v) : False := by
  simp only [ModelFacingResult.fromJson, bind_eq_ok, ensure_eq_ok] at hr
  simp only [ReviewResult.fromJson, bind_eq_ok, ensure_eq_ok] at hv
  obtain ⟨-, hshapes, -⟩ := hr
  obtain ⟨-, hkeys, -⟩ := hv
  obtain ⟨shape, -, hshape⟩ := List.any_eq_true.1 hshapes
  have hreview : lit "review_id" ∈ (StrEnum.all : List ReviewKey).map StrEnum.value := by decide
  obtain ⟨key, -, hsame⟩ := List.mem_map.1 (mem_of_keysAre hshape hkeys hreview)
  cases key <;> exact absurd hsame (by decide)

def wideRepr : PyStr := lit "1000000000000000.0"

def wideToken : PyStr := lit "1e15"

/-- An interpreter that knows one float. -/
def wideFloats : Floats where
  isRepr text := text = wideRepr
  read text := if text = wideRepr ∨ text = wideToken then some wideRepr else none
  ofInt _ := none
  isPositive _ := true
  token text h := by
    rw [of_decide_eq_true h]
    decide
  round_trip text h := by
    rw [of_decide_eq_true h]
    exact if_pos (Or.inl rfl)
  read_isRepr text value h := by
    split_ifs at h
    exact decide_eq_true (Option.some.inj h).symm

def bareFinding : Built (ReviewFinding wideFloats) where
  val := {
    findingId := lit "f"
    causalClass := .implementation
    severity := .P3
    promotionBlocking := false
    promotionReason := lit "r"
    evidence := ⟨[], rfl⟩
    criterion := lit "c"
    survivesPriorRepair := ⟨.bool false, rfl⟩ }
  built := PostInit.ofCheck_eq_ok.2 ⟨by decide, rfl⟩

def reviewWith (f : Built (ReviewFinding floats)) : ReviewResult floats where
  reviewId := lit "review"
  reviewerRole := ⟨lit "reviewer", by decide⟩
  accepted := ⟨.bool true, rfl⟩
  findings := [f]
  reviewedRevision := lit "revision"
  fresh := ⟨.bool true, rfl⟩
  readOnly := ⟨.bool true, rfl⟩
  priorReviewId := .null
  acceptanceMode := .objective
  evidenceIds := []

def bareReview : Built (ReviewResult wideFloats) where
  val := reviewWith bareFinding
  built := PostInit.ofCheck_eq_ok.2 ⟨by decide, rfl⟩

theorem textBytes_record_le_sum {ι : Type} [RecordKeys ι] {field : ι → Option (JsonValue floats)}
    {most : ι → ℕ} (h : ∀ key value, field key = some value →
      fieldBytes (StrEnum.value key, value.val) ≤ most key) :
    textBytes (.obj (record field).val) ≤
      2 + ((StrEnum.all : List ι).map fun key => most key + 1).sum := by
  have hkeys : ∀ keys : List ι,
      ((keys.filterMap fun key => (field key).map fun value => (StrEnum.value key, value)).map
          fun item => fieldBytes (item.1, item.2.val)).sum +
        (keys.filterMap fun key => (field key).map fun value => (StrEnum.value key, value)).length ≤
      (keys.map fun key => most key + 1).sum := by
    intro keys
    induction keys with
    | nil => exact Nat.le_refl 0
    | cons key keys ih =>
      rw [List.map_cons, List.sum_cons, List.filterMap_cons]
      cases hvalue : field key with
      | none =>
        dsimp only [Option.map_none]
        omega
      | some value =>
        have hfield := h key value hvalue
        dsimp only [Option.map_some]
        rw [List.map_cons, List.sum_cons, List.length_cons]
        show fieldBytes (StrEnum.value key, value.val) + _ + (_ + 1) ≤ _
        omega
  have hall := hkeys StrEnum.all
  unfold record
  rw [textBytes_ofFields]
  unfold separated
  rw [List.length_map]
  unfold items
  omega

def wideItems : ℕ → PyStr
  | 0 => wideToken ++ [Capsule.closeBracket, Capsule.closeBrace]
  | n + 1 => wideToken ++ (Capsule.comma :: wideItems n)

theorem numberToken_wide : Capsule.numberToken wideFloats wideToken = some (.float wideRepr) := by
  unfold Capsule.numberToken
  rw [Capsule.intToken_of_isFloatToken (by decide)]
  have hread : wideFloats.read wideToken = some wideRepr := by
    show (if wideToken = wideRepr ∨ wideToken = wideToken then some wideRepr else none) = _
    exact if_pos (Or.inr rfl)
  rw [if_pos (by decide), hread]
  rfl

theorem parseValue_wide (fuel : ℕ) {rest : PyStr} (h : Capsule.Stops rest) :
    Capsule.parseValue wideFloats (fuel + 1) (wideToken ++ rest) = some (.float wideRepr, rest) :=
  Capsule.parseValue_number fuel ⟨_, _, rfl, by decide⟩ (by decide) numberToken_wide h

theorem parseItems_wide (n : ℕ) : ∀ fuel, n + 2 ≤ fuel →
    Capsule.parseItems wideFloats fuel (wideItems n) =
      some (List.replicate (n + 1) (.float wideRepr), [Capsule.closeBrace]) := by
  induction n with
  | zero =>
    intro fuel hfuel
    obtain ⟨fuel, rfl⟩ : ∃ k, fuel = k + 2 := ⟨fuel - 2, by omega⟩
    rw [Capsule.parseItems.eq_def]
    show (Capsule.parseValue wideFloats (fuel + 1) (wideToken ++
      [Capsule.closeBracket, Capsule.closeBrace]) >>= _) = _
    rw [parseValue_wide fuel (Capsule.stops_cons (by decide) _)]
    rfl
  | succ n ih =>
    intro fuel hfuel
    obtain ⟨fuel, rfl⟩ : ∃ k, fuel = k + 2 := ⟨fuel - 2, by omega⟩
    rw [Capsule.parseItems.eq_def]
    show (Capsule.parseValue wideFloats (fuel + 1) (wideToken ++ (Capsule.comma :: wideItems n)) >>=
      _) = _
    rw [parseValue_wide fuel (Capsule.stops_cons (by decide) _)]
    have hhead : Capsule.skipBlanks (wideItems n) = wideItems n := by
      cases n <;> exact Capsule.skipBlanks_cons (by decide) _
    show (Capsule.parseItems wideFloats (fuel + 1) (Capsule.skipBlanks (wideItems n)) >>= _) = _
    rw [hhead, ih (fuel + 1) (by omega)]
    rfl

def wideFields : Hook.Dict := [(lit "a", .arr (List.replicate 901 (.float wideRepr)))]

def wideEvidence : DictValue wideFloats where
  val := wideFields
  property := by
    refine Capsule.ordered_obj_iff.2 ⟨rfl, fun field hmem => ?_⟩
    obtain rfl := List.mem_singleton.1 hmem
    refine Capsule.orderedItems_iff.2 fun item hitem => ?_
    obtain rfl := List.eq_of_mem_replicate hitem
    rfl

/-- The text of the evidence as the reviewer wrote it. -/
def wideText : PyStr :=
  Capsule.openBrace :: (Capsule.quoted (lit "a") ++
    Capsule.colon :: Capsule.openBracket :: wideItems 900)

theorem parseFields_wide (fuel : ℕ) (h : 905 ≤ fuel) :
    Capsule.parseFields wideFloats fuel (Capsule.quoted (lit "a") ++
      Capsule.colon :: Capsule.openBracket :: wideItems 900) = some (wideFields, []) := by
  obtain ⟨fuel, rfl⟩ : ∃ k, fuel = k + 2 := ⟨fuel - 2, by omega⟩
  have harray : Capsule.parseValue wideFloats (fuel + 1) (Capsule.openBracket :: wideItems 900) =
      some (.arr (List.replicate 901 (.float wideRepr)), [Capsule.closeBrace]) :=
    Capsule.parseValue_array ⟨_, _, rfl, by decide, by decide⟩ (parseItems_wide 900 fuel (by omega))
  rw [Capsule.parseFields.eq_def, Capsule.quoted]
  simp only [List.cons_append, List.append_assoc, List.nil_append]
  rw [if_pos trivial, Capsule.parseString_quoted (by decide)]
  dsimp only [Option.bind_eq_bind, Option.bind_some]
  rw [Capsule.skipBlanks_cons (by decide)]
  dsimp only
  rw [if_pos rfl, Capsule.skipBlanks_cons (by decide), harray]
  rfl

theorem interoperable_wide : Capsule.interoperable (.obj wideFields) = true := by
  have hitems : ∀ n, Capsule.interoperableItems (List.replicate n (.float wideRepr)) = true := by
    intro n
    induction n with
    | zero => rfl
    | succ n ih => exact ih
  unfold wideFields
  rw [Capsule.interoperable, Capsule.interoperableFields, Capsule.interoperable, hitems]
  rfl

theorem loads_wideText : Capsule.loads wideFloats wideText = some (.obj wideFields) := by
  have hlength : 905 ≤ wideText.length := by decide +kernel
  have hobject : Capsule.parseValue wideFloats (wideText.length + 1) wideText =
      some (.obj wideFields, []) :=
    Capsule.parseValue_object rfl (parseFields_wide wideText.length hlength)
  unfold Capsule.loads
  rw [show Capsule.skipBlanks wideText = wideText from Capsule.skipBlanks_cons (by decide) _,
    hobject]
  rfl

theorem strictLoads_wideText : strictLoads wideFloats ReviewFinding.maxEvidenceBytes wideText =
    some (.obj wideFields) := by
  have hwithin : byteLength wideText ≤ ReviewFinding.maxEvidenceBytes ∧
      ¬ wideText.any Hook.isSurrogate ∧ wideText.head? ≠ some Capsule.byteOrderMark := by
    decide +kernel
  unfold Capsule.strictLoads
  rw [if_pos hwithin, loads_wideText, Option.filter_some, if_pos interoperable_wide]

theorem textBytes_wide (n : ℕ) :
    textBytes (.obj [(lit "a", .arr (List.replicate n (.float wideRepr)))]) =
      8 + (n * 18 + (n - 1)) := by
  have hitem : textBytes (.float wideRepr) = 18 := rfl
  have hkey : quotedBytes (lit "a") = 3 := rfl
  rw [Capsule.textBytes_obj, List.map_cons, List.map_nil, fieldBytes, hkey, Capsule.textBytes_arr,
    List.map_replicate, hitem]
  show 2 + (3 + 1 + (2 + separated (List.replicate n 18)) + 0 + 0) = _
  unfold separated
  rw [List.sum_replicate_nat, List.length_replicate]
  omega

theorem wideFields_long : ReviewFinding.maxEvidenceBytes < textBytes (.obj wideFields) :=
  (textBytes_wide 901).symm ▸ by decide

def wideFinding : Built (ReviewFinding wideFloats) where
  val := {
    findingId := lit "f"
    causalClass := .implementation
    severity := .P3
    promotionBlocking := false
    promotionReason := lit "r"
    evidence := wideEvidence
    criterion := lit "c"
    survivesPriorRepair := ⟨.bool false, rfl⟩ }
  built := by
    refine PostInit.ofCheck_eq_ok.2 ⟨?_, rfl⟩
    simp only [ReviewFinding.check, checks_ok, checkText_eq_ok, checkOptionalText_eq_ok]
    exact ⟨by decide, by decide, by decide, by decide, interoperable_wide⟩

def wideReview : Built (ReviewResult wideFloats) where
  val := reviewWith wideFinding
  built := PostInit.ofCheck_eq_ok.2 ⟨by decide, rfl⟩

/-- The finding as the reviewer wrote it. -/
def wideMessageFinding : DictValue wideFloats := record (wideFinding.val.field wideText)

def wideMessage : DictValue wideFloats :=
  record (wideReview.val.field [.dict wideMessageFinding])

theorem evidenceFromJson_wideText :
    ReviewFinding.evidenceFromJson (.str wideText : JsonValue wideFloats) = .ok wideEvidence := by
  unfold ReviewFinding.evidenceFromJson
  rw [JsonValue.asStr_str, expect_some, ok_bind]
  split
  · rename_i hnone
    rw [strictLoads_wideText] at hnone
    cases hnone
  · rename_i fields hsome
    rw [strictLoads_wideText] at hsome
    cases hsome
    rfl
  · rename_i other hsome
    rw [strictLoads_wideText] at hsome
    cases hsome
    exact absurd rfl (other _)

theorem textBytes_wideMessageFinding : textBytes (.obj wideMessageFinding.val) ≤ 5400 := by
  have hevidence : quotedBytes wideText ≤ 4600 := by decide +kernel
  let most : FindingKey → ℕ
    | .evidenceJson => 4700
    | _ => 64
  refine (textBytes_record_le_sum fun key value hvalue => ?_).trans
    (show 2 + ((StrEnum.all : List FindingKey).map fun key => most key + 1).sum ≤ 5400 by decide)
  cases key with
  | evidenceJson =>
    cases hvalue
    have hfield : ∀ text, fieldBytes (StrEnum.value FindingKey.evidenceJson,
        (.str text : JsonValue wideFloats).val) = 16 + quotedBytes text := fun text =>
      congrArg (16 + ·) (Capsule.textBytes_str text)
    rw [hfield]
    show _ ≤ 4700
    omega
  | _ =>
    cases hvalue
    decide

theorem textBytes_wideMessage :
    textBytes (.obj wideMessage.val) ≤ ModelFacingResult.maxAgentMessageBytes := by
  have hfinding := textBytes_wideMessageFinding
  let most : ReviewKey → ℕ
    | .findings => 5500
    | _ => 64
  refine (textBytes_record_le_sum fun key value hvalue => ?_).trans
    (show 2 + ((StrEnum.all : List ReviewKey).map fun key => most key + 1).sum ≤
      ModelFacingResult.maxAgentMessageBytes by decide)
  cases key with
  | findings =>
    cases hvalue
    have hkey : quotedBytes (lit "findings") = 10 := rfl
    show quotedBytes (lit "findings") + 1 + textBytes (.arr [.obj wideMessageFinding.val]) ≤ 5500
    rw [Capsule.textBytes_arr, hkey]
    show 10 + 1 + (2 + (textBytes (.obj wideMessageFinding.val) + 0 + 0)) ≤ 5500
    omega
  | _ =>
    cases hvalue
    decide

theorem encodable_wideMessage : encodable (.obj wideMessage.val) = true := by
  have hfinding : encodable (.obj wideMessageFinding.val) = true := by
    refine encodable_record.2 fun key value hvalue => ?_
    cases key with
    | evidenceJson =>
      cases hvalue
      refine ⟨by decide, ?_⟩
      show encodable (.str wideText) = true
      rw [Ipc.encodable_str]
      decide +kernel
    | _ =>
      cases hvalue
      decide
  refine encodable_record.2 fun key value hvalue => ?_
  cases key with
  | findings =>
    cases hvalue
    refine ⟨by decide, ?_⟩
    exact (Ipc.encodable_arr _).2 (List.forall_mem_singleton.2 hfinding)
  | _ =>
    cases hvalue
    decide

theorem exists_wideMessage :
    ∃ raw, ReviewResult.fromAgentMessage wideFloats raw = .ok wideReview := by
  obtain ⟨raw, hraw, hlength⟩ := writeObject_of_encodable encodable_wideMessage
  have hread := readObject_writeObject hraw (hlength.trans_le textBytes_wideMessage)
    "review result root must be an object"
  have hfindings : [JsonValue.dict wideMessageFinding].mapM ReviewFinding.fromJson =
      .ok wideReview.val.findings := by
    rw [List.mapM_cons, wideMessageFinding,
      ReviewFinding.fromJson_record (f := wideFinding) evidenceFromJson_wideText]
    rfl
  refine ⟨raw, ?_⟩
  unfold ReviewResult.fromAgentMessage
  rw [hread, ok_bind, wideMessage]
  exact ReviewResult.fromJson_record hfindings

end CodexFlow.Contracts
