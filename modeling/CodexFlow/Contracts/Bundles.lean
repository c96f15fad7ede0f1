import CodexFlow.Contracts.ControllerActions
import CodexFlow.Contracts.ProgramActions

/-!
# Action bundles on the wire

The two envelopes that a controller's model authors. A bundle that its constructor accepts is within
the limit of its reader; it is read back from its bytes where each of its actions is.
-/

namespace CodexFlow.Contracts

open Hook (PyStr lit)
open Capsule (Floats JsonValue DictValue StrEnum Checked Identifier expect expect_some expect_eq_ok
  enumText texts isHex fieldBytes quotedBytes textBytes textBytes_arr)
open Ledger (ControllerActionKind ProgramEventKind)
open Programs (ProgramActionKind)
open Ipc (encodable encodable_arr)
open Checked

variable {floats : Floats}

instance : StrEnum ProgramEventKind where
  all := [.implementationCompleted, .reviewCompleted, .integrationCompleted, .controllerAttention,
    .checkpoint]
  value
    | .implementationCompleted => lit "implementation_completed"
    | .reviewCompleted => lit "review_completed"
    | .integrationCompleted => lit "integration_completed"
    | .controllerAttention => lit "controller_attention"
    | .checkpoint => lit "checkpoint"
  find_value a := by cases a <;> decide

/-- `value == 1`, of a number that is no `bool`. -/
def isOne (value : JsonValue floats) : Bool :=
  match value.val with
  | .int n => n = 1
  | .float literal => floats.ofInt 1 = some literal
  | _ => false

def maxBundleBytes : ℕ := 32 * 1024

/-! ### Bundles of controller actions -/

structure ControllerActionBundle (floats : Floats) where
  schemaVersion : JsonValue floats
  decisionId : ControllerDecisionId
  generation : Generation
  actionId : PyStr
  expectedRevision : ℤ
  expectedSuccessorDispatchIds : List PyStr
  actions : List (Built ControllerAction)
  rationale : PyStr

inductive ControllerBundleKey where
  | schemaVersion
  | decisionId
  | generation
  | actionId
  | expectedRevision
  | expectedSuccessorDispatchIds
  | actions
  | rationale
deriving DecidableEq

instance : RecordKeys ControllerBundleKey where
  all := [.schemaVersion, .decisionId, .generation, .actionId, .expectedRevision,
    .expectedSuccessorDispatchIds, .actions, .rationale]
  value
    | .schemaVersion => lit "schema_version"
    | .decisionId => lit "decision_id"
    | .generation => lit "generation"
    | .actionId => lit "action_id"
    | .expectedRevision => lit "expected_revision"
    | .expectedSuccessorDispatchIds => lit "expected_successor_dispatch_ids"
    | .actions => lit "actions"
    | .rationale => lit "rationale"
  find_value a := by cases a <;> decide
  nodup := by decide

namespace ControllerActionBundle

/-- The fields that `to_json` writes. -/
def field (b : ControllerActionBundle floats) : ControllerBundleKey → Option (JsonValue floats)
  | .schemaVersion => some b.schemaVersion
  | .decisionId => some (.str b.decisionId.val)
  | .generation => some (.int b.generation.val)
  | .actionId => some (.str b.actionId)
  | .expectedRevision => some (.int b.expectedRevision)
  | .expectedSuccessorDispatchIds => some (texts b.expectedSuccessorDispatchIds)
  | .actions => some (.list (b.actions.map fun action => .dict action.val.toJson))
  | .rationale => some (.str b.rationale)

/-- `to_json` -/
def toJson (b : ControllerActionBundle floats) : DictValue floats := record b.field

/-- `to_json_bytes` -/
def toJsonBytes (b : ControllerActionBundle floats) : Checked (List UInt8) := writeObject b.toJson

def checkActions (actions : List (Built ControllerAction)) : Checked Unit := do
  let kinds := actions.map (·.val.kind)
  ensure (1 ≤ actions.length ∧ actions.length ≤ 8)
    "controller bundle must contain one to eight typed actions"
  ensure kinds.Nodup "controller action kinds must be unique"
  ensure (.acknowledgeOnly ∈ kinds → actions.length = 1) "acknowledge_only is exclusive"
  ensure (¬ (.rearmCheckpoint ∈ kinds ∧
      (.cancelDispatch ∈ kinds ∨ .requireHumanAttention ∈ kinds)))
    "checkpoint re-arm conflicts with cancellation or attention"
  ensure (.requireHumanAttention ∈ kinds → actions.length = 1) "human-attention action is exclusive"
  ensure ((kinds.filter (· ∈ ControllerAction.recoveryKinds)).length ≤ 1)
    "controller recovery actions are mutually exclusive"
  ensure (actions.filterMap (·.val.actionId)).Nodup "controller action ids must be unique"

def check (b : ControllerActionBundle floats) : Checked Unit := do
  ensure (isOne b.schemaVersion) "unsupported controller action schema version"
  checkText b.actionId "controller bundle action id" 256
  ensure (0 ≤ b.expectedRevision) "controller bundle revision is invalid"
  ensure (b.expectedSuccessorDispatchIds.length ≤ 128 ∧ b.expectedSuccessorDispatchIds.Nodup)
    "controller successor snapshot is invalid"
  ensure (∀ dispatch ∈ b.expectedSuccessorDispatchIds, isDispatchId dispatch = true)
    "dispatch id must be <run>/<milestone>/<role>/<generation>"
  checkActions b.actions
  checkText b.rationale "controller bundle rationale" 4096

/-- The successors are left in order. -/
def sort (b : ControllerActionBundle floats) : ControllerActionBundle floats :=
  { b with expectedSuccessorDispatchIds := sorted b.expectedSuccessorDispatchIds }

/-- `__post_init__` -/
def construct (b : ControllerActionBundle floats) : Checked (ControllerActionBundle floats) := do
  b.check
  let raw ← b.sort.toJsonBytes
  ensure (raw.length ≤ maxBundleBytes) "controller action bundle exceeds its byte limit"
  pure b.sort

theorem construct_eq_ok {b c : ControllerActionBundle floats} :
    b.construct = .ok c ↔ b.check = .ok () ∧ b.sort = c ∧
      ∃ raw, c.toJsonBytes = .ok raw ∧ raw.length ≤ maxBundleBytes := by
  unfold construct
  simp only [steps_ok]
  constructor
  · rintro ⟨⟨⟩, hcheck, raw, hraw, hlength, rfl⟩
    exact ⟨hcheck, rfl, raw, hraw, hlength⟩
  · rintro ⟨hcheck, rfl, raw, hraw, hlength⟩
    exact ⟨⟨⟩, hcheck, raw, hraw, hlength, rfl⟩

theorem check_sort (b : ControllerActionBundle floats) :
    b.sort.check = .ok () ↔ b.check = .ok () := by
  unfold check
  simp only [checks_ok, checkText_eq_ok]
  simp only [sort, length_sorted, nodup_sorted, mem_sorted]

theorem sort_sort (b : ControllerActionBundle floats) : b.sort.sort = b.sort := by simp [sort]

instance : PostInit String (ControllerActionBundle floats) where
  postInit := construct
  idempotent := by
    intro b c h
    obtain ⟨hcheck, rfl, hraw⟩ := construct_eq_ok.1 h
    exact construct_eq_ok.2 ⟨(check_sort b).2 hcheck, sort_sort b, hraw⟩

/-- `from_json` -/
def fromJson (d : DictValue floats) : Checked (Built (ControllerActionBundle floats)) := do
  ensure (hasKeys d (StrEnum.all : List ControllerBundleKey))
    "controller action bundle keys are unsupported"
  let arrays := "controller bundle arrays are malformed"
  let actions ← expect (at_ d ControllerBundleKey.actions).asDicts arrays
  let successors ← expect (at_ d ControllerBundleKey.expectedSuccessorDispatchIds).asStrings arrays
  let actions ← actions.mapM ControllerAction.fromJson
  let decisionId ← expect (at_ d ControllerBundleKey.decisionId).asStr
    "controller decision id must start with decision/"
  let decisionId ← ControllerDecisionId.new decisionId
  let generation ← Generation.ofJson (at_ d ControllerBundleKey.generation)
  let actionId ← expect (at_ d ControllerBundleKey.actionId).asStr
    "controller bundle action id must be a bounded non-empty string"
  let expectedRevision ← expect (at_ d ControllerBundleKey.expectedRevision).asInt
    "controller bundle revision is invalid"
  let rationale ← expect (at_ d ControllerBundleKey.rationale).asStr
    "controller bundle rationale must be a bounded non-empty string"
  Built.new
    { schemaVersion := at_ d ControllerBundleKey.schemaVersion
      decisionId, generation, actionId, expectedRevision
      expectedSuccessorDispatchIds := successors
      actions, rationale }

/-- `from_json_bytes` -/
def fromJsonBytes (floats : Floats) (raw : List UInt8) :
    Checked (Built (ControllerActionBundle floats)) := do
  fromJson (← readObject floats maxBundleBytes raw "controller action bundle root must be an object")

/-- A bundle is read back from what it is written as exactly where each of its actions is. -/
theorem fromJson_toJson (b : Built (ControllerActionBundle floats)) :
    fromJson b.val.toJson = .ok b ↔
      ∀ action ∈ b.val.actions, action.val.IsPlain ∧ action.val.GrantsNothing := by
  have hkeys : hasKeys (record b.val.field) StrEnum.all = true :=
    (hasKeys_record _ _).2 fun key => by cases key <;> exact ⟨fun _ => mem_all _, fun _ => rfl⟩
  have hactions : ∀ actions : List (Built ControllerAction),
      (JsonValue.list (actions.map fun action =>
        (.dict action.val.toJson : JsonValue floats))).asDicts =
        some (actions.map fun action => action.val.toJson) := by
    intro actions
    rw [← JsonValue.asDicts_list, List.map_map]
    rfl
  have hgeneration : Generation.ofJson (.int b.val.generation.val : JsonValue floats) =
      .ok b.val.generation := Generation.new_val _
  have hback : (b.val.actions.map fun action => (action.val.toJson : DictValue floats)).mapM
      ControllerAction.fromJson = .ok b.val.actions ↔ _ := mapM_map_eq_ok
  simp only [ControllerAction.fromJson_toJson] at hback
  rw [← hback]
  unfold fromJson toJson
  simp only [at_record, field, Option.getD_some, hactions, expect_some, ok_bind, texts,
    JsonValue.asStrings_list, JsonValue.asStr_str, JsonValue.asInt_int, hgeneration,
    ControllerDecisionId.new_val, ensure_of hkeys, bind_eq_ok]
  constructor
  · rintro ⟨actions, hread, hnew⟩
    obtain ⟨-, hsort, -⟩ := construct_eq_ok.1 (Built.new_eq_ok.1 hnew)
    rw [hread, ← hsort]
    rfl
  · exact fun h => ⟨_, h, Built.new_val b⟩

/-- The actions of a bundle that is read are read back. -/
theorem plain_of_fromJson {d : DictValue floats} {b : Built (ControllerActionBundle floats)}
    (h : fromJson d = .ok b) :
    ∀ action ∈ b.val.actions, action.val.IsPlain ∧ action.val.GrantsNothing := by
  unfold fromJson at h
  simp only [checks_ok] at h
  obtain ⟨-, _, -, _, -, actions, hactions, _, -, _, -, _, -, _, -, _, -, _, -, hnew⟩ := h
  obtain ⟨-, hsort, -⟩ := construct_eq_ok.1 (Built.new_eq_ok.1 hnew)
  rw [← hsort]
  intro action hmem
  obtain ⟨object, -, hread⟩ := mem_of_mapM_ok hactions action hmem
  exact ControllerAction.plain_of_fromJson hread

end ControllerActionBundle

/-! ### Bundles of program actions -/

structure ProgramActionBundle (floats : Floats) where
  schemaVersion : JsonValue floats
  decisionId : ControllerDecisionId
  programId : Identifier
  planDigest : PyStr
  generation : Generation
  eventKind : ProgramEventKind
  eventKey : PyStr
  expectedProgramRevision : ℤ
  expectedTrunkHead : PyStr
  actions : List (Built ProgramControllerAction)
  rationale : PyStr

inductive ProgramBundleKey where
  | schemaVersion
  | decisionId
  | programId
  | planDigest
  | generation
  | eventKind
  | eventKey
  | expectedProgramRevision
  | expectedTrunkHead
  | actions
  | rationale
deriving DecidableEq

instance : RecordKeys ProgramBundleKey where
  all := [.schemaVersion, .decisionId, .programId, .planDigest, .generation, .eventKind, .eventKey,
    .expectedProgramRevision, .expectedTrunkHead, .actions, .rationale]
  value
    | .schemaVersion => lit "schema_version"
    | .decisionId => lit "decision_id"
    | .programId => lit "program_id"
    | .planDigest => lit "plan_digest"
    | .generation => lit "generation"
    | .eventKind => lit "event_kind"
    | .eventKey => lit "event_key"
    | .expectedProgramRevision => lit "expected_program_revision"
    | .expectedTrunkHead => lit "expected_trunk_head"
    | .actions => lit "actions"
    | .rationale => lit "rationale"
  find_value a := by cases a <;> decide
  nodup := by decide

namespace ProgramActionBundle

/-- The fields that `to_json` writes. -/
def field (b : ProgramActionBundle floats) : ProgramBundleKey → Option (JsonValue floats)
  | .schemaVersion => some b.schemaVersion
  | .decisionId => some (.str b.decisionId.val)
  | .programId => some (.str b.programId.val)
  | .planDigest => some (.str b.planDigest)
  | .generation => some (.int b.generation.val)
  | .eventKind => some (enumText b.eventKind)
  | .eventKey => some (.str b.eventKey)
  | .expectedProgramRevision => some (.int b.expectedProgramRevision)
  | .expectedTrunkHead => some (.str b.expectedTrunkHead)
  | .actions => some (.list (b.actions.map fun action => .dict action.val.toJson))
  | .rationale => some (.str b.rationale)

/-- `to_json` -/
def toJson (b : ProgramActionBundle floats) : DictValue floats := record b.field

/-- `to_json_bytes` -/
def toJsonBytes (b : ProgramActionBundle floats) : Checked (List UInt8) := writeObject b.toJson

def check (b : ProgramActionBundle floats) : Checked Unit := do
  let kinds := b.actions.map (·.val.kind)
  ensure (isOne b.schemaVersion) "unsupported program action schema version"
  ensure (isHex 64 b.planDigest) "program plan digest is invalid"
  checkText b.eventKey "program event key" 256
  ensure (0 ≤ b.expectedProgramRevision) "program revision is invalid"
  ensure (isHex 40 b.expectedTrunkHead) "program trunk HEAD is invalid"
  ensure (1 ≤ b.actions.length ∧ b.actions.length ≤ 16)
    "program action bundle must contain one to sixteen typed actions"
  ensure (kinds.Nodup ∧ (.acknowledgeOnly ∈ kinds → b.actions.length = 1))
    "program action kinds must be unique and acknowledge_only is exclusive"
  checkText b.rationale "program bundle rationale" 4096
  let raw ← b.toJsonBytes
  ensure (raw.length ≤ maxBundleBytes) "program action bundle exceeds its byte limit"

instance : PostInit String (ProgramActionBundle floats) := .ofCheck check

/-- `from_json` -/
def fromJson (d : DictValue floats) : Checked (Built (ProgramActionBundle floats)) := do
  ensure (hasKeys d (StrEnum.all : List ProgramBundleKey))
    "program action bundle keys are unsupported"
  let actions ← expect (at_ d ProgramBundleKey.actions).asDicts
    "program action bundle actions are malformed"
  let actions ← actions.mapM ProgramControllerAction.fromJson
  let decisionId ← expect (at_ d ProgramBundleKey.decisionId).asStr
    "controller decision id must start with decision/"
  let decisionId ← ControllerDecisionId.new decisionId
  let programId ← expect (at_ d ProgramBundleKey.programId).asStr "program id must be a string"
  let programId ← Identifier.new "program id" programId
  let planDigest ← expect (at_ d ProgramBundleKey.planDigest).asStr "program plan digest is invalid"
  let generation ← Generation.ofJson (at_ d ProgramBundleKey.generation)
  let eventKind ← expect ((at_ d ProgramBundleKey.eventKind).asStr.bind StrEnum.ofValue)
    "the text is not a valid member"
  let eventKey ← expect (at_ d ProgramBundleKey.eventKey).asStr
    "program event key must be a bounded non-empty string"
  let expectedProgramRevision ← expect (at_ d ProgramBundleKey.expectedProgramRevision).asInt
    "program revision is invalid"
  let expectedTrunkHead ← expect (at_ d ProgramBundleKey.expectedTrunkHead).asStr
    "program trunk HEAD is invalid"
  let rationale ← expect (at_ d ProgramBundleKey.rationale).asStr
    "program bundle rationale must be a bounded non-empty string"
  Built.new
    { schemaVersion := at_ d ProgramBundleKey.schemaVersion
      decisionId, programId, planDigest, generation, eventKind, eventKey, expectedProgramRevision
      expectedTrunkHead, actions, rationale }

/-- `from_json_bytes` -/
def fromJsonBytes (floats : Floats) (raw : List UInt8) :
    Checked (Built (ProgramActionBundle floats)) := do
  fromJson (← readObject floats maxBundleBytes raw "program action bundle root must be an object")

/-- A bundle is read back from what it is written as exactly where each of its actions is. -/
theorem fromJson_toJson (b : Built (ProgramActionBundle floats)) :
    fromJson b.val.toJson = .ok b ↔ ∀ action ∈ b.val.actions, action.val.IsPlain := by
  have hkeys : hasKeys (record b.val.field) StrEnum.all = true :=
    (hasKeys_record _ _).2 fun key => by cases key <;> exact ⟨fun _ => mem_all _, fun _ => rfl⟩
  have hactions : ∀ actions : List (Built ProgramControllerAction),
      (JsonValue.list (actions.map fun action =>
        (.dict action.val.toJson : JsonValue floats))).asDicts =
        some (actions.map fun action => action.val.toJson) := by
    intro actions
    rw [← JsonValue.asDicts_list, List.map_map]
    rfl
  have hgeneration : Generation.ofJson (.int b.val.generation.val : JsonValue floats) =
      .ok b.val.generation := Generation.new_val _
  have hback : (b.val.actions.map fun action => (action.val.toJson : DictValue floats)).mapM
      ProgramControllerAction.fromJson = .ok b.val.actions ↔ _ := mapM_map_eq_ok
  simp only [ProgramControllerAction.fromJson_toJson] at hback
  rw [← hback]
  unfold fromJson toJson
  simp only [at_record, field, Option.getD_some, hactions, expect_some, ok_bind, enumText,
    JsonValue.asStr_str, JsonValue.asInt_int, hgeneration, Option.bind_some, Identifier.new_val,
    StrEnum.ofValue_value, ControllerDecisionId.new_val, ensure_of hkeys, bind_eq_ok]
  constructor
  · rintro ⟨actions, hread, hnew⟩
    obtain ⟨-, hsame⟩ := PostInit.ofCheck_eq_ok.1 (Built.new_eq_ok.1 hnew)
    rw [hread, ← hsame]
  · exact fun h => ⟨_, h, Built.new_val b⟩

theorem plain_of_fromJson {d : DictValue floats} {b : Built (ProgramActionBundle floats)}
    (h : fromJson d = .ok b) : ∀ action ∈ b.val.actions, action.val.IsPlain := by
  unfold fromJson at h
  simp only [checks_ok] at h
  obtain ⟨-, _, -, actions, hactions, _, -, _, -, _, -, _, -, _, -, _, -, _, -, _, -, _, -, _, -,
    _, -, hnew⟩ := h
  obtain ⟨-, hsame⟩ := PostInit.ofCheck_eq_ok.1 (Built.new_eq_ok.1 hnew)
  rw [← hsame]
  intro action hmem
  obtain ⟨object, -, hread⟩ := mem_of_mapM_ok hactions action hmem
  exact ProgramControllerAction.plain_of_fromJson hread

end ProgramActionBundle

/-! ### Round trips -/

/-- `sha256`, by the digest of bytes. -/
def sha256 {α : Type} (write : α → Checked (List UInt8)) (digest : List UInt8 → PyStr) (b : α) :
    Checked PyStr := (write b).map digest

def ReadsBack {α : Type} [PostInit String α] (write : α → Checked (List UInt8))
    (read : List UInt8 → Checked (Built α)) (b : Built α) : Prop :=
  ∃ raw c, write b.val = .ok raw ∧ read raw = .ok c ∧ c = b ∧
    ∀ digest, sha256 write digest c.val = sha256 write digest b.val

/-- What is written within the limit of the reader is read back where the object is. -/
theorem readsBack_iff {α : Type} [PostInit String α] {toJson : α → DictValue floats}
    {fromJson : DictValue floats → Checked (Built α)} {error : String} {b : Built α}
    (hraw : ∃ raw, writeObject (toJson b.val) = .ok raw ∧ raw.length ≤ maxBundleBytes) :
    ReadsBack (fun a => writeObject (toJson a))
        (fun raw => do fromJson (← readObject floats maxBundleBytes raw error)) b ↔
      fromJson (toJson b.val) = .ok b := by
  obtain ⟨raw, hwrite, hlength⟩ := hraw
  have hread := readObject_writeObject hwrite hlength error
  unfold ReadsBack
  constructor
  · rintro ⟨raw', c, hwrite', hc, rfl, -⟩
    obtain rfl := Except.ok.inj (hwrite.symm.trans hwrite')
    dsimp only at hc
    rwa [hread] at hc
  · intro h
    refine ⟨raw, b, hwrite, ?_, rfl, fun _ => rfl⟩
    dsimp only
    rw [hread]
    exact h

def ControllerActionBundle.RoundTrips (b : Built (ControllerActionBundle floats)) : Prop :=
  ReadsBack toJsonBytes (fromJsonBytes floats) b

def ProgramActionBundle.RoundTrips (b : Built (ProgramActionBundle floats)) : Prop :=
  ReadsBack toJsonBytes (fromJsonBytes floats) b

theorem ControllerActionBundle.roundTrips_iff (b : Built (ControllerActionBundle floats)) :
    RoundTrips b ↔ ∀ action ∈ b.val.actions, action.val.IsPlain ∧ action.val.GrantsNothing := by
  obtain ⟨-, -, hraw⟩ := construct_eq_ok.1 b.built
  rw [← fromJson_toJson]
  exact readsBack_iff hraw

theorem ProgramActionBundle.roundTrips_iff (b : Built (ProgramActionBundle floats)) :
    RoundTrips b ↔ ∀ action ∈ b.val.actions, action.val.IsPlain := by
  obtain ⟨hcheck, -⟩ := PostInit.ofCheck_eq_ok.1 b.built
  simp only [check, checks_ok, checkText_eq_ok] at hcheck
  obtain ⟨-, -, -, -, -, -, -, -, hraw⟩ := hcheck
  rw [← fromJson_toJson]
  exact readsBack_iff hraw

/-- A bundle is read back from its bytes exactly where none of its actions carries a field beside
those of its kind or a grant for transient losses. What is accepted is such a bundle. -/
theorem bundles_roundTrip (floats : Floats) :
    (∀ b : Built (ControllerActionBundle floats), ControllerActionBundle.RoundTrips b ↔
      ∀ action ∈ b.val.actions, action.val.IsPlain ∧ action.val.GrantsNothing) ∧
    (∀ b : Built (ProgramActionBundle floats), ProgramActionBundle.RoundTrips b ↔
      ∀ action ∈ b.val.actions, action.val.IsPlain) ∧
    (∀ raw b, ControllerActionBundle.fromJsonBytes floats raw = .ok b →
      ControllerActionBundle.RoundTrips b) ∧
    ∀ raw b, ProgramActionBundle.fromJsonBytes floats raw = .ok b →
      ProgramActionBundle.RoundTrips b := by
  refine ⟨ControllerActionBundle.roundTrips_iff, ProgramActionBundle.roundTrips_iff, ?_, ?_⟩
  · intro raw b h
    obtain ⟨object, -, hread⟩ := bind_eq_ok.1 h
    exact (ControllerActionBundle.roundTrips_iff b).2 (ControllerActionBundle.plain_of_fromJson hread)
  · intro raw b h
    obtain ⟨object, -, hread⟩ := bind_eq_ok.1 h
    exact (ProgramActionBundle.roundTrips_iff b).2 (ProgramActionBundle.plain_of_fromJson hread)

/-! ### A bundle that is not read back -/

def sampleFields (action : Built ControllerAction) :
    ControllerActionBundle Capsule.Host.sample.floats where
  schemaVersion := .int 1
  decisionId := ⟨lit "decision/wake/1", by decide⟩
  generation := ⟨1, by decide⟩
  actionId := lit "bundle-1"
  expectedRevision := 0
  expectedSuccessorDispatchIds := []
  actions := [action]
  rationale := lit "the dispatch can go on"

def IsShort (action : Built ControllerAction) : Prop :=
  ∀ key value, action.val.field key = some (value : JsonValue Capsule.Host.sample.floats) →
    ((StrEnum.value key).any Hook.isSurrogate = false ∧ encodable value.val = true) ∧
      fieldBytes (StrEnum.value key, value.val) ≤ 60

theorem sampleFields_written {action : Built ControllerAction} (h : IsShort action) :
    ∃ raw, (sampleFields action).toJsonBytes = .ok raw ∧ raw.length ≤ maxBundleBytes := by
  have hsize := textBytes_record_le fun key value hvalue => (h key value hvalue).2
  have hencodable := encodable_record.2 fun key value hvalue => (h key value hvalue).1
  have hfields : ∀ key value, (sampleFields action).field key = some value →
      ((StrEnum.value key).any Hook.isSurrogate = false ∧ encodable value.val = true) ∧
        fieldBytes (StrEnum.value key, value.val) ≤ 500 := by
    intro key value hvalue
    cases key with
    | actions =>
      cases hvalue
      refine ⟨⟨by decide, (encodable_arr _).2 fun item hmem => ?_⟩, ?_⟩
      · exact List.mem_singleton.1 hmem ▸ hencodable
      · have hname : quotedBytes (lit "actions") = 9 := by decide
        have hlist : (StrEnum.all : List ControllerActionKey).length = 7 := rfl
        rw [hlist] at hsize
        show quotedBytes (lit "actions") + 1 + textBytes (.arr [.obj _]) ≤ 500
        rw [hname, textBytes_arr]
        show 9 + 1 + (2 + (textBytes (.obj (record action.val.field).val) + 0 + 0)) ≤ 500
        omega
    | _ =>
      cases hvalue
      dsimp only [sampleFields]
      decide
  have hlength := textBytes_record_le fun key value hvalue => (hfields key value hvalue).2
  obtain ⟨raw, hraw, hbytes⟩ := writeObject_of_encodable
    (encodable_record.2 fun key value hvalue => (hfields key value hvalue).1)
  exact ⟨raw, hraw, hbytes.trans_le (hlength.trans (by decide))⟩

def sampleBundle (action : Built ControllerAction) (short : IsShort action)
    (checked : (sampleFields action).check = .ok ()) :
    Built (ControllerActionBundle Capsule.Host.sample.floats) where
  val := sampleFields action
  built := by
    refine ControllerActionBundle.construct_eq_ok.2 ⟨checked, ?_, sampleFields_written short⟩
    rw [ControllerActionBundle.sort, sampleFields, sorted, List.mergeSort_nil]

def acknowledgement : Built ControllerAction where
  val := { kind := .acknowledgeOnly }
  built := PostInit.ofCheck_eq_ok.2 ⟨by decide, rfl⟩

theorem acknowledgement_short : IsShort acknowledgement := by
  intro key value h
  cases key with
  | kind =>
    cases h
    decide
  | _ => cases h

def acknowledgedBundle : Built (ControllerActionBundle Capsule.Host.sample.floats) :=
  sampleBundle acknowledgement acknowledgement_short (by decide)

theorem acknowledgedBundle_roundTrips :
    ControllerActionBundle.RoundTrips acknowledgedBundle ∧
      ∃ raw, ControllerActionBundle.fromJsonBytes _ raw = .ok acknowledgedBundle ∧
        ControllerActionBundle.RoundTrips acknowledgedBundle := by
  obtain ⟨hcontroller, -, hread, -⟩ := bundles_roundTrip Capsule.Host.sample.floats
  have hplain : acknowledgement.val.IsPlain ∧ acknowledgement.val.GrantsNothing := by
    refine ⟨fun key hcarries => ?_, nofun⟩
    cases key <;> first | exact List.mem_cons_self | cases hcarries
  have hback := (hcontroller acknowledgedBundle).2 fun action hmem =>
    List.mem_singleton.1 hmem ▸ hplain
  obtain ⟨raw, _, -, hraw, rfl, -⟩ := hback
  exact ⟨hread raw _ hraw, raw, hraw, hread raw _ hraw⟩

/-- A retry with a reason, which no reader of the kind takes. -/
def reasonedRetry : Built ControllerAction where
  val :=
    { kind := .retryDispatch
      dispatchId := some ⟨lit "run/build/executor/1", by decide +kernel⟩
      actionId := some (lit "retry-1")
      expectedRetryRevision := some 0
      reason := some (lit "the connection was lost") }
  built := PostInit.ofCheck_eq_ok.2 ⟨by decide, rfl⟩

theorem reasonedRetry_short : IsShort reasonedRetry := by
  intro key value h
  cases key <;> cases h <;> decide

def reasonedBundle : Built (ControllerActionBundle Capsule.Host.sample.floats) :=
  sampleBundle reasonedRetry reasonedRetry_short (by decide)

/-- It is constructed, and not read back. -/
theorem reasonedBundle_lost : ¬ ControllerActionBundle.RoundTrips reasonedBundle := by
  intro h
  obtain ⟨hplain, -⟩ := (ControllerActionBundle.roundTrips_iff reasonedBundle).1 h reasonedRetry
    List.mem_cons_self
  exact absurd (hplain .reason rfl) (by decide)

end CodexFlow.Contracts
