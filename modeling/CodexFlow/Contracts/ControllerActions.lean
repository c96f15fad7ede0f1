import CodexFlow.Contracts.Fields
import CodexFlow.Ledger.Types

/-!
# Controller actions on the wire

`ModelFacingControllerAction`: what its constructor admits of each kind, how it is written, and how
it is read back. The reader wants exactly the keys of the kind, while the constructor only asks for
those that the kind needs.
-/

namespace CodexFlow.Contracts

open Hook (PyStr lit)
open Capsule (Floats JsonValue DictValue StrEnum Checked expect expect_some expect_eq_ok enumText)
open Ledger (ControllerActionKind)
open Checked

variable {floats : Floats}

instance : StrEnum ControllerActionKind where
  all := [.acknowledgeOnly, .rearmCheckpoint, .retryDispatch, .cancelDispatch, .changeRetryBudget,
    .requireHumanAttention]
  value
    | .acknowledgeOnly => lit "acknowledge_only"
    | .rearmCheckpoint => lit "rearm_checkpoint"
    | .retryDispatch => lit "retry_dispatch"
    | .cancelDispatch => lit "cancel_dispatch"
    | .changeRetryBudget => lit "change_retry_budget"
    | .requireHumanAttention => lit "require_human_attention"
  find_value a := by cases a <;> decide

/-! ### Retry budgets -/

structure RetryBudgetChange where
  preIdentityBudget : ℤ
  invalidChainBudget : ℤ
  schemaEnvelopeBudget : ℤ
  postIdentityLossBudget : ℤ
  providerTransientBudget : Option ℤ := none
deriving DecidableEq

inductive RetryBudgetKey where
  | preIdentityBudget
  | invalidChainBudget
  | schemaEnvelopeBudget
  | postIdentityLossBudget
deriving DecidableEq

instance : RecordKeys RetryBudgetKey where
  all := [.preIdentityBudget, .invalidChainBudget, .schemaEnvelopeBudget, .postIdentityLossBudget]
  value
    | .preIdentityBudget => lit "pre_identity_budget"
    | .invalidChainBudget => lit "invalid_chain_budget"
    | .schemaEnvelopeBudget => lit "schema_envelope_budget"
    | .postIdentityLossBudget => lit "post_identity_loss_budget"
  find_value a := by cases a <;> decide
  nodup := by decide

namespace RetryBudgetChange

def checkCeiling (value maximum : ℤ) (name : String) : Checked Unit :=
  ensure (0 ≤ value ∧ value ≤ maximum) (name ++ " is outside its accepted ceiling")

/-- `__post_init__` -/
def check (c : RetryBudgetChange) : Checked Unit := do
  checkCeiling c.preIdentityBudget 5 "pre_identity_budget"
  checkCeiling c.invalidChainBudget 1 "invalid_chain_budget"
  checkCeiling c.schemaEnvelopeBudget 2 "schema_envelope_budget"
  checkCeiling c.postIdentityLossBudget 1 "post_identity_loss_budget"
  ensure (c.providerTransientBudget.all fun value => 0 ≤ value ∧ value ≤ 4)
    "provider_transient_budget is outside its accepted ceiling"

instance : PostInit String RetryBudgetChange := .ofCheck check

/-- The fields that `to_json` writes: the four of the model-facing contract. -/
def field (c : RetryBudgetChange) : RetryBudgetKey → Option (JsonValue floats)
  | .preIdentityBudget => some (.int c.preIdentityBudget)
  | .invalidChainBudget => some (.int c.invalidChainBudget)
  | .schemaEnvelopeBudget => some (.int c.schemaEnvelopeBudget)
  | .postIdentityLossBudget => some (.int c.postIdentityLossBudget)

/-- `to_json` -/
def toJson (c : RetryBudgetChange) : DictValue floats := record c.field

def ceiling (d : DictValue floats) (key : RetryBudgetKey) (name : String) : Checked ℤ :=
  expect (at_ d key).asInt (name ++ " is outside its accepted ceiling")

/-- `RetryBudgetChange(**budget)`, of an object with exactly the four keys. -/
def fromJson (d : DictValue floats) : Checked (Built RetryBudgetChange) := do
  ensure (hasKeys d (StrEnum.all : List RetryBudgetKey))
    "controller retry budget has an unsupported shape"
  let preIdentityBudget ← ceiling d .preIdentityBudget "pre_identity_budget"
  let invalidChainBudget ← ceiling d .invalidChainBudget "invalid_chain_budget"
  let schemaEnvelopeBudget ← ceiling d .schemaEnvelopeBudget "schema_envelope_budget"
  let postIdentityLossBudget ← ceiling d .postIdentityLossBudget "post_identity_loss_budget"
  Built.new { preIdentityBudget, invalidChainBudget, schemaEnvelopeBudget, postIdentityLossBudget }

/-- Of a budget that is read back the grant for transient losses is lost. -/
theorem fromJson_toJson (c : Built RetryBudgetChange) :
    fromJson (c.val.toJson : DictValue floats) =
      Built.new { c.val with providerTransientBudget := none } := by
  have hkeys : hasKeys (record c.val.field : DictValue floats) StrEnum.all = true :=
    (hasKeys_record _ _).2 fun key => by cases key <;> exact ⟨fun _ => mem_all _, fun _ => rfl⟩
  simp [fromJson, toJson, hkeys, ceiling, ensure_of, field, expect_some]

theorem grants_of_fromJson {d : DictValue floats} {c : Built RetryBudgetChange}
    (h : fromJson d = .ok c) : c.val.providerTransientBudget = none := by
  unfold fromJson at h
  simp only [checks_ok] at h
  obtain ⟨-, _, -, _, -, _, -, _, -, hnew⟩ := h
  obtain ⟨-, hval⟩ := PostInit.ofCheck_eq_ok.1 (Built.new_eq_ok.1 hnew)
  rw [← hval]

end RetryBudgetChange

/-! ### Actions -/

structure ControllerAction where
  kind : ControllerActionKind
  dispatchId : Option DispatchId := none
  actionId : Option PyStr := none
  expectedRetryRevision : Option ℤ := none
  requestedRetryBudget : Option (Built RetryBudgetChange) := none
  checkpointSeconds : Option ℤ := none
  reason : Option PyStr := none

inductive ControllerActionKey where
  | kind
  | dispatchId
  | actionId
  | expectedRetryRevision
  | requestedRetryBudget
  | checkpointSeconds
  | reason
deriving DecidableEq

instance : RecordKeys ControllerActionKey where
  all := [.kind, .dispatchId, .actionId, .expectedRetryRevision, .requestedRetryBudget,
    .checkpointSeconds, .reason]
  value
    | .kind => lit "kind"
    | .dispatchId => lit "dispatch_id"
    | .actionId => lit "action_id"
    | .expectedRetryRevision => lit "expected_retry_revision"
    | .requestedRetryBudget => lit "requested_retry_budget"
    | .checkpointSeconds => lit "checkpoint_seconds"
    | .reason => lit "reason"
  find_value a := by cases a <;> decide
  nodup := by decide

namespace ControllerAction

def recoveryKinds : List ControllerActionKind := [.retryDispatch, .cancelDispatch, .changeRetryBudget]

/-- `__post_init__` -/
def check (a : ControllerAction) : Checked Unit := do
  checkOptionalText a.actionId "controller action id" 256
  ensure (a.expectedRetryRevision.all (0 ≤ ·)) "controller retry revision is invalid"
  ensure (a.checkpointSeconds.all fun seconds => 1 ≤ seconds ∧ seconds ≤ 86400)
    "controller checkpoint duration is invalid"
  checkOptionalText a.reason "controller action reason" 512
  ensure (a.kind = .changeRetryBudget → a.requestedRetryBudget.isSome)
    "change_retry_budget requires requested_retry_budget"
  ensure (a.kind ≠ .changeRetryBudget → a.requestedRetryBudget.isNone)
    "requested_retry_budget is only valid for change_retry_budget"
  ensure (a.kind ∈ recoveryKinds →
      a.dispatchId.isSome ∧ a.actionId.isSome ∧ a.expectedRetryRevision.isSome)
    "dispatch recovery actions require action id, dispatch and retry revision"
  ensure (a.kind = .rearmCheckpoint → a.checkpointSeconds.isSome)
    "rearm_checkpoint requires checkpoint_seconds"
  ensure (a.kind = .requireHumanAttention → a.reason.isSome)
    "require_human_attention requires a reason"
  ensure (a.kind = .acknowledgeOnly → a.dispatchId.isNone ∧ a.actionId.isNone ∧
      a.expectedRetryRevision.isNone ∧ a.requestedRetryBudget.isNone ∧ a.checkpointSeconds.isNone)
    "acknowledge_only cannot carry action parameters"

instance : PostInit String ControllerAction := .ofCheck check

/-- The fields that `to_json` writes. -/
def field (a : ControllerAction) : ControllerActionKey → Option (JsonValue floats)
  | .kind => some (enumText a.kind)
  | .dispatchId => a.dispatchId.map fun id => .str id.val
  | .actionId => a.actionId.map .str
  | .expectedRetryRevision => a.expectedRetryRevision.map .int
  | .requestedRetryBudget => a.requestedRetryBudget.map fun budget => .dict budget.val.toJson
  | .checkpointSeconds => a.checkpointSeconds.map .int
  | .reason => a.reason.map .str

/-- `to_json` -/
def toJson (a : ControllerAction) : DictValue floats := record a.field

/-- `allowed` -/
def allowed : ControllerActionKind → List ControllerActionKey
  | .acknowledgeOnly => [.kind]
  | .rearmCheckpoint => [.kind, .checkpointSeconds]
  | .retryDispatch => [.kind, .dispatchId, .actionId, .expectedRetryRevision]
  | .cancelDispatch => [.kind, .dispatchId, .actionId, .expectedRetryRevision]
  | .changeRetryBudget =>
    [.kind, .dispatchId, .actionId, .expectedRetryRevision, .requestedRetryBudget]
  | .requireHumanAttention => [.kind, .reason]

/-- `from_json` -/
def fromJson (d : DictValue floats) : Checked (Built ControllerAction) := do
  let text ← expect (at_ d ControllerActionKey.kind).asStr "controller action kind must be a string"
  let kind ← expect (StrEnum.ofValue text) "controller action kind is unsupported"
  ensure (hasKeys d (allowed kind)) "controller action has an unsupported shape"
  let dispatch ← optional JsonValue.asStr (at_ d ControllerActionKey.dispatchId)
    "controller action dispatch id is invalid"
  let budget ← optional JsonValue.asDict (at_ d ControllerActionKey.requestedRetryBudget)
    "controller retry budget has an unsupported shape"
  let requestedRetryBudget ← budget.mapM RetryBudgetChange.fromJson
  let dispatchId ← dispatch.mapM DispatchId.new
  let actionId ← optional JsonValue.asStr (at_ d ControllerActionKey.actionId)
    "controller action id must be a bounded non-empty string"
  let expectedRetryRevision ← optional JsonValue.asInt
    (at_ d ControllerActionKey.expectedRetryRevision) "controller retry revision is invalid"
  let checkpointSeconds ← optional JsonValue.asInt (at_ d ControllerActionKey.checkpointSeconds)
    "controller checkpoint duration is invalid"
  let reason ← optional JsonValue.asStr (at_ d ControllerActionKey.reason)
    "controller action reason must be a bounded non-empty string"
  Built.new
    { kind, dispatchId, actionId, expectedRetryRevision, requestedRetryBudget, checkpointSeconds,
      reason }

/-! ### What is written is read back -/

def carries (a : ControllerAction) : ControllerActionKey → Bool
  | .kind => true
  | .dispatchId => a.dispatchId.isSome
  | .actionId => a.actionId.isSome
  | .expectedRetryRevision => a.expectedRetryRevision.isSome
  | .requestedRetryBudget => a.requestedRetryBudget.isSome
  | .checkpointSeconds => a.checkpointSeconds.isSome
  | .reason => a.reason.isSome

theorem field_isSome (a : ControllerAction) (key : ControllerActionKey) :
    (a.field key : Option (JsonValue floats)).isSome = a.carries key := by
  cases key <;> simp [field, carries]

/-- The action carries no field beside those of its kind. -/
def IsPlain (a : ControllerAction) : Prop := ∀ key, a.carries key = true → key ∈ allowed a.kind

/-- The budget that the action asks for, if any, grants no transient loss. -/
def GrantsNothing (a : ControllerAction) : Prop :=
  ∀ budget ∈ a.requestedRetryBudget, budget.val.providerTransientBudget = none

/-- The constructor asks for every field of the kind. -/
theorem carries_of_check {a : ControllerAction} (h : a.check = .ok ()) {key : ControllerActionKey}
    (hkey : key ∈ allowed a.kind) : a.carries key = true := by
  simp only [check, checks_ok, checkOptionalText_eq_ok] at h
  obtain ⟨-, -, -, -, hbudget, -, hrecovery, hcheckpoint, hreason, -⟩ := h
  cases hkind : a.kind <;> rw [hkind] at hkey <;> cases key <;>
    simp_all [carries, allowed, recoveryKinds]

/-- The budgets are read back where nothing is granted that is not written. -/
theorem mapM_budget (a : ControllerAction) :
    (a.requestedRetryBudget.map fun budget => (budget.val.toJson : DictValue floats)).mapM
      RetryBudgetChange.fromJson = .ok a.requestedRetryBudget ↔ a.GrantsNothing := by
  unfold GrantsNothing
  cases a.requestedRetryBudget with
  | none => exact ⟨fun _ => nofun, fun _ => rfl⟩
  | some budget =>
    show (RetryBudgetChange.fromJson (budget.val.toJson : DictValue floats)).map some = _ ↔ _
    rw [RetryBudgetChange.fromJson_toJson, map_eq_ok]
    constructor
    · rintro ⟨read, hread, hsame⟩ other hother
      cases hsame
      cases hother
      obtain ⟨-, hval⟩ := PostInit.ofCheck_eq_ok.1 (Built.new_eq_ok.1 hread)
      rw [← hval]
    · intro h
      refine ⟨budget, ?_, rfl⟩
      have hval : { budget.val with providerTransientBudget := none } = budget.val := by
        rw [← h budget rfl]
      rw [hval, Built.new_val]

/-- An action is read back from what it is written as exactly where it has only the fields of its
kind, and no grant that is not written. -/
theorem fromJson_toJson (a : Built ControllerAction) :
    fromJson (a.val.toJson : DictValue floats) = .ok a ↔ a.val.IsPlain ∧ a.val.GrantsNothing := by
  obtain ⟨hcheck, -⟩ := PostInit.ofCheck_eq_ok.1 a.built
  have hkeys : hasKeys (record a.val.field : DictValue floats) (allowed a.val.kind) = true ↔
      a.val.IsPlain := by
    rw [hasKeys_record]
    simp only [field_isSome]
    exact ⟨fun h key => (h key).1, fun h key => ⟨h key, carries_of_check hcheck⟩⟩
  have hdispatch : optional JsonValue.asStr
      ((a.val.dispatchId.map fun id => (.str id.val : JsonValue floats)).getD .null)
      "controller action dispatch id is invalid" = .ok (a.val.dispatchId.map (·.val)) :=
    optional_map JsonValue.asStr (fun id : DispatchId => .str id.val) (·.val) (fun _ => ⟨rfl, rfl⟩) _ _
  have hbudget : optional JsonValue.asDict ((a.val.requestedRetryBudget.map fun budget =>
        (.dict budget.val.toJson : JsonValue floats)).getD .null)
      "controller retry budget has an unsupported shape" =
        .ok (a.val.requestedRetryBudget.map fun budget => budget.val.toJson) :=
    optional_map JsonValue.asDict (fun budget : Built RetryBudgetChange => .dict budget.val.toJson)
      (fun budget => budget.val.toJson) (fun _ => ⟨rfl, rfl⟩) _ _
  have hbudgets : _ ↔ a.val.GrantsNothing := @mapM_budget floats a.val
  rw [← hkeys, ← hbudgets]
  unfold fromJson toJson
  simp only [at_record, field, Option.getD_some, enumText, JsonValue.asStr_str, expect_some,
    ok_bind, StrEnum.ofValue_value, hdispatch, hbudget, optional_str, optional_int,
    mapM_map_self DispatchId.new_val, checks_ok]
  refine and_congr_right fun _ => ⟨?_, fun h => ⟨_, h, Built.new_val a⟩⟩
  rintro ⟨read, hread, hnew⟩
  obtain ⟨-, hval⟩ := PostInit.ofCheck_eq_ok.1 (Built.new_eq_ok.1 hnew)
  rw [hread, ← hval]

/-- An action that is read has only the fields of its kind, and no grant. -/
theorem plain_of_fromJson {d : DictValue floats} {a : Built ControllerAction}
    (h : fromJson d = .ok a) : a.val.IsPlain ∧ a.val.GrantsNothing := by
  unfold fromJson at h
  simp only [checks_ok] at h
  obtain ⟨text, -, kind, -, hkeys, dispatch, hdispatch, budget, hbudget, budgets, hbudgets,
    dispatchId, hdispatchId, actionId, hactionId, revision, hrevision, checkpoint, hcheckpoint,
    reason, hreason, hnew⟩ := h
  obtain ⟨-, hval⟩ := PostInit.ofCheck_eq_ok.1 (Built.new_eq_ok.1 hnew)
  rw [← hval]
  constructor
  · intro key hcarries
    cases key with
    | kind => cases kind <;> exact List.mem_cons_self
    | dispatchId => exact mem_of_optional hkeys hdispatch (isSome_of_mapM hdispatchId hcarries)
    | actionId => exact mem_of_optional hkeys hactionId hcarries
    | expectedRetryRevision => exact mem_of_optional hkeys hrevision hcarries
    | requestedRetryBudget =>
      exact mem_of_optional hkeys hbudget (isSome_of_mapM hbudgets hcarries)
    | checkpointSeconds => exact mem_of_optional hkeys hcheckpoint hcarries
    | reason => exact mem_of_optional hkeys hreason hcarries
  · intro granted hgranted
    cases budget with
    | none =>
      cases hbudgets
      cases hgranted
    | some object =>
      obtain ⟨read, hread, rfl⟩ := map_eq_ok.1 hbudgets
      cases hgranted
      exact RetryBudgetChange.grants_of_fromJson hread

end ControllerAction

end CodexFlow.Contracts
