import CodexFlow.Ledger.Exit

/-!
# Recovery

The read-only inspections of an exited worker, the continuations they lead to, and the reasoned
actions of an operator.
-/

namespace CodexFlow.Ledger

open Checked

/-- All three tables call for a human. -/
def DispatchRows.requireAttention (r : DispatchRows) (reason : String) (now : Time) : DispatchRows :=
  { r with
    recovery := r.recovery.requireAttention reason now
    policy := r.policy.requireAttention reason now
    queue := r.queue.moveTo .humanAttentionRequired now }

/-! ### Configuration -/

structure RecoveryConfiguration where
  providerEnvKey : String
  profileSha256 : String
  inspectionBudget : ℕ := 4
  continuationBudget : ℕ := 1
  freshThreadAfterIdle : Bool := false
  freshThreadBudget : ℕ := 0

def configureRecovery (L : Ledger) (dispatchId : DispatchId) (config : RecoveryConfiguration)
    (now : Time) : Checked Ledger := do
  ensure (isEnvironmentKey config.providerEnvKey)
    (.valueError "provider environment key name is invalid")
  ensure (isSha256 config.profileSha256)
    (.valueError "provider profile digest must be a lowercase SHA-256 digest")
  ensure (config.inspectionBudget ≤ 16 ∧ config.continuationBudget ≤ 8 ∧
      config.freshThreadBudget ≤ 4 ∧ (config.freshThreadAfterIdle ∨ config.freshThreadBudget = 0))
    (.valueError "recovery policy budgets are invalid")
  L.onDispatch dispatchId (recoveryMissing dispatchId) fun r => do
    ensure (r.recovery.providerEnvKey.all (· = config.providerEnvKey) ∧
        (r.recovery.providerEnvKey.isSome → r.recovery.profileSha256 = some config.profileSha256))
      (.staleWriter "recovery profile identity is immutable")
    if h : r.recovery.inspection.used ≤ config.inspectionBudget ∧
        r.recovery.continuation.used ≤ config.continuationBudget then
      if hf : r.recovery.freshThread.used ≤ config.freshThreadBudget then
        pure { r with recovery := { r.recovery with
          providerEnvKey := some config.providerEnvKey
          profileSha256 := some config.profileSha256
          inspection := r.recovery.inspection.withBudget config.inspectionBudget h.1
          continuation := r.recovery.continuation.withBudget config.continuationBudget h.2
          freshThreadAfterIdle := config.freshThreadAfterIdle
          freshThread := r.recovery.freshThread.withBudget config.freshThreadBudget hf
          updatedAt := now } }
      else .error (.staleWriter "recovery policy would reset fresh-thread budget")
    else .error (.staleWriter "recovery policy would reset consumed budget")

/-! ### Inspections -/

/-- The decision that an inspection implies when its caller names none. -/
def InspectionKind.nextState : InspectionKind → RecoveryKind
  | .activeWriter => .retryWait
  | .idleNoResult => .continuationPending
  | .transientFailedTurn => .continuationPending
  | .invalidChainEmptyHistory => .continuationPending
  | .invalidChainFailedTurn => .continuationPending
  | .ambiguous => .humanAttentionRequired
  | .malformed => .humanAttentionRequired
  | .terminalResult => .none

structure Inspection where
  kind : InspectionKind
  threadId : Option String := none
  turnId : Option String := none
  nextState : Option RecoveryKind := none
  nextEligibleAt : Option Time := none
  attentionReason : Option String := none

namespace Inspection

variable (inspection : Inspection)

def decided : RecoveryKind := inspection.nextState.getD inspection.kind.nextState

/-- The reason a human is given, already redacted. -/
def reason (env : Env) : String :=
  ((inspection.attentionReason.map env.redactControlText).filter (· ≠ "")).getD
    s!"recovery inspection: {inspection.kind.value}"

end Inspection

/-- The inspection is counted, and an exhausted budget leaves the decision to a human. -/
def DispatchRows.recordInspection (env : Env) (inspection : Inspection) (now : Time)
    (r : DispatchRows) : DispatchRows :=
  let exhausted := r.recovery.inspection.budget ≤ r.recovery.inspection.used
  let next := if exhausted then .humanAttentionRequired else inspection.decided
  let attention := next = .humanAttentionRequired
  let reason := inspection.reason env
  { r with
    recovery := { r.recovery with
      recoveryState := next
      inspection := r.recovery.inspection.spendCapped
      nextEligibleAt := if exhausted then none else inspection.nextEligibleAt
      inspectedThreadId := inspection.threadId
      inspectedTurnId := inspection.turnId
      inspectedKind := some inspection.kind
      humanAttentionReason := if attention then some reason else none
      updatedAt := now }
    policy := if attention then r.policy.requireAttention reason now else r.policy.revise now
    queue :=
      if r.queue.state ∈ [.recoveryInspectionPending, .recoveryRetryWait,
          .recoveryContinuationPending] then
        r.queue.moveTo (next.queueState.getD r.queue.state) now
      else r.queue
    binding := if attention then r.binding.disarm now else r.binding }

def recordRecoveryInspection (env : Env) (L : Ledger) (dispatchId : DispatchId)
    (inspection : Inspection) (now : Time) : Checked Ledger := do
  ensure (inspection.kind ≠ .terminalResult)
    (.valueError "terminal result inspection requires ingest_recovered_result")
  ensure (inspection.decided ∈ [.retryWait, .continuationPending, .humanAttentionRequired])
    (.valueError "recovery decision state is unsupported")
  ensure (inspection.decided = .humanAttentionRequired ∨ inspection.nextEligibleAt.isSome)
    (.valueError "bounded recovery state requires eligibility")
  ensure (inspection.attentionReason.all fun text => !env.isBlank text && text.length ≤ 512)
    (.valueError "human-attention reason is invalid")
  L.onDispatch dispatchId (recoveryMissing dispatchId) fun r =>
    if r.recovery.recoveryState ∈ [.humanAttentionRequired, .completed, .failed] then pure r
    else do
      ensure (r.recovery.recoveryState ∈ [.inspectionPending, .retryWait, .continuationPending])
        (.staleWriter "recovery inspection is not pending")
      pure (r.recordInspection env inspection now)

/-- A retry inspection that is due becomes pending again. -/
def beginRecoveryInspection (L : Ledger) (dispatchId : DispatchId) (epoch : ℕ)
    (current now : Time) : Checked Ledger := do
  L.requireLiveHarness epoch now
  L.onDispatch dispatchId (recoveryMissing dispatchId) fun r => do
    ensure (r.recovery.recoveryState = .retryWait)
      (.staleWriter "recovery inspection is not pending")
    ensure (r.queue.state = .recoveryRetryWait)
      (.staleWriter "queue state is not pending recovery inspection")
    ensure (r.liveness.all (·.exitedAt.isSome))
      (.staleWriter "recovery inspection requires an exited worker")
    ensure (r.recovery.nextEligibleAt.all (· ≤ current))
      (.staleWriter "recovery inspection is not yet eligible")
    pure { r with
      recovery := { r.recovery with
        recoveryState := .inspectionPending, nextEligibleAt := none, updatedAt := current }
      policy := r.policy.revise current
      queue := r.queue.moveTo .recoveryInspectionPending current }

def markHumanAttentionRequired (env : Env) (L : Ledger) (dispatchId : DispatchId) (reason : String)
    (failure : Option RetryFailureClass) (now : Time) : Checked Ledger := do
  ensure (env.isReason reason) (.valueError "human-attention reason is invalid")
  let redacted := env.redactControlText reason
  match L.dispatches.get? dispatchId with
  | none => .error (recoveryMissing dispatchId)
  | some r =>
    if r.recovery.recoveryState ∈ [.humanAttentionRequired, .completed, .failed] then pure L
    else if r.recovery.recoveryState = .none then do
      ensure (r.queue.state ∈ [.queued, .claimed, .starting, .running])
        (.staleWriter "human-attention recovery is not pending")
      pure { L with
        dispatches := L.dispatches.set dispatchId
          { r.requireAttention redacted now with
            recovery := { r.recovery.requireAttention redacted now with
              inspectedThreadId := none, inspectedTurnId := none, inspectedKind := none }
            policy := { r.policy.requireAttention redacted now with
              lastFailure := failure, priorThreadId := none, priorTurnId := none }
            binding := r.binding.disarm now } }
    else
      L.recordRecoveryInspection env dispatchId
        { kind := .ambiguous, nextState := some .humanAttentionRequired,
          attentionReason := some redacted } now

/-! ### Continuations -/

def RecoveryState.continued (s : RecoveryState) (continuation freshThread : Budget) (now : Time) :
    RecoveryState :=
  { s.reset now with continuation := continuation, freshThread := freshThread }

/-- A new worker attempt takes over, on the old thread unless `fresh`. -/
def DispatchRows.resume (r : DispatchRows) (claim : Claim) (continuation freshThread : Budget)
    (fresh : Bool) (now : Time) : DispatchRows :=
  { r with
    capability := none
    liveness := none
    recovery := r.recovery.continued continuation freshThread now
    policy := { r.policy.settle none now with
      lastFailure := none, priorThreadId := none, priorTurnId := none }
    queue := { r.queue with
      state := .claimed, claim := some claim, attempt := r.queue.attempt + 1
      threadId := if fresh then none else r.queue.threadId
      updatedAt := now } }

/-- The continuation that the budgets allow, or the attention that they leave. -/
def DispatchRows.continueOrClose (r : DispatchRows) (claim : Claim) (now : Time) : DispatchRows :=
  if hc : r.recovery.continuation.used < r.recovery.continuation.budget then
    if r.recovery.freshThreadAfterIdle then
      if hf : r.recovery.freshThread.used < r.recovery.freshThread.budget then
        r.resume claim (r.recovery.continuation.spend hc) (r.recovery.freshThread.spend hf) true now
      else r.requireAttention "fresh-thread budget exhausted" now
    else r.resume claim (r.recovery.continuation.spend hc) r.recovery.freshThread false now
  else r.requireAttention "continuation budget exhausted" now

def beginRecoveryContinuation (L : Ledger) (dispatchId : DispatchId) (epoch : ℕ)
    (claimNonceSha256 : String) (program : DispatchId → Bool) (current now : Time) :
    Checked Ledger := do
  ensure (isSha256 claimNonceSha256)
    (.valueError "recovery continuation claim nonce is invalid")
  L.requireLiveHarness epoch now
  L.onDispatch dispatchId (recoveryMissing dispatchId) fun r => do
    ensure (program dispatchId) .programCapability
    ensure (r.recovery.recoveryState = .continuationPending)
      (.staleWriter "recovery continuation is not pending")
    ensure (r.queue.state = .recoveryContinuationPending)
      (.staleWriter "queue state is not pending recovery continuation")
    ensure (r.liveness.all (·.exitedAt.isSome))
      (.staleWriter "recovery continuation requires an exited worker")
    ensure (r.recovery.nextEligibleAt.all (· ≤ current))
      (.staleWriter "recovery continuation is not yet eligible")
    pure (r.continueOrClose ⟨epoch, claimNonceSha256⟩ current)

end CodexFlow.Ledger
