import CodexFlow.Ledger.Submit

/-!
# Enqueueing, successors and the harness

The operations that create a dispatch, gate it behind another one, record its notification, and
hold the harness authority.
-/

namespace CodexFlow.Ledger

open Checked

/-! ### Enqueueing -/

structure DispatchRequest where
  runId : String
  milestoneId : String
  role : String
  generation : ℕ
  backend : Backend := .sdkHeadless
  workspacePath : String
  resultContractSha256 : String
  inProgram : Bool := false
  availableAt : Option Time := none
  deadline : Option Time := none
  sourceThreadId : Option String := none
  nativeProfileSha256 : Option String := none
  nativeCompatibilitySha256 : Option String := none
  checkpointDuration : ℕ := seconds 1800
  providerEnvKey : Option String := none
  profileSha256 : Option String := none
  inspectionBudget : ℕ := 4
  continuationBudget : ℕ := 1
  freshThreadAfterIdle : Bool := false
  freshThreadBudget : ℕ := 0

def initialPolicy (now : Time) : RetryPolicy where
  revision := 0
  preIdentity := .unused 5
  invalidChain := .unused 1
  schemaEnvelope := .unused 2
  postIdentityLoss := .unused 1
  providerTransient := .unused 3
  providerTransientGrantUsed := 0
  lastFailure := none
  strategy := .none
  nextEligibleAt := none
  priorThreadId := none
  priorTurnId := none
  humanAttentionReason := none
  updatedAt := now

namespace DispatchRequest

variable (q : DispatchRequest) (sequence : ℕ) (now : Time)

def recovery : RecoveryState where
  providerEnvKey := q.providerEnvKey
  profileSha256 := q.profileSha256.or q.nativeProfileSha256
  workerExitClassification := none
  exitCode := none
  recoveryState := .none
  inspection := .unused q.inspectionBudget
  continuation := .unused q.continuationBudget
  freshThreadAfterIdle := q.freshThreadAfterIdle
  freshThread := .unused q.freshThreadBudget
  nextEligibleAt := none
  inspectedThreadId := none
  inspectedTurnId := none
  inspectedKind := none
  humanAttentionReason := none
  exitedAt := none
  updatedAt := now

def queue : DispatchQueue where
  runId := q.runId
  milestoneId := q.milestoneId
  role := q.role
  generation := q.generation
  backend := q.backend
  workspacePath := q.workspacePath
  resultContractSha256 := q.resultContractSha256
  inProgram := q.inProgram
  state := .queued
  sequence := sequence
  availableAt := now
  claim := none
  attempt := 1
  threadId := none
  raw := none
  terminalStatus := none
  createdAt := now
  updatedAt := now

def binding : QueueBinding where
  sourceThreadId := q.sourceThreadId
  nativeProfileSha256 := q.nativeProfileSha256
  nativeCompatibilitySha256 := q.nativeCompatibilitySha256
  checkpointDeadline := some (q.deadline.getD (now + q.checkpointDuration))
  updatedAt := now

def rows : DispatchRows where
  queue := q.queue sequence now
  binding := q.binding now
  recovery := q.recovery now
  policy := initialPolicy now

/-- A dispatch that exists was enqueued with the same facts. -/
def matchesRows (r : DispatchRows) : Bool :=
  r.queue.runId = q.runId && r.queue.milestoneId = q.milestoneId && r.queue.role = q.role &&
    r.queue.generation = q.generation && r.queue.backend = q.backend &&
    r.queue.workspacePath = q.workspacePath &&
    r.queue.resultContractSha256 = q.resultContractSha256 &&
    r.binding.sourceThreadId = q.sourceThreadId &&
    r.binding.nativeProfileSha256 = q.nativeProfileSha256 &&
    r.binding.nativeCompatibilitySha256 = q.nativeCompatibilitySha256 &&
    r.recovery.providerEnvKey = q.providerEnvKey &&
    r.recovery.profileSha256 = q.profileSha256.or q.nativeProfileSha256 &&
    r.recovery.inspection.budget = q.inspectionBudget &&
    r.recovery.continuation.budget = q.continuationBudget &&
    r.recovery.freshThreadAfterIdle = q.freshThreadAfterIdle &&
    r.recovery.freshThread.budget = q.freshThreadBudget

end DispatchRequest

/-- `COALESCE(MAX(sequence), 0) + 1` -/
def nextSequence (L : Ledger) : ℕ :=
  (L.dispatches.entries.map (·.2.queue.sequence)).foldr max 0 + 1

def enqueueDispatch (env : Env) (L : Ledger) (dispatchId : DispatchId) (q : DispatchRequest)
    (utcNow : Time) : Checked Ledger := do
  ensure (isSha256 q.resultContractSha256) (.valueError "queue result contract digest is invalid")
  ensure (q.resultContractSha256 ≠ env.legacyResultContract)
    (.valueError "queue result contract digest is retired")
  ensure (0 < q.checkpointDuration) (.valueError "controller checkpoint duration must be positive")
  ensure (q.sourceThreadId.all fun text =>
      text ≠ "" && text.length ≤ 512 && !text.toList.contains '\x00')
    (.valueError "source controller thread identity is invalid")
  ensure (q.providerEnvKey.all isEnvironmentKey)
    (.valueError "provider environment key name is invalid")
  ensure (q.profileSha256.all isSha256 ∧ q.nativeProfileSha256.all isSha256 ∧
      q.nativeCompatibilitySha256.all isSha256)
    (.valueError "queue profile digest must be a lowercase SHA-256 digest")
  ensure (q.inspectionBudget ≤ 16 ∧ q.continuationBudget ≤ 8 ∧ q.freshThreadBudget ≤ 4 ∧
      (q.freshThreadAfterIdle ∨ q.freshThreadBudget = 0))
    (.valueError "recovery policy budgets are invalid")
  match L.dispatches.get? dispatchId with
  | some r => do
    ensure (q.matchesRows r)
      (.dispatchConflict "queue dispatch already exists with different immutable facts")
    pure L
  | none => do
    ensure (!L.harness.any (·.requestedShutdown))
      (.harnessRefreshBlocked "harness refresh fence is active")
    pure { L with
      dispatches :=
        L.dispatches.insert dispatchId (q.rows L.nextSequence (q.availableAt.getD utcNow)) }

/-! ### Successors -/

def authorizeSuccessor (L : Ledger) (source successor : DispatchId) (now : Time) :
    Checked Ledger := do
  ensure (source ≠ "" ∧ successor ≠ "" ∧ source ≠ successor)
    (.valueError "successor identity is invalid")
  let missing :=
    LedgerError.recordNotFound "successor authorization references an unknown queue dispatch"
  match L.dispatches.get? successor with
  | none => .error missing
  | some successorRow =>
    L.onDispatch source missing fun r => do
      ensure (r.queue.state ∉ [.resultSubmitted, .finalizing, .completed, .failed, .cancelled])
        (.staleWriter "successor authorization must precede source execution")
      ensure (successorRow.queue.state = .queued)
        (.staleWriter "successor authorization requires a queued dispatch")
      pure (if r.successors.any (·.successorDispatchId = successor) then r
        else { r with successors := r.successors ++ [⟨successor, now, none⟩] })

/-! ### Notifications -/

def recordNotificationAttempt (L : Ledger) (dispatchId : DispatchId) (sourceTask : Option String)
    (outcome : NotificationOutcome) (now : Time) : Checked Ledger :=
  let refused := LedgerError.staleWriter "terminal notification requires a terminal dispatch"
  L.onDispatch dispatchId refused fun r => do
    ensure r.queue.state.isTerminal refused
    match r.notificationOutbox with
    | none => .error (.corruptSchema "terminal queue row lacks successor/notification outbox facts")
    | some n =>
      if n.outcome = .unavailable && outcome ∈ [.attemptedOk, .attemptedFailed] &&
          n.attemptedAt.isNone then do
        ensure (n.sourceTask.isNone ∨ n.sourceTask = sourceTask)
          (.staleWriter "terminal notification source task is conflicting")
        pure { r with
          notificationOutbox := some { n with
            sourceTask := sourceTask, outcome := outcome, attemptedAt := some now } }
      else do
        ensure (n.sourceTask.getD "" = sourceTask.getD "" ∧ n.outcome = outcome)
          (.staleWriter "terminal notification is already recorded")
        pure r

/-! ### The harness -/

/-- A new epoch, unless another harness holds an unexpired and unfenced lease. -/
def acquireHarness (L : Ledger) (ownerNonceSha256 : String) (lease : ℕ) (now : Time) :
    Checked Ledger := do
  ensure (0 < lease) (.valueError "harness lease facts are invalid")
  ensure (isSha256 ownerNonceSha256) (.valueError "harness digest is invalid")
  ensure (L.harness.all fun h =>
      h.requestedShutdown || h.expiresAt ≤ now || h.ownerNonceSha256 = ownerNonceSha256)
    (.staleWriter "another live harness owns the repository")
  pure { L with
    harness := some ⟨(L.harness.map (·.epoch)).getD 0 + 1, ownerNonceSha256, now + lease, false⟩ }

def withHarness (L : Ledger) (epoch : ℕ) (ownerNonceSha256 : String)
    (f : HarnessAuthority → HarnessAuthority) : Checked Ledger := do
  ensure (L.harness.any fun h => h.epoch = epoch && h.ownerNonceSha256 = ownerNonceSha256)
    (.staleWriter "harness lease is stale")
  pure { L with harness := L.harness.map f }

def renewHarness (L : Ledger) (epoch : ℕ) (ownerNonceSha256 : String) (lease : ℕ) (now : Time) :
    Checked Ledger := do
  ensure (0 < epoch ∧ isSha256 ownerNonceSha256) (.valueError "harness renewal facts are invalid")
  L.withHarness epoch ownerNonceSha256 fun h => { h with expiresAt := now + lease }

def requestHarnessShutdown (L : Ledger) (epoch : ℕ) (ownerNonceSha256 : String) : Checked Ledger :=
  L.withHarness epoch ownerNonceSha256 fun h => { h with requestedShutdown := true }

def ControllerDecision.claimLive (now : Time) (d : ControllerDecision) : Bool :=
  d.state ∉ [.acknowledged, .superseded, .legacyClosed] && d.claimLeaseExpiresAt.any (now < ·)

/-- `_raise_if_active_harness_children_in_transaction` -/
def raiseIfActiveChildren (L : Ledger) (now : Time) : Checked Unit := do
  ensure (!L.decisions.any fun entry => entry.2.claimLive now)
    (.harnessRefreshBlocked "harness refresh deferred while a controller claim is active")
  ensure (!L.dispatches.entries.any fun entry =>
      entry.2.queue.state ∈ [.claimed, .starting, .running])
    (.harnessRefreshBlocked "harness refresh deferred while a worker launch is active")
  ensure (!L.dispatches.entries.any fun entry => entry.2.liveness.any (·.exitedAt.isNone))
    (.harnessRefreshBlocked "harness refresh deferred while a worker child is active")
  ensure (!L.allGenerations.any fun g => g.state ∈ [.deliveryStarting, .active])
    (.harnessRefreshBlocked "harness refresh deferred while a controller child is active")

/-- `arm_harness_refresh_fence`; `starts` is what the recorded refresh intents make of the call.
Without an authority there is nothing to fence. -/
def armHarnessRefreshFence (L : Ledger) (starts : Checked Unit) (now : Time) : Checked Ledger := do
  starts
  L.raiseIfActiveChildren now
  pure { L with harness := L.harness.map fun h => { h with requestedShutdown := true } }

end CodexFlow.Ledger
