import CodexFlow.Ledger.Validate
import Mathlib

/-!
# The queue

Claiming, moving, cancelling and requeueing a dispatch. A function on `DispatchRows` is the part of
an operation that reads and writes one dispatch; `now` is the clock reading of the call.
-/

namespace CodexFlow.Ledger

open Checked

/-! ### Updates that several operations share -/

/-- The columns every requeue sets: a fresh attempt without claim and thread. -/
def DispatchQueue.requeue (q : DispatchQueue) (threadId : Option String) (availableAt now : Time) :
    DispatchQueue :=
  { q with
    state := .queued, claim := none, attempt := q.attempt + 1, threadId := threadId,
    availableAt := availableAt, updatedAt := now }

def DispatchQueue.moveTo (q : DispatchQueue) (state : QueueState) (now : Time) : DispatchQueue :=
  { q with state := state, updatedAt := now }

/-- Recovery is idle again and forgets what was inspected. -/
def RecoveryState.reset (s : RecoveryState) (now : Time) : RecoveryState :=
  { s with
    recoveryState := .none, nextEligibleAt := none, inspectedThreadId := none,
    inspectedTurnId := none, inspectedKind := none, humanAttentionReason := none, updatedAt := now }

def RecoveryState.requireAttention (s : RecoveryState) (reason : String) (now : Time) :
    RecoveryState :=
  { s with
    recoveryState := .humanAttentionRequired, nextEligibleAt := none,
    humanAttentionReason := some reason, updatedAt := now }

/-- A new policy revision without pending strategy. -/
def RetryPolicy.settle (p : RetryPolicy) (nextEligibleAt : Option Time) (now : Time) : RetryPolicy :=
  { p with
    revision := p.revision + 1, strategy := .none, nextEligibleAt := nextEligibleAt,
    humanAttentionReason := none, updatedAt := now }

def RetryPolicy.requireAttention (p : RetryPolicy) (reason : String) (now : Time) : RetryPolicy :=
  { p with
    revision := p.revision + 1, strategy := .humanAttention, nextEligibleAt := none,
    humanAttentionReason := some reason, updatedAt := now }

def RetryPolicy.revise (p : RetryPolicy) (now : Time) : RetryPolicy :=
  { p with revision := p.revision + 1, updatedAt := now }

/-- `checkpoint_deadline = NULL, checkpoint_armed = 0` where the checkpoint is armed. -/
def QueueBinding.disarm (b : QueueBinding) (now : Time) : QueueBinding :=
  if b.checkpointDeadline.isSome then { b with checkpointDeadline := none, updatedAt := now } else b

/-- A checkpoint decision that is still open is superseded; one that carries an action is kept when
`keepActions` is set. -/
def ControllerDecision.supersede (keepActions : Bool) (now : Time) (decision : ControllerDecision) :
    ControllerDecision :=
  if decision.kind = .checkpoint && !(keepActions && decision.actionId.isSome) &&
      decision.state ∉ [.actionCommitted, .acknowledged, .superseded, .legacyClosed] then
    { decision with
      state := .superseded, supersededAt := some now, claimLeaseExpiresAt := none,
      humanAttentionReason := none, updatedAt := now }
  else decision

/-! ### Authority -/

/-- The harness holds an unexpired lease at `epoch`. -/
def harnessLive (L : Ledger) (epoch : ℕ) (now : Time) : Bool :=
  L.harness.any fun h => h.epoch = epoch && now < h.expiresAt

def requireLiveHarness (L : Ledger) (epoch : ℕ) (now : Time) : Checked Unit :=
  ensure (L.harnessLive epoch now) (.staleWriter "operation requires a live harness lease")

/-- Reads the rows of a dispatch, which must exist, and writes what `body` makes of them. -/
def onDispatch (L : Ledger) (dispatchId : DispatchId) (missing : LedgerError)
    (body : DispatchRows → Checked DispatchRows) : Checked Ledger :=
  match L.dispatches.get? dispatchId with
  | none => .error missing
  | some r => do
    let r' ← body r
    pure { L with dispatches := L.dispatches.set dispatchId r' }

def queueMissing (dispatchId : DispatchId) : LedgerError :=
  .recordNotFound s!"queue dispatch does not exist: {dispatchId}"

def recoveryMissing (dispatchId : DispatchId) : LedgerError :=
  .recordNotFound s!"recovery state does not exist: {dispatchId}"

/-! ### Cancellation -/

/-- The claim of a call that names an epoch must be that of a live harness. -/
def requireClaimEpoch (L : Ledger) (q : DispatchQueue) (epoch : Option ℕ) (stale dead : String)
    (now : Time) : Checked Unit :=
  match epoch with
  | none => pure ()
  | some e => do
    ensure (q.claim.map (·.epoch) = some e) (.staleWriter stale)
    ensure (L.harnessLive e now) (.staleWriter dead)

def DispatchRows.cancel (r : DispatchRows) (retainExitedLiveness : Bool) (now : Time) :
    DispatchRows :=
  { r with
    capability := none
    liveness := if retainExitedLiveness then r.liveness else none
    queue := { r.queue with
      state := .cancelled, claim := none, raw := none, terminalStatus := none, updatedAt := now }
    policy := r.policy.settle none now
    recovery := r.recovery.reset now
    decisions := r.decisions.map (ControllerDecision.supersede false now)
    wakes := r.wakes.filter (·.kind ≠ .checkpoint) }

/-- `_cancel_queue_row_in_transaction` -/
def cancelQueueRow (L : Ledger) (epoch : Option ℕ) (retainExitedLiveness : Bool) (now : Time)
    (r : DispatchRows) : Checked DispatchRows :=
  if r.queue.state = .cancelled then pure r
  else do
    ensure r.queue.state.isNonterminal
      (.staleWriter s!"{r.queue.state.value} queue dispatch cannot be cancelled")
    L.requireClaimEpoch r.queue epoch "queue cancellation claim epoch is stale"
      "queue cancellation requires a live harness lease" now
    ensure (r.queue.raw.isNone && r.queue.terminalStatus.isNone)
      (.corruptSchema "active queue dispatch carries terminal result facts")
    ensure (r.successorOutbox.isNone && r.notificationOutbox.isNone)
      (.corruptSchema "active queue dispatch carries terminal outbox facts")
    ensure (retainExitedLiveness → r.liveness.any (·.exitedAt.isSome))
      (.staleWriter "worker cancellation lacks durable exit acknowledgement")
    pure (r.cancel retainExitedLiveness now)

def cancelQueueDispatch (L : Ledger) (dispatchId : DispatchId) (epoch : Option ℕ) (now : Time) :
    Checked Ledger :=
  L.onDispatch dispatchId (queueMissing dispatchId) (L.cancelQueueRow epoch false now)

/-- The exit that `acknowledge_worker_cancellation_exit` records before it cancels. -/
def DispatchRows.recordCancelledExit (r : DispatchRows) (exitCode : Option ℤ) (now : Time) :
    DispatchRows :=
  if r.liveness.any (·.exitedAt.isNone) then
    { r with
      liveness := r.liveness.map fun l => { l with exitedAt := some now, lastSeenAt := now }
      recovery := { r.recovery with
        workerExitClassification := some "harness-cancelled", exitCode := exitCode,
        exitedAt := some now, updatedAt := now } }
  else r

def findControl (L : Ledger) (actionId : String) : Option (DispatchId × RecoveryControl) :=
  (L.dispatches.entries.flatMap fun entry => entry.2.controls.map fun a => (entry.1, a)).find?
    fun found => found.2.actionId = actionId

def acknowledgeWorkerCancellationExit (env : Env) (L : Ledger) (dispatchId : DispatchId) (actionId : String)
    (pid : ℕ) (processBirthIdentity : String) (exitCode : Option ℤ) (now : Time) :
    Checked Ledger := do
  ensure (env.isCommandId actionId) (.valueError "control command id is invalid")
  ensure (0 < pid ∧ processBirthIdentity ≠ "")
    (.valueError "worker cancellation exit identity is invalid")
  let missing := LedgerError.recordNotFound s!"worker cancellation does not exist: {dispatchId}"
  match L.findControl actionId with
  | none => .error missing
  | some (owner, action) =>
    L.onDispatch dispatchId missing fun r => do
      ensure (owner = dispatchId ∧ action.actionKind = .cancel)
        (.staleWriter "worker cancellation action identity conflicts")
      if r.queue.state = .cancelled then pure r
      else do
        ensure (r.liveness.any fun l =>
            l.pid = pid && l.processBirthIdentity = processBirthIdentity)
          (.staleWriter "worker cancellation exit identity is stale")
        L.cancelQueueRow none true now (r.recordCancelledExit exitCode now)

/-! ### Claiming -/

/-- An unreleased authorization names the dispatch as successor. -/
def isGated (L : Ledger) (dispatchId : DispatchId) : Bool :=
  L.dispatches.entries.any fun entry =>
    entry.2.successors.any fun a =>
      a.successorDispatchId = dispatchId && a.releasedAt.isNone

/-- The rows that `claim_queue_dispatch` selects from. -/
def isClaimable (L : Ledger) (now : Time) (entry : DispatchId × DispatchRows) : Bool :=
  entry.2.queue.state = .queued && entry.2.queue.availableAt ≤ now &&
    !(entry.2.policy.strategy = .backoff && entry.2.policy.nextEligibleAt.any (now < ·)) &&
    !L.isGated entry.1

def nextClaimable (L : Ledger) (now : Time) : Option (DispatchId × DispatchRows) :=
  (L.dispatches.entries.filter (L.isClaimable now)).argmin (·.2.queue.sequence)

/-- `program` and `executionCancelled` are what the program tables and `executions` say of a
dispatch. -/
def claimQueueDispatch (L : Ledger) (epoch : ℕ) (claimNonceSha256 : String)
    (program executionCancelled : DispatchId → Bool) (now : Time) : Checked Ledger := do
  ensure (0 < epoch ∧ isSha256 claimNonceSha256) (.valueError "queue claim authority is invalid")
  ensure (L.harnessLive epoch now) (.staleWriter "queue claim requires a live harness lease")
  ensure (!L.harness.any (·.requestedShutdown))
    (.harnessRefreshBlocked "harness refresh fence is active")
  match L.nextClaimable now with
  | none => pure L
  | some (dispatchId, _) => do
    ensure (program dispatchId) .programCapability
    L.onDispatch dispatchId (queueMissing dispatchId) fun r =>
      if executionCancelled dispatchId then L.cancelQueueRow none false now r
      else pure { r with
        queue := { r.queue with
          state := .claimed, claim := some ⟨epoch, claimNonceSha256⟩, updatedAt := now } }

/-! ### Moving -/

def transitions : QueueState → List QueueState
  | .queued => [.queued, .claimed, .cancelled]
  | .claimed => [.claimed, .starting, .queued, .cancelled]
  | .starting => [.starting, .running, .queued, .resultSubmitted, .failed, .cancelled]
  | .running => [.running, .resultSubmitted, .queued, .failed, .cancelled]
  | .recoveryInspectionPending =>
    [.recoveryInspectionPending, .recoveryRetryWait, .recoveryContinuationPending, .completed,
      .failed, .humanAttentionRequired, .queued, .cancelled]
  | .recoveryRetryWait =>
    [.recoveryRetryWait, .recoveryInspectionPending, .humanAttentionRequired, .completed, .failed,
      .queued, .cancelled]
  | .recoveryContinuationPending =>
    [.recoveryContinuationPending, .recoveryInspectionPending, .completed, .failed,
      .humanAttentionRequired, .queued, .cancelled]
  | .humanAttentionRequired => [.humanAttentionRequired]
  | .resultSubmitted => [.resultSubmitted, .finalizing, .completed, .failed]
  | .finalizing => [.finalizing, .completed, .failed]
  | .completed => [.completed]
  | .failed => [.failed]
  | .cancelled => [.cancelled]

def setQueueState (L : Ledger) (dispatchId : DispatchId) (state : QueueState) (epoch : Option ℕ)
    (now : Time) : Checked Ledger :=
  if state = .cancelled then L.cancelQueueDispatch dispatchId epoch now
  else L.onDispatch dispatchId (queueMissing dispatchId) fun r => do
    ensure (epoch.all fun e => r.queue.claim.map (·.epoch) = some e)
      (.staleWriter "queue dispatch claim epoch is stale")
    ensure (state ∈ transitions r.queue.state)
      (.staleWriter s!"queue state transition {r.queue.state.value} -> {state.value} is not allowed")
    ensure (epoch.all fun e => L.harnessLive e now)
      (.staleWriter "queue state transition requires a live harness lease")
    pure { r with queue := r.queue.moveTo state now }

/-- A crashed claim goes back to the queue under a new attempt. -/
def recoverQueueDispatch (L : Ledger) (dispatchId : DispatchId) (newEpoch : ℕ)
    (preserveThreadId : Bool) (now : Time) : Checked Ledger := do
  ensure (0 < newEpoch) (.valueError "recovery epoch is invalid")
  ensure (L.harnessLive newEpoch now) (.staleWriter "queue recovery requires a live harness lease")
  L.onDispatch dispatchId (queueMissing dispatchId) fun r =>
    if r.queue.state ∈ [.completed, .failed, .cancelled, .queued] then pure r
    else do
      ensure (r.queue.state ∉ [.recoveryInspectionPending, .recoveryRetryWait,
          .recoveryContinuationPending, .humanAttentionRequired])
        (.staleWriter "recovery-state dispatch requires its typed recovery action")
      pure { r with
        capability := none
        liveness := none
        queue := r.queue.requeue (if preserveThreadId then r.queue.threadId else none)
          r.queue.availableAt now
        recovery := r.recovery.reset now }

end CodexFlow.Ledger
