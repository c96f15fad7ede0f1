import CodexFlow.Ledger.Worker

/-!
# Worker exits

`mark_worker_exit` writes the inspection facts of an exit first and then lets
`_apply_exit_retry_policy_in_transaction` choose a strategy from the failure class.
-/

namespace CodexFlow.Ledger

open Checked

/-! ### Classification -/

def retryByClassification : String → Option RetryFailureClass
  | "transport-before-identity" => some .preIdentityTransport
  | "response-chain-invalid" => some .invalidResponseChain
  | "schema-output-invalid" => some .schemaEnvelope
  | "transient-after-identity" => some .providerTransient
  | "authentication-failure" => some .authentication
  | "permission-failure" => some .permission
  | "capability-failure" => some .capability
  | "profile-failure" => some .profile
  | "integrity-failure" => some .integrity
  | "malformed-input" => some .malformedInput
  | "result-transport-after-identity" => some .resultTransportAfterIdentity
  | "unknown-sdk-failure" => some .unknown
  | _ => none

/-- The closed worker exit codes. -/
def classificationByExitCode : ℤ → Option String
  | 74 => some "transport-before-identity"
  | 75 => some "response-chain-invalid"
  | 77 => some "schema-output-invalid"
  | 79 => some "transient-after-identity"
  | 80 => some "authentication-failure"
  | 81 => some "permission-failure"
  | 82 => some "capability-failure"
  | 83 => some "profile-failure"
  | 84 => some "integrity-failure"
  | 85 => some "malformed-input"
  | 88 => some "result-transport-after-identity"
  | 86 => some "unknown-sdk-failure"
  | 87 => some "unknown-sdk-failure"
  | _ => none

structure WorkerExit where
  exitCode : Option ℤ := none
  classification : Option String := none

namespace WorkerExit

variable (exit : WorkerExit)

def failure : Option RetryFailureClass :=
  (exit.classification.bind retryByClassification).or
    ((exit.exitCode.bind classificationByExitCode).bind retryByClassification)

def isProviderTransient : Bool :=
  exit.classification = some "transient-after-identity" || exit.exitCode = some 79

/-- The exit carries no typed class and only says that the process is gone. -/
def isAmbiguous : Bool :=
  exit.classification ∈ [none, some "worker-exit", some "restart-observed-worker-dead"] &&
    exit.failure.isNone

/-- `worker_exit_classification` -/
def recorded : String :=
  exit.classification.getD
    (match exit.exitCode with
    | some code => s!"exit-{code}"
    | none => "worker-exit")

end WorkerExit

/-! ### The exit facts -/

def inspectionExhausted : String := "inspection budget exhausted at worker exit"

/-- One inspection is armed while the budget lasts; else a human has to look. The queue row follows
while it is still active. -/
def DispatchRows.recordExit (r : DispatchRows) (exit : WorkerExit) (now : Time) : DispatchRows :=
  let exhausted := r.recovery.inspection.budget ≤ r.recovery.inspection.used
  let next : QueueState := if exhausted then .humanAttentionRequired else .recoveryInspectionPending
  { r with
    recovery := { r.recovery with
      workerExitClassification := some exit.recorded
      exitCode := exit.exitCode
      recoveryState := if exhausted then .humanAttentionRequired else .inspectionPending
      -- a provider failure is counted when its thread is read
      inspection :=
        if exit.isProviderTransient then r.recovery.inspection else r.recovery.inspection.spendCapped
      nextEligibleAt := none
      humanAttentionReason := if exhausted then some inspectionExhausted else none
      exitedAt := some now
      updatedAt := now }
    queue :=
      if r.queue.state ∈ [.claimed, .starting, .running] then r.queue.moveTo next now else r.queue
    policy := if exhausted then r.policy.requireAttention inspectionExhausted now else r.policy }

/-! ### The retry policy of an exit -/

/-- What the exit knows beside the failure class. -/
structure ExitContext where
  queueState : QueueState
  priorThreadId : Option String
  workerWasBound : Bool
  allowAmbiguousInspection : Bool

/-- The rows after one unit of the exit's class was spent. -/
def DispatchRows.spendAtExit (env : Env) (dispatchId : DispatchId) (failure : RetryFailureClass)
    (context : ExitContext) (charge : Charge) (now : Time) (r : DispatchRows) : DispatchRows :=
  let eligible :=
    if charge.strategy ∈ [.backoff, .sameThreadContinuation] then
      some (env.backoff dispatchId now charge.used)
    else none
  let charged :=
    { r with
      policy := { charge.policy with
        revision := r.policy.revision + 1, lastFailure := some failure,
        strategy := charge.strategy, nextEligibleAt := eligible,
        priorThreadId := context.priorThreadId, humanAttentionReason := none, updatedAt := now }
      recovery := r.recovery.prepareFor failure r.policy.providerTransient.budget now }
  if failure = .preIdentityTransport then charged.releaseToQueue (eligible.getD now) now
  else if context.queueState = .queued && charge.strategy = .backoff then
    { charged with queue := { r.queue with availableAt := eligible.getD now, updatedAt := now } }
  else charged

/-- A generic process exit that keeps the read-only inspection open. -/
def ExitContext.inspects (context : ExitContext) (failure : RetryFailureClass) : Bool :=
  context.allowAmbiguousInspection && failure = .unknown && context.workerWasBound &&
    context.queueState ∈ [.claimed, .starting, .running, .recoveryInspectionPending,
      .recoveryRetryWait, .recoveryContinuationPending]

def exitAttentionReason : RetryFailureClass → String
  | .profile => "native compatibility profile changed before SDK identity"
  | .resultTransportAfterIdentity =>
    "result submission transport recovery exhausted after worker identity"
  | failure => s!"automatic retry is not authorized for {failure.value}"

def DispatchRows.closeAtExit (failure : RetryFailureClass) (context : ExitContext) (now : Time)
    (r : DispatchRows) : DispatchRows :=
  { r with
    policy := { r.policy.requireAttention (exitAttentionReason failure) now with
      lastFailure := some failure, priorThreadId := context.priorThreadId, priorTurnId := none }
    recovery := r.recovery.requireAttention (exitAttentionReason failure) now
    queue :=
      if r.queue.state ∈ [.completed, .failed, .cancelled, .resultSubmitted, .finalizing] then r.queue
      else r.queue.moveTo .humanAttentionRequired now }

/-- `_apply_exit_retry_policy_in_transaction` -/
def DispatchRows.applyExitRetryPolicy (env : Env) (dispatchId : DispatchId)
    (failure : RetryFailureClass) (context : ExitContext) (now : Time) (r : DispatchRows) :
    DispatchRows :=
  match r.policy.charge failure with
  | some charge => r.spendAtExit env dispatchId failure context charge now
  | none =>
    if context.inspects failure then
      { r with policy := { r.policy.settle none now with lastFailure := some failure } }
    else r.closeAtExit failure context now

/-- The facts of the exit as `mark_worker_exit` hands them on. -/
def DispatchRows.exitContext (r : DispatchRows) (exit : WorkerExit) : ExitContext where
  queueState := r.queue.state
  priorThreadId := r.queue.threadId.filter (· ≠ "")
  workerWasBound := true
  allowAmbiguousInspection := exit.isAmbiguous

def DispatchRows.markExited (r : DispatchRows) (now : Time) : DispatchRows :=
  { r with
    liveness := r.liveness.map fun l =>
      if l.exitedAt.isNone then { l with exitedAt := some now, lastSeenAt := now } else l }

/-- The body of `mark_worker_exit` for a worker that had not exited. -/
def DispatchRows.workerExit (env : Env) (dispatchId : DispatchId) (exit : WorkerExit) (now : Time)
    (r : DispatchRows) : DispatchRows :=
  -- a result that crossed the boundary first stays authoritative
  if r.queue.state ∈ [.resultSubmitted, .completed, .failed, .cancelled] then r.markExited now
  else
    ((r.markExited now).recordExit exit now).applyExitRetryPolicy env dispatchId
      (exit.failure.getD .unknown) (r.exitContext exit) now

def markWorkerExit (env : Env) (L : Ledger) (dispatchId : DispatchId) (process : WorkerProcess)
    (exit : WorkerExit) (now : Time) : Checked Ledger := do
  ensure (exit.classification.all fun text => text ≠ "" && text.length ≤ 128)
    (.valueError "worker-exit classification is invalid")
  let missing := LedgerError.recordNotFound s!"worker liveness does not exist: {dispatchId}"
  L.onDispatch dispatchId missing fun r =>
    match r.liveness with
    | none => .error missing
    | some l => do
      ensure (l.pid = process.pid ∧ l.processBirthIdentity = process.processBirthIdentity)
        (.staleWriter "worker exit identity is conflicting")
      pure (if l.exitedAt.isSome then r else r.workerExit env dispatchId exit now)

end CodexFlow.Ledger
