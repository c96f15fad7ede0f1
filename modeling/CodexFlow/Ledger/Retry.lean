import CodexFlow.Ledger.Queue

/-!
# Retry budgets

The typed failure classes, the counters they draw on, and the two operations that record a failure
or a human decision outside a worker exit.
-/

namespace CodexFlow.Ledger

open Checked

structure RetryColumn where
  strategy : RecoveryStrategy
  get : RetryPolicy → Budget
  put : RetryPolicy → Budget → RetryPolicy

/-- `column_by_failure`; the other classes are not retryable. -/
def retryColumn : RetryFailureClass → Option RetryColumn
  | .preIdentityTransport =>
    some ⟨.backoff, (·.preIdentity), fun p b => { p with preIdentity := b }⟩
  | .invalidResponseChain =>
    some ⟨.freshThread, (·.invalidChain), fun p b => { p with invalidChain := b }⟩
  | .schemaEnvelope =>
    some ⟨.sameThreadSchemaCorrection, (·.schemaEnvelope), fun p b => { p with schemaEnvelope := b }⟩
  | .postIdentityLoss =>
    some ⟨.sameThreadContinuation, (·.postIdentityLoss),
      fun p b => { p with postIdentityLoss := b }⟩
  | .providerTransient =>
    some ⟨.sameThreadContinuation, (·.providerTransient),
      fun p b => { p with providerTransient := b }⟩
  | _ => none

/-- A failure class drawn from its counter. -/
structure Charge where
  strategy : RecoveryStrategy
  used : ℕ
  policy : RetryPolicy

/-- One unit of the class is spent, when the class is retryable and has budget left. -/
def RetryPolicy.charge (p : RetryPolicy) (failure : RetryFailureClass) : Option Charge :=
  (retryColumn failure).bind fun column =>
    if h : (column.get p).used < (column.get p).budget then
      some ⟨column.strategy, (column.get p).used + 1, column.put p ((column.get p).spend h)⟩
    else none

/-- A rejected chain must continue on a fresh thread, and provider retries raise the continuation
budget to their own. -/
def RecoveryState.prepareFor (s : RecoveryState) (failure : RetryFailureClass)
    (providerBudget : ℕ) (now : Time) : RecoveryState :=
  match failure with
  | .invalidResponseChain =>
    if s.freshThread.used = 0 then
      { s with
        freshThreadAfterIdle := true, freshThread := s.freshThread.raise 1, updatedAt := now }
    else s
  | .providerTransient =>
    { s with continuation := s.continuation.raise providerBudget, updatedAt := now }
  | _ => s

/-- The dispatch returns to the queue under a new attempt, its worker facts deleted. -/
def DispatchRows.releaseToQueue (r : DispatchRows) (availableAt now : Time) : DispatchRows :=
  { r with
    capability := none
    liveness := none
    recovery := r.recovery.reset now
    queue := r.queue.requeue none availableAt now }

/-- The arguments of `record_retry_failure` after the class. -/
structure RetryEvidence where
  priorThreadId : Option String := none
  priorTurnId : Option String := none
  nextEligibleAt : Option Time := none
  attentionReason : Option String := none

/-- The rows after one unit of `failure` was spent. -/
def DispatchRows.recordCharge (env : Env) (dispatchId : DispatchId) (failure : RetryFailureClass)
    (evidence : RetryEvidence) (charge : Charge) (now : Time) (r : DispatchRows) : DispatchRows :=
  let eligible :=
    if evidence.nextEligibleAt.isNone &&
        charge.strategy ∈ [.backoff, .sameThreadContinuation] then
      some (env.backoff dispatchId now charge.used)
    else evidence.nextEligibleAt
  let charged :=
    { r with
      policy := { charge.policy with
        revision := r.policy.revision + 1, lastFailure := some failure,
        strategy := charge.strategy, nextEligibleAt := eligible,
        priorThreadId := evidence.priorThreadId, priorTurnId := evidence.priorTurnId,
        updatedAt := now }
      recovery := r.recovery.prepareFor failure r.policy.providerTransient.budget now }
  if failure = .preIdentityTransport then
    -- never while a worker lease is still live
    if r.queue.state ≠ .queued && r.liveness.all (·.exitedAt.isSome) then
      charged.releaseToQueue (eligible.getD now) now
    else charged
  else if r.queue.state = .queued && charge.strategy = .backoff then
    { charged with queue := { r.queue with availableAt := eligible.getD now, updatedAt := now } }
  else charged

def recordRetryFailure (env : Env) (L : Ledger) (dispatchId : DispatchId)
    (failure : RetryFailureClass) (evidence : RetryEvidence) (now : Time) : Checked Ledger := do
  ensure (evidence.priorThreadId.all env.isThreadIdentity)
    (.valueError "thread identity must be a bounded non-empty, whitespace-free string")
  ensure (evidence.priorTurnId.all env.isTurnIdentity) (.valueError "prior turn identity is invalid")
  L.onDispatch dispatchId (.recordNotFound s!"retry policy does not exist: {dispatchId}") fun r => do
    ensure (r.queue.state ∉ [.completed, .failed, .cancelled, .resultSubmitted, .finalizing])
      (.staleWriter "terminal queue dispatch rejects retry failure")
    if r.policy.strategy = .humanAttention then pure r
    else
      match r.policy.charge failure with
      | some charge => pure (r.recordCharge env dispatchId failure evidence charge now)
      | none => do
        let reason := (evidence.attentionReason.filter (· ≠ "")).getD
          s!"retry budget exhausted for {failure.value}"
        ensure (env.isReason reason) (.valueError "retry attention reason is invalid")
        let redacted := env.redactControlText reason
        pure { r with
          policy := { r.policy.requireAttention redacted now with
            lastFailure := some failure, priorThreadId := evidence.priorThreadId,
            priorTurnId := evidence.priorTurnId }
          queue := r.queue.moveTo .humanAttentionRequired now
          recovery := r.recovery.requireAttention redacted now }

/-- A human or controller decision, by compare-and-swap on the state and the strategy that the
caller names. -/
def retryDispatch (env : Env) (L : Ledger) (dispatchId : DispatchId) (expectedStrategy : RecoveryStrategy)
    (expectedState : QueueState) (reason : String) (now : Time) : Checked Ledger := do
  ensure (env.isReason reason) (.valueError "retry decision reason is invalid")
  L.onDispatch dispatchId (.recordNotFound s!"retry dispatch does not exist: {dispatchId}") fun r => do
    ensure (r.queue.state = expectedState ∧ r.policy.strategy = expectedStrategy)
      (.staleWriter "retry decision compare-and-swap precondition failed")
    pure { r.releaseToQueue now now with policy := r.policy.settle (some now) now }

end CodexFlow.Ledger
