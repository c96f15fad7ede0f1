import CodexFlow.Ledger.Recovery

/-!
# Recovery actions

`apply_recovery_action`: one reasoned action on a live dispatch, by compare-and-swap on the policy
revision. An action is recorded once; repeating it with the same facts changes nothing.
-/

namespace CodexFlow.Ledger

open Checked

structure RecoveryAction where
  actionId : String
  expectedRevision : ℕ
  actionKind : RecoveryActionKind
  reason : String
  requestedBudget : Option RetryBudgetChange := none
  compatibilityRebind : Option CompatibilityRebind := none

/-- The row of `recovery_controls` that records an action. -/
def RecoveryAction.control (env : Env) (action : RecoveryAction) (now : Time) : RecoveryControl where
  actionId := action.actionId
  expectedRevision := action.expectedRevision
  actionKind := action.actionKind
  reason := env.redactControlText action.reason
  requestedBudget := action.requestedBudget
  compatibilityRebind := action.compatibilityRebind
  appliedRevision := action.expectedRevision + 1
  createdAt := now

def RecoveryControl.records (env : Env) (control : RecoveryControl) (action : RecoveryAction) :
    Bool :=
  control.expectedRevision = action.expectedRevision &&
    control.actionKind = action.actionKind &&
    control.reason = env.redactControlText action.reason &&
    control.requestedBudget = action.requestedBudget &&
    control.compatibilityRebind = action.compatibilityRebind

def DispatchRows.cancelPending (r : DispatchRows) : Bool :=
  r.controls.any (·.actionKind = .cancel)

/-! ### Budget changes -/

/-- The four ceilings replaced, when none falls below what is used. -/
def RetryPolicy.withBudgets (p : RetryPolicy) (change : RetryBudgetChange) : Option RetryPolicy :=
  if h : p.preIdentity.used ≤ change.preIdentityBudget ∧
      p.invalidChain.used ≤ change.invalidChainBudget ∧
      p.schemaEnvelope.used ≤ change.schemaEnvelopeBudget ∧
      p.postIdentityLoss.used ≤ change.postIdentityLossBudget then
    some { p with
      preIdentity := p.preIdentity.withBudget change.preIdentityBudget h.1
      invalidChain := p.invalidChain.withBudget change.invalidChainBudget h.2.1
      schemaEnvelope := p.schemaEnvelope.withBudget change.schemaEnvelopeBudget h.2.2.1
      postIdentityLoss := p.postIdentityLoss.withBudget change.postIdentityLossBudget h.2.2.2 }
  else none

/-- The facts that authorize exactly one provider continuation beyond the third. -/
def DispatchRows.grantsProvider (r : DispatchRows) (change : RetryBudgetChange)
    (providerBudget : ℕ) : Bool :=
  r.policy.providerTransient.budget = 3 && r.policy.providerTransientGrantUsed = 0 &&
    3 ≤ r.policy.providerTransient.used && r.policy.lastFailure = some .providerTransient &&
    r.policy.priorThreadId.isSome && r.policy.priorThreadId = r.queue.threadId &&
    r.recovery.continuation.budget = 3 && r.recovery.inspectedThreadId.isNone &&
    r.recovery.inspectedTurnId.isNone && r.recovery.inspectedKind.isNone && providerBudget = 4 &&
    change.preIdentityBudget = r.policy.preIdentity.budget &&
    change.invalidChainBudget = r.policy.invalidChain.budget &&
    change.schemaEnvelopeBudget = r.policy.schemaEnvelope.budget &&
    change.postIdentityLossBudget = r.policy.postIdentityLoss.budget

def DispatchRows.grantProvider (r : DispatchRows)
    (hc : r.recovery.continuation.used ≤ 4) (now : Time) : DispatchRows :=
  { r with
    policy := { r.policy with
      revision := r.policy.revision + 1
      providerTransient := ⟨4, 4, Nat.le_refl 4⟩
      providerTransientGrantUsed := 1
      strategy := .sameThreadContinuation, nextEligibleAt := none, humanAttentionReason := none
      updatedAt := now }
    recovery := { r.recovery with
      recoveryState := .inspectionPending
      continuation := r.recovery.continuation.withBudget 4 hc
      nextEligibleAt := none, humanAttentionReason := none, updatedAt := now }
    queue := r.queue.moveTo .recoveryInspectionPending now }

def DispatchRows.changeBudget (r : DispatchRows) (change : RetryBudgetChange) (now : Time) :
    Checked DispatchRows :=
  match r.policy.withBudgets change with
  | none => .error (.staleWriter "recovery budget cannot fall below consumed retries")
  | some policy =>
    match change.providerTransientBudget with
    | none => pure { r with policy := policy.revise now }
    | some providerBudget => do
      ensure (r.queue.state = .humanAttentionRequired ∧ r.policy.strategy = .humanAttention ∧
          r.recovery.recoveryState = .humanAttentionRequired)
        (.staleWriter "provider grant requires human-attention state")
      ensure (r.liveness.all (·.exitedAt.isSome))
        (.staleWriter "provider grant rejects an active worker lease")
      ensure (r.recovery.inspectedKind ∉ [some .activeWriter, some .ambiguous, some .malformed])
        (.staleWriter "provider grant rejects an active or ambiguous writer")
      ensure (r.recovery.inspection.used < r.recovery.inspection.budget)
        (.staleWriter "provider grant lacks one remaining thread inspection")
      ensure (r.grantsProvider change providerBudget)
        (.staleWriter "provider grant is not the exact one-step authorization")
      if hc : r.recovery.continuation.used ≤ 4 then pure (r.grantProvider hc now)
      else .error .integrityError

/-! ### Retry and rebind -/

def DispatchRows.awaitsHuman (r : DispatchRows) : Bool :=
  r.queue.state = .humanAttentionRequired && r.policy.strategy = .humanAttention

/-- `RETRY`: the human releases a fresh attempt. -/
def DispatchRows.retryAfterAttention (r : DispatchRows) (now : Time) : DispatchRows :=
  { r.releaseToQueue now now with
    policy := r.policy.settle (some now) now
    binding := r.binding.disarm now }

def DispatchRows.controllerClaimed (r : DispatchRows) (now : Time) : Bool :=
  r.decisions.any fun d => d.claimant.isSome && d.claimLeaseExpiresAt.any (now < ·)

/-- `activeTurn` says that a controller turn of the dispatch is being delivered or runs. -/
def DispatchRows.rebindCompatibility (r : DispatchRows) (c : CompatibilityRebind)
    (activeTurn : Bool) (now : Time) : Checked DispatchRows := do
  ensure c.expectedProfileSha256.isSome
    (.valueError "new compatibility rebind requires the complete runtime identity tuple")
  ensure r.awaitsHuman (.staleWriter "compatibility rebind requires human-attention state")
  ensure (r.queue.generation = c.expectedGeneration ∧ r.queue.attempt = c.expectedAttempt)
    (.staleWriter "compatibility rebind worker identity is stale")
  ensure (r.liveness.all (·.exitedAt.isSome))
    (.staleWriter "compatibility rebind rejects an active worker lease")
  ensure (!activeTurn && !r.controllerClaimed now)
    (.staleWriter "compatibility rebind rejects an active controller turn or lease")
  -- the capability of an exited attempt is revoked, any other one is in the way
  ensure ((r.capabilityAt c.expectedGeneration c.expectedAttempt).all fun cap =>
      cap.consumedAt.isNone && r.liveness.any (·.exitedAt.isSome))
    (.staleWriter "compatibility rebind rejects an issued worker attempt")
  ensure (r.binding.nativeProfileSha256 = c.expectedProfileSha256 ∧
      r.recovery.profileSha256 = c.expectedProfileSha256 ∧
      r.binding.nativeCompatibilitySha256 = some c.expectedCompatibilitySha256)
    (.staleWriter "compatibility rebind old identity tuple does not match queue authority")
  pure { r with
    capability :=
      if (r.capabilityAt c.expectedGeneration c.expectedAttempt).isSome then none else r.capability
    queue := { r.queue with updatedAt := now }
    binding := { r.binding with
      nativeProfileSha256 := c.proposedProfileSha256
      nativeCompatibilitySha256 := some c.proposedCompatibilitySha256, updatedAt := now }
    recovery := { r.recovery with profileSha256 := c.proposedProfileSha256, updatedAt := now }
    policy := r.policy.revise now }

/-! ### The action -/

/-- `CANCEL`: a live worker only has its cancellation recorded; the exit acknowledgement ends it. -/
def cancelAction (L : Ledger) (now : Time) (r : DispatchRows) : Checked DispatchRows :=
  if r.liveness.any (·.exitedAt.isNone) then pure { r with policy := r.policy.revise now }
  else do
    ensure (r.liveness.isSome ∨ r.queue.state ∉ [.claimed, .starting, .running])
      (.staleWriter "live cancellation requires durable worker ownership")
    L.cancelQueueRow none r.liveness.isSome now r

def RecoveryAction.requirePayload (action : RecoveryAction) : Checked Unit := do
  ensure (action.actionKind = .budgetChange → action.requestedBudget.isSome)
    (.valueError "budget-change action requires requested budgets")
  ensure (action.actionKind ≠ .budgetChange → action.requestedBudget.isNone)
    (.valueError "only budget-change action may carry requested budgets")
  ensure (action.actionKind = .compatibilityRebind → action.compatibilityRebind.isSome)
    (.valueError "compatibility-rebind action requires exact compatibility facts")
  ensure (action.actionKind ≠ .compatibilityRebind → action.compatibilityRebind.isNone)
    (.valueError "only compatibility-rebind action may carry compatibility facts")

def actionEffect (L : Ledger) (action : RecoveryAction) (activeTurn : Bool) (now : Time)
    (r : DispatchRows) : Checked DispatchRows :=
  match action.actionKind with
  | .budgetChange =>
    match action.requestedBudget with
    | some change => r.changeBudget change now
    | none => .error (.valueError "budget-change action requires requested budgets")
  | .retry => do
    ensure r.awaitsHuman (.staleWriter "retry action requires human-attention state")
    pure (r.retryAfterAttention now)
  | .compatibilityRebind =>
    match action.compatibilityRebind with
    | some c => r.rebindCompatibility c activeTurn now
    | none => .error (.valueError "compatibility-rebind action requires exact compatibility facts")
  | .cancel => L.cancelAction now r

def applyRecoveryAction (env : Env) (L : Ledger) (dispatchId : DispatchId)
    (action : RecoveryAction) (activeTurn : Bool) (now : Time) : Checked Ledger := do
  ensure (env.isCommandId action.actionId) (.valueError "control command id is invalid")
  ensure (env.isReason action.reason) (.valueError "recovery action reason is invalid")
  action.requirePayload
  ensure (action.requestedBudget.all (·.isWithinCeilings))
    (.valueError "retry budget is outside its accepted ceiling")
  ensure (action.compatibilityRebind.all (·.isWellFormed))
    (.valueError "compatibility rebind is invalid")
  match L.findControl action.actionId with
  | some (owner, control) => do
    ensure (owner = dispatchId ∧ control.records env action)
      (.staleWriter "recovery action identity conflicts")
    ensure (action.actionKind ≠ .compatibilityRebind)
      (.staleWriter "compatibility rebind action was already applied")
    pure L
  | none =>
    let missing := LedgerError.recordNotFound s!"recovery dispatch does not exist: {dispatchId}"
    L.onDispatch dispatchId missing fun r => do
      ensure (!r.cancelPending) (.staleWriter "worker cancellation is already pending")
      ensure (r.policy.revision = action.expectedRevision)
        (.staleWriter "recovery action revision is stale")
      ensure (r.queue.state ∉ [.completed, .failed, .cancelled, .resultSubmitted, .finalizing])
        (.staleWriter "terminal queue dispatch rejects recovery action")
      let applied ← L.actionEffect action activeTurn now r
      pure { applied with controls := applied.controls ++ [action.control env now] }

end CodexFlow.Ledger
