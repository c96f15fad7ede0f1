import CodexFlow.Ledger.Delivery
import CodexFlow.Ledger.Result

/-!
# Controller bundles

The operations on decisions that reach other tables: the commit of a bundle of actions, a decision
that a client opens, the new cycle after a failed one, and the refresh of the installed profile.
-/

namespace CodexFlow.Ledger

open Checked

/-! ### The effects of a bundle -/

def ControllerControl.record (c : ControllerControl) (kind : RecoveryActionKind) (fallback : String)
    (change : Option RetryBudgetChange) (now : Time) : RecoveryControl where
  actionId := c.actionId
  expectedRevision := c.expectedRetryRevision
  actionKind := kind
  reason := (c.reason.filter (· ≠ "")).getD fallback
  requestedBudget := change
  compatibilityRebind := none
  appliedRevision := c.expectedRetryRevision + 1
  createdAt := now

/-- `RETRY_DISPATCH`: unlike the operator's retry it keeps what was inspected and the checkpoint. -/
def DispatchRows.controllerRetry (r : DispatchRows) (now : Time) : DispatchRows :=
  { r with
    policy := r.policy.settle (some now) now
    capability := none
    liveness := none
    recovery := { r.recovery with
      recoveryState := .none, nextEligibleAt := none, humanAttentionReason := none
      updatedAt := now }
    queue := r.queue.requeue none now now }

def controllerEffect (L : Ledger) (now : Time) (r : DispatchRows) :
    ControllerAction → Checked DispatchRows
  | .acknowledgeOnly => pure r
  | .requireHumanAttention _ => pure r
  | .rearmCheckpoint checkpointSeconds =>
    pure { r with binding := { r.binding with
      checkpointDeadline := some (now + seconds checkpointSeconds), updatedAt := now } }
  | .changeRetryBudget control change =>
    match r.policy.withBudgets change with
    | none => .error (.staleWriter "controller retry budget cannot fall below consumed retries")
    | some policy =>
      pure { r with
        policy := policy.revise now
        controls := r.controls ++
          [control.record .budgetChange "controller budget change" (some change) now] }
  | .retryDispatch control => do
    ensure (r.queue.state = .humanAttentionRequired)
      (.staleWriter "controller retry requires human-attention state")
    pure { r.controllerRetry now with
      controls := r.controls ++ [control.record .retry "controller retry" none now] }
  | .cancelDispatch control => do
    let cancelled ← L.cancelQueueRow none false now r
    pure { cancelled with
      controls := cancelled.controls ++
        [control.record .cancel "controller cancellation" none now] }

def controllerEffects (L : Ledger) (dispatchId : DispatchId) (now : Time) :
    List ControllerAction → DispatchRows → Checked DispatchRows
  | [], r => pure r
  | action :: actions, r => do
    ensure (action.control.all (·.dispatchId = dispatchId))
      (.staleWriter "controller action targets another dispatch")
    let r' ← L.controllerEffect now r action
    L.controllerEffects dispatchId now actions r'

def DispatchRows.releasedIds (r : DispatchRows) : List DispatchId :=
  ((r.successors.filter (·.releasedAt.isSome)).map (·.successorDispatchId)).insertionSort (· ≤ ·)

/-- The part of `submit_controller_actions` that reads and writes the queue tables. -/
def applyControllerActions (L : Ledger) (dispatchId : DispatchId) (actions : List ControllerAction)
    (now : Time) (r : DispatchRows) : Checked DispatchRows := do
  ensure (r.queue.state ∈ [.completed, .failed, .cancelled, .resultSubmitted, .finalizing] →
      actions.all (·.isInert))
    (.staleWriter "terminal queue dispatch rejects controller effects")
  let controls := actions.filterMap (·.control)
  ensure (controls.length ≤ 1)
    (.staleWriter "controller recovery actions conflict in one bundle")
  ensure (controls.all fun c => c.expectedRetryRevision = r.policy.revision)
    (.staleWriter "controller retry-policy revision is stale")
  ensure (controls.all fun c => (L.findControl c.actionId).isNone)
    (.staleWriter "controller recovery action id already exists")
  L.controllerEffects dispatchId now actions r

/-! ### Committing a bundle -/

/-- Every decision with its identity. -/
def decisions (L : Ledger) : List (DecisionKey × ControllerDecision) :=
  L.dispatches.entries.flatMap (fun entry => entry.2.decisions.map fun d =>
      (.dispatch entry.1 d.kind d.cycleSequence, d)) ++
    L.programDecisions.entries.map fun entry => (.program entry.1, entry.2.decision)

def decisionAt (L : Ledger) : DecisionKey → Option ControllerDecision
  | .dispatch dispatchId kind cycle => (L.dispatches.get? dispatchId).bind (·.decision? kind cycle)
  | .program event => (L.programDecisions.get? event).map (·.decision)

def findOutbox (L : Ledger) (actionId : String) : Option (DecisionKey × ActionOutbox) :=
  L.decisions.findSome? fun entry =>
    (entry.2.outbox.filter (·.actionId = actionId)).map fun o => (entry.1, o)

/-- The token is empty when a recovery submits the bundle of a completed inspection. -/
structure SubmitRequest where
  bundle : ControllerActionBundle
  claimantId : String
  token : String
  allowRecovered : Bool := false

namespace SubmitRequest

variable (env : Env) (q : SubmitRequest)

def check : Checked Unit := do
  q.bundle.check env
  if q.token = "" then ensure q.allowRecovered (.valueError "controller claim token is required")
  else do
    let _ ← env.claimTokenHash q.token
    pure ()

def digest : String := env.bundleSha256 (.dispatch q.bundle)

/-- The presented capability is that of the claim, or a recovery needs none. -/
def isHeld (d : ControllerDecision) : Bool :=
  q.allowRecovered || d.heldBy (env.sha256 q.token) q.claimantId

def isInspected (d : ControllerDecision) : Bool :=
  (d.generationAt q.bundle.generation).any fun g =>
    g.inspectionCompleted && g.inspected = some (.dispatch q.bundle, q.digest env)

/-- The receipt of an earlier call with the same action. -/
def replay (decision : Option ControllerDecision) (found : DecisionKey × ActionOutbox) :
    Checked Unit := do
  ensure (found.2.bundleSha256 = q.digest env)
    (.staleWriter "controller action id conflicts with a prior bundle")
  ensure (found.1 = q.bundle.decisionId)
    (.staleWriter "controller action id is bound to another decision")
  ensure (decision.any (q.isHeld env)) (.staleWriter "controller action replay claim is stale")

/-- The claim, the revision and the generation that the bundle was made under. -/
def authorize (now : Time) (d : ControllerDecision) : Checked Unit := do
  ensure (q.isHeld env d) (.staleWriter "controller claim is stale")
  if q.allowRecovered then do
    ensure (d.state ∈ [.claimed, .awaitingClaim])
      (.staleWriter "controller recovery decision is stale")
    ensure d.isModelClaim (.corruptSchema "controller recovery claimant audit is missing")
  else ensure (d.state = .claimed) (.staleWriter "controller claim is stale")
  ensure (d.revision = q.bundle.expectedRevision ∧ d.currentGeneration = q.bundle.generation)
    (.staleWriter "controller action revision or generation is stale")
  ensure (q.allowRecovered ∨ !d.leaseExpired now)
    (.staleWriter "controller claim lease has expired")

def attentionReason : Option String :=
  q.bundle.actions.findSome? fun
    | .requireHumanAttention reason => some reason
    | _ => none

def receipt (c : Claimant) (now : Time) : ActionOutbox where
  actionId := q.bundle.actionId
  generation := q.bundle.generation
  expectedRevision := q.bundle.expectedRevision
  claimantKind := c.kind
  claimantId := c.claimantId
  bundle := .dispatch q.bundle
  bundleSha256 := q.digest env
  committedAt := now
  acknowledgedAt := none

/-- What the commit writes to a decision, whatever the effects have made of it. -/
def committed (c : Claimant) (revision : ℕ) (now : Time) (d : ControllerDecision) :
    ControllerDecision :=
  { d with
    state := if q.attentionReason.isSome then .humanAttentionRequired else .actionCommitted
    revision := revision + 1
    action := some ⟨q.bundle.actionId, .dispatch q.bundle, q.digest env, now⟩
    outbox := some (q.receipt env c now)
    humanAttentionReason := q.attentionReason, claimLeaseExpiresAt := none, updatedAt := now }

end SubmitRequest

def DispatchRows.mapDecision (r : DispatchRows) (kind : WakeKind) (cycle : ℕ)
    (f : ControllerDecision → ControllerDecision) : DispatchRows :=
  { r with decisions := r.decisions.map fun d =>
    if d.kind = kind && d.cycleSequence = cycle then f d else d }

def commitBundle (env : Env) (L : Ledger) (dispatchId : DispatchId) (kind : WakeKind) (cycle : ℕ)
    (q : SubmitRequest) (now : Time) (d : ControllerDecision) (r : DispatchRows) :
    Checked DispatchRows := do
  ensure (q.bundle.expectedSuccessorDispatchIds = r.releasedIds)
    (.staleWriter "controller successor snapshot is stale")
  let r' ← L.applyControllerActions dispatchId q.bundle.actions now r
  match d.claimant with
  | none => .error (.corruptSchema "controller action claimant audit is missing")
  | some c => do
    ensure d.outbox.isNone .integrityError
    pure (r'.mapDecision kind cycle (q.committed env c d.revision now))

/-- `submit_controller_actions`. A program decision has no row in the queue. -/
def submitControllerActions (env : Env) (L : Ledger) (q : SubmitRequest) (now : Time) :
    Checked Ledger := do
  q.check env
  let decision := L.decisionAt q.bundle.decisionId
  ensure (q.allowRecovered → decision.any (q.isInspected env))
    (.staleWriter "controller recovery bundle lacks one exact completed inspection")
  match L.findOutbox q.bundle.actionId with
  | some found => do
    q.replay env decision found
    pure L
  | none =>
    match decision with
    | none => .error (.recordNotFound "controller decision does not exist")
    | some d => do
      q.authorize env now d
      match q.bundle.decisionId with
      | .program _ => do
        ensure (q.bundle.expectedSuccessorDispatchIds = [])
          (.staleWriter "controller successor snapshot is stale")
        .error (.corruptSchema "controller decision queue dispatch is missing")
      | .dispatch dispatchId kind cycle =>
        L.onDispatch dispatchId (.corruptSchema "controller decision queue dispatch is missing")
          (L.commitBundle env dispatchId kind cycle q now d)

/-! ### Opening a decision -/

/-- `create_controller_decision`. The summary of the caller may give the payload any shape. -/
structure OpenRequest where
  kind : WakeKind
  payload : WakePayload
  sourceThreadId : Option String
  deadline : Time

def DispatchRows.openDecision (q : OpenRequest) (now : Time) (r : DispatchRows) :
    Checked DispatchRows := do
  let w : NewWake :=
    { kind := q.kind, cycleSequence := 1, sourceThreadId := q.sourceThreadId
      payload := q.payload, queueState := r.queue.state }
  ensure (q.sourceThreadId ≠ some "") .integrityError
  let r' ← r.ensureControllerDecision w q.deadline now
  pure (if r'.hasWake q.kind 1 then r' else { r' with wakes := r'.wakes ++ [w.wake now] })

def createControllerDecision (L : Ledger) (dispatchId : DispatchId) (q : OpenRequest)
    (now : Time) : Checked Ledger :=
  L.onDispatch dispatchId (queueMissing dispatchId) (DispatchRows.openDecision q now)

/-! ### A new cycle -/

/-- An inspection found the generation ambiguous and no turn was ever bound. -/
def ControllerGeneration.isTurnless (g : ControllerGeneration) : Bool :=
  g.state = .ambiguous && g.inspectionOutcome = some .ambiguous &&
    g.inspection.any (·.completedAt.isSome) && g.controllerTurnId.isNone

/-- `MAX(cycle_sequence)` over the decisions of a kind. -/
def DispatchRows.latestDecisionCycle (r : DispatchRows) (kind : WakeKind) : ℕ :=
  ((r.decisions.filter (·.kind = kind)).map (·.cycleSequence)).foldr max 0

def DispatchRows.replan (kind : WakeKind) (cycle expectedRevision : ℕ) (now : Time)
    (r : DispatchRows) : Checked DispatchRows :=
  match r.decision? kind cycle with
  | none => .error (.recordNotFound "controller decision does not exist")
  | some d => do
    ensure (d.revision = expectedRevision) (.staleWriter "controller replan revision is stale")
    ensure (d.state = .humanAttentionRequired ∧ d.action.isNone ∧ d.claimant.isNone ∧
        d.currentGeneration = d.generationBudget ∧ d.generations.all (·.isTurnless))
      (.staleWriter "controller replan lacks exact no-turn exhausted authority")
    let nextCycle := r.latestDecisionCycle kind + 1
    ensure (nextCycle ≤ 64) (.staleWriter "controller decision cycle budget is exhausted")
    let superseded := r.mapDecision kind cycle fun d =>
      { d with
        state := .superseded, supersededAt := some now, humanAttentionReason := none
        updatedAt := now }
    let w : NewWake :=
      { kind := .checkpoint, cycleSequence := nextCycle, sourceThreadId := d.sourceThreadId
        payload := .direct r.queue.state, queueState := r.queue.state, suppressed := true }
    let r' ← superseded.insertWake w now now
    pure { r' with binding := { r'.binding with checkpointDeadline := none, updatedAt := now } }

/-- `authorize_controller_replan_after_local_pre_turn_failure` -/
def authorizeReplan (env : Env) (L : Ledger) (dispatchId : DispatchId) (kind : WakeKind)
    (cycle expectedRevision : ℕ) (reason : String) (now : Time) : Checked Ledger := do
  ensure (env.isReason reason) (.valueError "controller replan reason is invalid")
  L.onDispatch dispatchId (.recordNotFound "controller decision does not exist")
    (DispatchRows.replan kind cycle expectedRevision now)

/-! ### Refreshing the profile -/

/-- The reason of a decision that `record_controller_profile_drift` closed by default. -/
def profileDrift : String := "native compatibility profile changed before SDK identity"

namespace ControllerDecision

variable (d : ControllerDecision)

/-- No process of the decision has an identity yet. -/
def isRefreshable : Bool :=
  d.action.isNone && d.claimant.isNone && d.generation.controllerThreadId.isNone &&
    d.generation.controllerTurnId.isNone &&
    (d.state = .awaitingClaim && d.generation.state = .prepared ||
      d.state = .humanAttentionRequired && d.generation.state = .failed &&
        d.humanAttentionReason = some profileDrift)

/-- A decision that drifted starts again with a prepared generation. -/
def refresh (now : Time) : ControllerDecision :=
  if d.state = .humanAttentionRequired then
    (d.reopen now).withGeneration fun g => { g with state := .prepared, terminalAt := none }
  else d

end ControllerDecision

structure ProfileRefresh where
  nativeProfileSha256 : String
  nativeCompatibilitySha256 : String

namespace DispatchRows

variable (r : DispatchRows) (q : ProfileRefresh)

/-- The decision is selected, and not already bound to the profile. -/
def refreshes (d : ControllerDecision) : Bool :=
  r.liveness.all (·.exitedAt.isSome) && d.isRefreshable &&
    !(r.binding.nativeProfileSha256 = some q.nativeProfileSha256 &&
      r.binding.nativeCompatibilitySha256 = some q.nativeCompatibilitySha256 &&
      d.state = .awaitingClaim)

def refreshProfile (now : Time) : DispatchRows :=
  if r.decisions.any (r.refreshes q) then
    { r with
      queue := { r.queue with updatedAt := now }
      binding := { r.binding with
        nativeProfileSha256 := some q.nativeProfileSha256
        nativeCompatibilitySha256 := some q.nativeCompatibilitySha256, updatedAt := now }
      recovery :=
        if r.recovery.profileSha256.isSome then
          { r.recovery with profileSha256 := some q.nativeProfileSha256, updatedAt := now }
        else r.recovery
      decisions := r.decisions.map fun d => if r.refreshes q d then d.refresh now else d }
  else r

end DispatchRows

/-- `authorize_controller_profile_refresh` -/
def authorizeProfileRefresh (L : Ledger) (q : ProfileRefresh) (now : Time) : Checked Ledger := do
  ensure (isSha256 q.nativeProfileSha256)
    (.valueError "refreshed native profile digest must be a lowercase SHA-256 digest")
  ensure (isSha256 q.nativeCompatibilitySha256)
    (.valueError "refreshed native compatibility digest must be a lowercase SHA-256 digest")
  pure { L with dispatches := L.dispatches.map fun _ r => r.refreshProfile q now }

end CodexFlow.Ledger
