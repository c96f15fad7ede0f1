import CodexFlow.Ledger.Generations

/-!
# Wake delivery, and the calls on one decision

A wake is claimed for its SDK call, twice at most, and the outcome of the call is recorded. Together
with the claims, inspections and generations these are the calls that name one decision.
-/

namespace CodexFlow.Ledger

open Checked

/-! ### Wakes -/

/-- The decision waits for a claim, when it still waited for its delivery. -/
def ControllerDecision.deliver (now : Time) (d : ControllerDecision) : ControllerDecision :=
  if d.state = .pendingDelivery then
    { d with state := .awaitingClaim, revision := d.revision + 1, updatedAt := now }
  else d

/-- The wake could not be delivered; the decision waits for a claim in a new window. -/
def ControllerDecision.deliverLate (now : Time) (d : ControllerDecision) : ControllerDecision :=
  if d.state = .pendingDelivery then
    { d with
      state := .awaitingClaim, revision := d.revision + 1
      deadline := max d.deadline (now + seconds 300)
      humanAttentionReason := none, claimLeaseExpiresAt := none, updatedAt := now }
  else d

/-- Nobody knows whether the wake was delivered. -/
def ControllerDecision.deliverAmbiguous (now : Time) (d : ControllerDecision) :
    ControllerDecision :=
  if d.state = .pendingDelivery then
    { d with
      state := .humanAttentionRequired
      humanAttentionReason := some "source wake delivery is ambiguous"
      claimLeaseExpiresAt := none, updatedAt := now }
  else d

def Wake.moveTo (w : Wake) (state : WakeState) (now : Time) : Wake :=
  { w with state := state, updatedAt := now }

/-- The wake enters its SDK call, or has used both attempts. -/
def Wake.start (w : Wake) (now : Time) : Wake :=
  if 2 ≤ w.attemptCount then w.moveTo .failed now
  else if w.state ∈ [.pending, .failed] then
    { w.moveTo .starting now with attemptCount := w.attemptCount + 1 }
  else w

/-- `claim_wake` -/
def DecisionRows.claimWake (now : Time) (w : Wake) (p : DecisionRows) : Checked DecisionRows :=
  if w.state = .suppressed ∨ p.decision.state ≠ .pendingDelivery then do
    ensure (w.state ∈ [.notApplicable, .delivered, .suppressed])
      (.staleWriter "wake delivery is no longer pending controller delivery")
    pure p
  else if w.state ∈ [.notApplicable, .delivered] then pure p
  else do
    ensure (w.state ≠ .ambiguous) (.staleWriter "ambiguous wake delivery requires reconciliation")
    pure { p with wake := some (w.start now) }

inductive DeliveryOutcome where
  | delivered
  | failed
  | ambiguous
deriving DecidableEq

/-- `record_wake_delivery` -/
def DecisionRows.recordDelivery (env : Env) (outcome : DeliveryOutcome)
    (sourceTurnId : Option String) (now : Time) (w : Wake) (p : DecisionRows) :
    Checked DecisionRows :=
  if w.state = .delivered then do
    ensure (outcome = .delivered ∧ sourceTurnId = w.sourceTurnId)
      (.staleWriter "wake delivery identity is immutable")
    pure p
  else if w.state = .ambiguous then do
    ensure (outcome = .ambiguous ∧ sourceTurnId.isNone)
      (.staleWriter "ambiguous wake delivery requires reconciliation")
    pure p
  else do
    ensure (w.state = .starting)
      (.staleWriter "wake delivery is not in its claimed SDK call state")
    match outcome with
    | .delivered => do
      ensure (sourceTurnId.any env.isTurnIdentity ∧ w.sourceThreadId.isSome)
        (.staleWriter "wake delivery requires a source turn identity")
      pure ⟨p.decision.deliver now,
        some { w.moveTo .delivered now with sourceTurnId := sourceTurnId }⟩
    | .ambiguous => do
      ensure sourceTurnId.isNone
        (.staleWriter "ambiguous wake delivery cannot carry a source turn identity")
      pure ⟨p.decision.deliverAmbiguous now, some (w.moveTo .ambiguous now)⟩
    | .failed => do
      ensure sourceTurnId.isNone
        (.staleWriter "failed wake delivery cannot carry a source turn identity")
      pure (if 2 ≤ w.attemptCount then
          ⟨p.decision.deliverLate now, some (w.moveTo .failed now)⟩
        else { p with wake := some (w.moveTo .pending now) })

/-- `reconcile_wake_delivery` -/
def DecisionRows.reconcileDelivery (sourceTurnId : String) (now : Time) (w : Wake)
    (p : DecisionRows) : Checked DecisionRows :=
  if w.state = .delivered then do
    ensure (w.sourceTurnId = some sourceTurnId) (.staleWriter "wake delivery identity is immutable")
    pure p
  else do
    ensure (w.state = .ambiguous) (.staleWriter "wake delivery is not awaiting reconciliation")
    pure ⟨p.decision.deliver now,
      some { w.moveTo .delivered now with sourceTurnId := some sourceTurnId }⟩

/-! ### Calls on one decision -/

/-- A call that names one decision, or the wake of one. -/
inductive DecisionOp where
  | claim (request : ClaimRequest) (minted : String)
  | renew (request : RenewRequest)
  | deferRateLimit (request : DeferRequest)
  | acknowledge (request : AcknowledgeRequest)
  | expireInspection
  | reserveInspection (minted : String)
  | completeInspection (request : CompleteRequest)
  | reap
  | prepareGeneration (generation : ℕ) (promptSha256 : Option String)
  | bindThread (generation : ℕ) (threadId : String)
  | bindTurn (request : TurnRequest)
  | completeGeneration (generation : ℕ) (outcome : ControllerGenerationState)
  | recordProfileDrift (generation : ℕ) (reason : String)
  | resetDelivery (request : ResetRequest)
  | markLaunchAmbiguous (request : AmbiguousLaunch)
  | authorizeReplacement (expectedRevision : ℕ) (reason : String)
  | claimWake
  | recordDelivery (outcome : DeliveryOutcome) (sourceTurnId : Option String)
  | reconcileDelivery (sourceTurnId : String)

/-- What a call reads beside the decision it names. -/
structure DecisionContext where
  decisionId : DecisionKey
  programRevision : ProgramRevision
  fenced : Bool
  turnTaken : String → String → Bool

namespace DecisionOp

/-- The checks of the arguments, before the transaction. -/
def check (env : Env) (now : Time) : DecisionOp → Checked Unit
  | claim q _ => q.check env
  | renew q => q.check env
  | deferRateLimit q => q.check env now
  | acknowledge q => q.check env
  | completeInspection q => q.check
  | prepareGeneration _ promptSha256 =>
    ensure (promptSha256.all isSha256) (.valueError "controller prompt digest is invalid")
  | bindThread _ threadId =>
    ensure (env.isThreadIdentity threadId) (.valueError "thread identity is invalid")
  | bindTurn q => q.check env
  | completeGeneration _ outcome =>
    ensure (outcome ∈ [.completed, .failed, .interrupted, .unavailable, .ambiguous, .superseded])
      (.valueError "controller generation outcome is not terminal")
  | recordProfileDrift _ reason =>
    ensure (env.isReason reason) (.valueError "controller profile-drift reason is invalid")
  | authorizeReplacement _ reason =>
    ensure (env.isReason reason) (.valueError "controller replacement reason is invalid")
  | reconcileDelivery sourceTurnId =>
    ensure (env.isTurnIdentity sourceTurnId) (.valueError "source wake turn identity is invalid")
  | _ => pure ()

/-- What is raised when there is no such decision. -/
def missing : DecisionOp → LedgerError
  | renew _ => .staleWriter "controller claim token is stale"
  | claimWake => .recordNotFound "wake delivery does not exist"
  | recordDelivery .. => .recordNotFound "wake delivery does not exist"
  | reconcileDelivery _ => .recordNotFound "wake delivery does not exist"
  | _ => .recordNotFound "controller decision does not exist"

/-- A call that reads the wake of a decision needs it to exist. -/
def onWake (p : DecisionRows) (f : Wake → Checked DecisionRows) : Checked DecisionRows :=
  match p.wake with
  | none => .error (.recordNotFound "wake delivery does not exist")
  | some w => f w

/-- The body of a call. -/
def run (env : Env) (context : DecisionContext) (now : Time) (p : DecisionRows) :
    DecisionOp → Checked DecisionRows
  | claim q minted => p.claim env q minted now
  | renew q => p.renew env q now
  | deferRateLimit q => p.deferRateLimit env q now
  | acknowledge q => p.acknowledge env context.decisionId q now
  | expireInspection => p.expireInspection now
  | reserveInspection minted => p.reserveInspection env minted now
  | completeInspection q =>
    p.completeInspection env context.decisionId context.programRevision q now
  | reap => p.reap context.decisionId now
  | prepareGeneration generation promptSha256 =>
    p.prepareGeneration context.fenced generation promptSha256
  | bindThread generation threadId => p.bindThread generation threadId now
  | bindTurn q => p.bindTurn (context.turnTaken q.threadId q.turnId) q
  | completeGeneration generation outcome => p.completeGeneration generation outcome now
  | recordProfileDrift generation reason => p.recordProfileDrift env generation reason now
  | resetDelivery q => p.resetDelivery env q now
  | markLaunchAmbiguous q => p.markLaunchAmbiguous q now
  | authorizeReplacement expectedRevision _ => p.authorizeReplacement expectedRevision now
  | claimWake => onWake p fun w => p.claimWake now w
  | recordDelivery outcome sourceTurnId =>
    onWake p fun w => p.recordDelivery env outcome sourceTurnId now w
  | reconcileDelivery sourceTurnId => onWake p fun w => p.reconcileDelivery sourceTurnId now w

end DecisionOp

/-! ### Rows by decision -/

namespace DispatchRows

variable (r : DispatchRows) (kind : WakeKind) (cycle : ℕ)

/-- `UNIQUE(dispatch_id, kind, cycle_sequence)` -/
def decision? : Option ControllerDecision :=
  r.decisions.find? fun d => d.kind = kind && d.cycleSequence = cycle

def wake? : Option Wake := r.wakes.find? fun w => w.kind = kind && w.cycleSequence = cycle

def setDecision (p : DecisionRows) : DispatchRows :=
  { r with
    decisions := r.decisions.map fun d =>
      if d.kind = kind && d.cycleSequence = cycle then p.decision else d
    wakes := r.wakes.map fun w =>
      if w.kind = kind && w.cycleSequence = cycle then p.wake.getD w else w }

/-- Reads a decision and its wake, and writes what `body` makes of them. -/
def onDecision (missing : LedgerError) (body : DecisionRows → Checked DecisionRows) :
    Checked DispatchRows :=
  match r.decision? kind cycle with
  | none => .error missing
  | some d => do
    let p ← body ⟨d, r.wake? kind cycle⟩
    pure (r.setDecision kind cycle p)

end DispatchRows

/-- Every row of `controller_decision_generations`. -/
def allGenerations (L : Ledger) : List ControllerGeneration :=
  L.dispatches.entries.flatMap (fun entry => entry.2.decisions.flatMap (·.generations)) ++
    L.programDecisions.entries.flatMap fun entry => entry.2.decision.generations

/-- `UNIQUE(controller_thread_id, controller_turn_id)` would be violated. -/
def turnTaken (L : Ledger) (threadId turnId : String) : Bool :=
  L.allGenerations.any fun g =>
    g.controllerThreadId = some threadId && g.controllerTurnId = some turnId

def isFenced (L : Ledger) : Bool := L.harness.any (·.requestedShutdown)

def decisionContext (L : Ledger) (decisionId : DecisionKey) (programRevision : ProgramRevision) :
    DecisionContext := ⟨decisionId, programRevision, L.isFenced, L.turnTaken⟩

def onDispatchDecision (env : Env) (L : Ledger) (dispatchId : DispatchId) (kind : WakeKind)
    (cycle : ℕ) (op : DecisionOp) (now : Time) : Checked Ledger := do
  op.check env now
  L.onDispatch dispatchId op.missing fun r =>
    r.onDecision kind cycle op.missing fun p =>
      op.run env (L.decisionContext (.dispatch dispatchId kind cycle) none) now p

/-- A call on a decision of a program; `capable` says that the retained graph of the program is
supported. -/
def onProgramDecision (env : Env) (L : Ledger) (event : ProgramEvent) (capable : Bool)
    (op : DecisionOp) (now : Time) : Checked Ledger := do
  op.check env now
  match L.programDecisions.get? event with
  | none => .error op.missing
  | some program => do
    ensure capable (.staleWriter "approval_capability_unavailable")
    let p ← op.run env (L.decisionContext (.program event) (some program.programRevision)) now
      ⟨program.decision, none⟩
    pure { L with programDecisions :=
      L.programDecisions.set event { program with decision := p.decision } }

/-! ### Scans -/

/-- A wake that was left in its SDK call is ambiguous. -/
def DispatchRows.reconcileInflight (now : Time) (r : DispatchRows) : DispatchRows :=
  { r with wakes := r.wakes.map fun w =>
    if w.state = .starting then w.moveTo .ambiguous now else w }

/-- `reconcile_inflight_wakes` -/
def reconcileInflightWakes (L : Ledger) (now : Time) : Ledger :=
  { L with dispatches := L.dispatches.map fun _ r => r.reconcileInflight now }

/-- A decision that older versions closed when both deliveries failed. -/
def DispatchRows.isExhausted (r : DispatchRows) (d : ControllerDecision) : Bool :=
  d.state = .humanAttentionRequired && d.action.isNone && d.claimant.isNone &&
    d.humanAttentionReason = some "source wake delivery budget exhausted" &&
    (r.wake? d.kind d.cycleSequence).any (fun w => w.state = .failed && w.attemptCount = 2) &&
    d.generation.state = .prepared && d.generation.controllerThreadId.isNone &&
    d.generation.controllerTurnId.isNone

/-- The decision is open again, in a window of 300 seconds at least. -/
def ControllerDecision.reopen (now : Time) (d : ControllerDecision) : ControllerDecision :=
  { d with
    state := .awaitingClaim, revision := d.revision + 1
    deadline := max d.deadline (now + seconds 300)
    humanAttentionReason := none, updatedAt := now }

def DispatchRows.reconcileExhausted (now : Time) (r : DispatchRows) : DispatchRows :=
  { r with decisions := r.decisions.map fun d => if r.isExhausted d then d.reopen now else d }

/-- `reconcile_exhausted_wake_notifications` -/
def reconcileExhaustedWakes (L : Ledger) (now : Time) : Ledger :=
  { L with dispatches := L.dispatches.map fun _ r => r.reconcileExhausted now }

end CodexFlow.Ledger
