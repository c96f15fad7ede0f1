import CodexFlow.Ledger.Action
import Mathlib

/-!
# Wakes and checkpoints

A controller is woken by a wake with a decision of the same kind and cycle. A dispatch has at most
64 checkpoint cycles.
-/

namespace CodexFlow.Ledger

open Checked

/-- A generation that no process has started yet. -/
def ControllerGeneration.prepared : ControllerGeneration where
  state := .prepared
  promptSha256 := none
  controllerThreadId := none
  controllerTurnId := none
  inspection := none
  startedAt := none
  terminalAt := none

def newDecisionState (wakeState : WakeState) (queueState : QueueState)
    (sourceThreadId : Option String) : ControllerDecisionState :=
  if wakeState = .pending then .pendingDelivery
  else if queueState ∈ [.completed, .failed, .cancelled] && sourceThreadId.isNone then .legacyClosed
  else .awaitingClaim

def DispatchRows.hasDecision (r : DispatchRows) (kind : WakeKind) (cycle : ℕ) : Bool :=
  r.decisions.any fun d => d.kind = kind && d.cycleSequence = cycle

def DispatchRows.hasWake (r : DispatchRows) (kind : WakeKind) (cycle : ℕ) : Bool :=
  r.wakes.any fun w => w.kind = kind && w.cycleSequence = cycle

/-- A wake that is about to be inserted; a suppressed one is never delivered. -/
structure NewWake where
  kind : WakeKind
  cycleSequence : ℕ
  sourceThreadId : Option String
  payload : WakePayload
  queueState : QueueState
  suppressed : Bool := false

namespace NewWake

variable (w : NewWake) (now : Time)

def state : WakeState :=
  if w.suppressed then .suppressed
  else if w.sourceThreadId.isSome then .pending else .notApplicable

def wake : Wake where
  kind := w.kind
  cycleSequence := w.cycleSequence
  sourceThreadId := w.sourceThreadId
  payload := w.payload
  state := w.state
  attemptCount := 0
  sourceTurnId := none
  createdAt := now
  updatedAt := now

def decisionUntil (deadline : Time) : ControllerDecision where
  kind := w.kind
  cycleSequence := w.cycleSequence
  sourceThreadId := w.sourceThreadId
  state := newDecisionState w.state w.queueState w.sourceThreadId
  revision := 0
  earlier := []
  generation := .prepared
  generationBudget := 2
  generationUsed := 0
  claimant := none
  claimLeaseExpiresAt := none
  action := none
  outbox := none
  acknowledgedAt := none
  supersededAt := none
  deadline := deadline
  humanAttentionReason := none
  createdAt := now
  updatedAt := now

def decision (current : Time) : ControllerDecision := w.decisionUntil now (current + seconds 300)

end NewWake

/-- `_ensure_controller_decision_in_transaction`: a decision that exists is left as it is. -/
def DispatchRows.ensureControllerDecision (r : DispatchRows) (w : NewWake) (deadline now : Time) :
    Checked DispatchRows := do
  ensure (1 ≤ w.cycleSequence ∧ w.cycleSequence ≤ 64)
    (.valueError "controller decision cycle sequence is invalid")
  pure (if r.hasDecision w.kind w.cycleSequence then r
    else { r with decisions := r.decisions ++ [w.decisionUntil now deadline] })

def DispatchRows.insertWake (r : DispatchRows) (w : NewWake) (current now : Time) :
    Checked DispatchRows := do
  let r' ← r.ensureControllerDecision w (current + seconds 300) now
  ensure (!r'.hasWake w.kind w.cycleSequence) .integrityError
  pure { r' with wakes := r'.wakes ++ [w.wake current] }

/-! ### Checkpoints -/

/-- `COALESCE(MAX(cycle_sequence), 0)` over the checkpoint wakes. -/
def DispatchRows.latestCycle (r : DispatchRows) : ℕ := r.checkpointCycles.foldr max 0

def DispatchRows.checkpointDue (r : DispatchRows) (current : Time) : Bool :=
  r.queue.state ∈ [.claimed, .starting, .running, .resultSubmitted, .humanAttentionRequired] &&
    r.binding.checkpointDeadline.any (· ≤ current)

/-- The due dispatch with the earliest deadline, then the lowest sequence. -/
def firstDue (L : Ledger) (current : Time) : Option (DispatchId × DispatchRows) :=
  (L.dispatches.entries.filter fun entry => entry.2.checkpointDue current).argmin fun entry =>
    toLex (entry.2.binding.checkpointDeadline.getD 0, entry.2.queue.sequence)

def DispatchRows.checkpointWake (r : DispatchRows) : NewWake where
  kind := .checkpoint
  cycleSequence := r.latestCycle + 1
  sourceThreadId := r.binding.sourceThreadId
  payload := .snapshot r.queue.state r.queue.threadId
    (r.liveness.map fun l => ⟨l.pid, l.processBirthIdentity, l.lastSeenAt, l.leaseExpiresAt⟩)
    r.queue.createdAt
  queueState := r.queue.state

/-- Serving a due checkpoint. The disarm of an exhausted dispatch is followed by a raise, which
rolls it back. -/
def DispatchRows.serveCheckpoint (r : DispatchRows) (current now : Time) : Checked DispatchRows := do
  let disarmed := { r with binding := r.binding.disarm current }
  ensure (r.latestCycle + 1 ≤ 64) (.staleWriter "checkpoint cycle budget exhausted")
  disarmed.insertWake r.checkpointWake current now

def claimDueCheckpoint (L : Ledger) (epoch : ℕ) (current now : Time) :
    Checked (Ledger × Option DispatchId) := do
  L.requireLiveHarness epoch now
  match L.firstDue current with
  | none => pure (L, none)
  | some (dispatchId, r) => do
    let r' ← r.serveCheckpoint current now
    pure ({ L with dispatches := L.dispatches.set dispatchId r' }, some dispatchId)

def DispatchRows.checkpointWakes (r : DispatchRows) : List Wake :=
  r.wakes.filter (·.kind = .checkpoint)

def DispatchRows.checkpointDecisions (r : DispatchRows) : List ControllerDecision :=
  r.decisions.filter (·.kind = .checkpoint)

def rearmCheckpoint (L : Ledger) (dispatchId : DispatchId) (duration : ℕ) (now : Time) :
    Checked Ledger := do
  ensure (0 < duration) (.valueError "lease/checkpoint duration must be positive")
  L.onDispatch dispatchId (queueMissing dispatchId) fun r => do
    ensure (r.queue.state ∉ [.completed, .failed, .cancelled])
      (.staleWriter "terminal dispatch cannot re-arm a checkpoint")
    ensure ((r.checkpointWakes.argmax (·.cycleSequence)).all fun w =>
        w.state ∉ [.pending, .starting])
      (.staleWriter "checkpoint wake is already active")
    ensure ((r.checkpointDecisions.argmax (·.cycleSequence)).all fun d =>
        d.state ∈ [.awaitingClaim, .acknowledged, .superseded, .legacyClosed,
          .humanAttentionRequired])
      (.staleWriter "checkpoint decision is still active")
    ensure r.binding.checkpointDeadline.isNone (.staleWriter "checkpoint is already armed")
    pure { r with binding := { r.binding with
      checkpointDeadline := some (now + duration), updatedAt := now } }

end CodexFlow.Ledger
