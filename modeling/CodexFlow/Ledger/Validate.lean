import CodexFlow.Ledger.Rows
import Mathlib

/-!
# Row validation

What the ledger checks of its rows before and after the body of every transaction, table by table,
together with the `CHECK`s and keys of the tables. `keys` are the identities in the queue.
-/

namespace CodexFlow.Ledger

namespace QueueState

def isTerminal (s : QueueState) : Bool := s = .completed || s = .failed

/-- The states that carry no result fact. -/
def isNonterminal (s : QueueState) : Bool :=
  s ∈ [.queued, .claimed, .starting, .running, .recoveryInspectionPending, .recoveryRetryWait,
    .recoveryContinuationPending, .humanAttentionRequired]

end QueueState

/-! ### Controller decisions -/

namespace ControllerGeneration

variable (env : Env) (g : ControllerGeneration)

/-- The columns of an inspection agree with one another and with the state of its generation. -/
def InspectionValid (i : ControllerInspection) : Prop :=
  i.tokenSha256.all isSha256 ∧
  (i.leaseExpiresAt.isSome → i.tokenSha256.isSome) ∧
  i.leaseExpiresAt.isSome = i.completedAt.isNone ∧
  i.completedAt.isSome = i.outcome.isSome ∧
  (∀ outcome ∈ i.outcome,
    outcome ∉ [.prepared, .deliveryStarting, .superseded] ∧ g.state = outcome) ∧
  i.bundle.isSome = decide (i.outcome = some .completed)

/-- The identities and times of a generation fit its state. -/
def Valid : Prop :=
  (∀ i ∈ g.inspection, g.InspectionValid i) ∧
  g.controllerThreadId.all env.isThreadIdentity ∧
  (g.controllerTurnId.isSome → g.controllerThreadId.isSome) ∧
  (g.state = .active → g.controllerThreadId.isSome ∧ g.startedAt.isSome) ∧
  (g.state ∈ [.completed, .failed, .interrupted, .ambiguous, .unavailable] →
    g.terminalAt.isSome) ∧
  (g.state ∈ [.prepared, .deliveryStarting, .active] → g.terminalAt = none)

def inspected : Option (ActionBundle × String) := g.inspection.bind (·.bundle)

end ControllerGeneration

/-- The digest that a completed inspection keeps of the model claim it was made under. -/
def Claimant.auditSha256 (env : Env) (c : Claimant) (decisionId : DecisionKey)
    (generation revision : ℕ) : String :=
  env.sha256 (env.claimantAuditJson
    ⟨decisionId, generation, revision, c.kind, c.claimantId, c.claimTokenSha256, c.claimStartedAt⟩)

namespace ControllerDecision

variable (env : Env) (decisionId : DecisionKey) (d : ControllerDecision)

def generations : List ControllerGeneration := d.earlier ++ [d.generation]

/-- An inspected bundle is that of its generation, inspected under the model claim of the
decision. -/
def InspectedValid (generation : ℕ) (g : ControllerGeneration) : Prop :=
  ∀ inspected ∈ g.inspected,
    env.bundleSha256 inspected.1 = inspected.2 ∧ inspected.1.hasWireShape ∧
    inspected.1.decisionId = decisionId ∧ inspected.1.generation = generation ∧
    d.claimant.any fun c => c.kind = .model &&
      g.inspection.bind (·.tokenSha256) =
        some (c.auditSha256 env decisionId generation inspected.1.revision)

/-- The generations, with the budget that the table's `CHECK`s keep. -/
def GenerationsValid : Prop :=
  d.currentGeneration ≤ 2 ∧ d.generationBudget ≤ 2 ∧ d.generationUsed ≤ d.generationBudget ∧
  (∀ g ∈ d.generations, g.Valid env) ∧
  ∀ entry ∈ d.generations.zipIdx 1, d.InspectedValid env decisionId entry.2 entry.1

def ReceiptValid (bundleRevision : ℕ → ActionBundle → Prop) : Prop :=
  d.action.isSome = d.outbox.isSome ∧
  ∀ o ∈ d.outbox,
    d.action = some ⟨o.actionId, o.bundle, o.bundleSha256, o.committedAt⟩ ∧
    o.acknowledgedAt = d.acknowledgedAt ∧
    o.generation = d.currentGeneration ∧ o.expectedRevision + 1 = d.revision ∧
    (d.claimant.any fun c => c.kind = o.claimantKind && c.claimantId = o.claimantId) ∧
    env.bundleSha256 o.bundle = o.bundleSha256 ∧ o.bundle.hasWireShape ∧
    o.bundle.actionId env = o.actionId ∧ o.bundle.decisionId = decisionId ∧
    o.bundle.generation = o.generation ∧ bundleRevision o.expectedRevision o.bundle ∧
    (d.state = .actionCommitted → o.acknowledgedAt = none) ∧
    (d.state = .acknowledged → o.acknowledgedAt.isSome) ∧
    ∀ inspected ∈ d.generation.inspected, inspected = (o.bundle, o.bundleSha256)

/-- The bundle of a dispatch decision, made for the revision it was committed at. -/
def bundleOfRevision (revision : ℕ) : ActionBundle → Prop
  | .dispatch b => b.expectedRevision = revision
  | .program _ => False

/-- The bundle of a program decision, made for the program revision of the decision. -/
def bundleOfProgram (programRevision : ℕ) : ActionBundle → Prop
  | .dispatch _ => False
  | .program b => b.expectedProgramRevision = programRevision

/-- The row of a dispatch decision, its generations and its receipt. -/
structure Valid : Prop where
  cycle : 1 ≤ d.cycleSequence ∧ d.cycleSequence ≤ 64
  generations : d.GenerationsValid env decisionId
  lease : d.claimLeaseExpiresAt.isSome = decide (d.state = .claimed)
  claimed : d.state = .claimed → d.claimant.isSome
  /-- Only a completed inspection keeps the claimant of a decision that waits for a claim. -/
  unclaimed : d.state ∈ [.awaitingClaim, .pendingDelivery] → d.claimant.isSome →
    d.state = .awaitingClaim ∧ (d.claimant.any (·.kind = .model)) ∧ d.generation.inspected.isSome
  attention : d.state = .humanAttentionRequired → d.claimant.isSome = d.action.isSome
  committed : d.state ∈ [.actionCommitted, .acknowledged] → d.action.isSome
  acted : d.action.isSome →
    d.state ∈ [.actionCommitted, .acknowledged, .humanAttentionRequired]
  receipt : d.ReceiptValid env decisionId bundleOfRevision
  acknowledged : (d.acknowledgedAt.isSome → d.state ∈ [.acknowledged, .humanAttentionRequired]) ∧
    (d.state = .acknowledged → d.acknowledgedAt.isSome)
  superseded : d.supersededAt.isSome = decide (d.state = .superseded)
  reason : d.humanAttentionReason.isSome = decide (d.state = .humanAttentionRequired) ∧
    d.humanAttentionReason.all fun text => !env.isBlank text

end ControllerDecision

structure ProgramDecision.Valid (env : Env) (event : ProgramEvent) (p : ProgramDecision) : Prop where
  generations : p.decision.GenerationsValid env (.program event)
  claimed : p.decision.state = .claimed →
    p.decision.claimant.isSome ∧ p.decision.claimLeaseExpiresAt.isSome
  committed : p.decision.state ∈ [.actionCommitted, .acknowledged] → p.decision.action.isSome
  receipt : p.decision.ReceiptValid env (.program event) fun _ =>
    ControllerDecision.bundleOfProgram p.programRevision
  acknowledged : (p.decision.action.isSome →
      p.decision.acknowledgedAt.isSome →
      p.decision.state ∈ [.acknowledged, .humanAttentionRequired]) ∧
    (p.decision.state = .acknowledged → p.decision.acknowledgedAt.isSome)
  reason : p.decision.humanAttentionReason.isSome =
    decide (p.decision.state = .humanAttentionRequired)

instance (g : ControllerGeneration) (i : ControllerInspection) : Decidable (g.InspectionValid i) := by
  unfold ControllerGeneration.InspectionValid; infer_instance
instance (env : Env) (g : ControllerGeneration) : Decidable (g.Valid env) := by
  unfold ControllerGeneration.Valid; infer_instance

namespace ControllerDecision

variable (env : Env) (decisionId : DecisionKey) (d : ControllerDecision)

instance (generation : ℕ) (g : ControllerGeneration) :
    Decidable (d.InspectedValid env decisionId generation g) := by
  unfold InspectedValid; infer_instance
instance : Decidable (d.GenerationsValid env decisionId) := by
  unfold GenerationsValid; infer_instance
instance (revision : ℕ) (bundle : ActionBundle) : Decidable (bundleOfRevision revision bundle) := by
  cases bundle <;> unfold bundleOfRevision <;> infer_instance
instance (revision : ℕ) (bundle : ActionBundle) : Decidable (bundleOfProgram revision bundle) := by
  cases bundle <;> unfold bundleOfProgram <;> infer_instance
instance (bundleRevision : ℕ → ActionBundle → Prop)
    [∀ revision bundle, Decidable (bundleRevision revision bundle)] :
    Decidable (d.ReceiptValid env decisionId bundleRevision) := by
  unfold ReceiptValid; infer_instance

instance : Decidable (d.Valid env decisionId) :=
  decidable_of_iff
    ((1 ≤ d.cycleSequence ∧ d.cycleSequence ≤ 64) ∧ d.GenerationsValid env decisionId ∧
      d.claimLeaseExpiresAt.isSome = decide (d.state = .claimed) ∧
      (d.state = .claimed → d.claimant.isSome) ∧
      (d.state ∈ [.awaitingClaim, .pendingDelivery] → d.claimant.isSome →
        d.state = .awaitingClaim ∧ (d.claimant.any (·.kind = .model)) ∧
          d.generation.inspected.isSome) ∧
      (d.state = .humanAttentionRequired → d.claimant.isSome = d.action.isSome) ∧
      (d.state ∈ [.actionCommitted, .acknowledged] → d.action.isSome) ∧
      (d.action.isSome → d.state ∈ [.actionCommitted, .acknowledged, .humanAttentionRequired]) ∧
      d.ReceiptValid env decisionId bundleOfRevision ∧
      ((d.acknowledgedAt.isSome → d.state ∈ [.acknowledged, .humanAttentionRequired]) ∧
        (d.state = .acknowledged → d.acknowledgedAt.isSome)) ∧
      d.supersededAt.isSome = decide (d.state = .superseded) ∧
      d.humanAttentionReason.isSome = decide (d.state = .humanAttentionRequired) ∧
        d.humanAttentionReason.all fun text => !env.isBlank text)
    ⟨fun ⟨h1, h2, h3, h4, h5, h6, h7, h8, h9, h10, h11, h12⟩ =>
      ⟨h1, h2, h3, h4, h5, h6, h7, h8, h9, h10, h11, h12⟩,
     fun h => ⟨h.cycle, h.generations, h.lease, h.claimed, h.unclaimed, h.attention, h.committed,
      h.acted, h.receipt, h.acknowledged, h.superseded, h.reason⟩⟩

end ControllerDecision

instance (env : Env) (event : ProgramEvent) (p : ProgramDecision) : Decidable (p.Valid env event) :=
  decidable_of_iff
    (p.decision.GenerationsValid env (.program event) ∧
      (p.decision.state = .claimed →
        p.decision.claimant.isSome ∧ p.decision.claimLeaseExpiresAt.isSome) ∧
      (p.decision.state ∈ [.actionCommitted, .acknowledged] → p.decision.action.isSome) ∧
      (p.decision.ReceiptValid env (.program event) fun _ =>
        ControllerDecision.bundleOfProgram p.programRevision) ∧
      ((p.decision.action.isSome → p.decision.acknowledgedAt.isSome →
          p.decision.state ∈ [.acknowledged, .humanAttentionRequired]) ∧
        (p.decision.state = .acknowledged → p.decision.acknowledgedAt.isSome)) ∧
      p.decision.humanAttentionReason.isSome =
        decide (p.decision.state = .humanAttentionRequired))
    ⟨fun ⟨h1, h2, h3, h4, h5, h6⟩ => ⟨h1, h2, h3, h4, h5, h6⟩,
     fun h => ⟨h.generations, h.claimed, h.committed, h.receipt, h.acknowledged, h.reason⟩⟩

namespace DispatchRows

variable (env : Env) (keys : List DispatchId) (dispatchId : DispatchId) (r : DispatchRows)

def rawSha256 : Option String := r.queue.raw.map (·.sha256)

/-- Only the second generation of an executor outside a program is a control repair. -/
def isControlRepair : Bool :=
  r.queue.role = "executor" && r.queue.generation = 2 && !r.queue.inProgram

def IntegrityValid : Prop :=
  ∀ i ∈ r.integrity, r.isControlRepair ∧
    (i.resultSha256 = none → r.queue.raw = none ∧ r.queue.terminalStatus = none ∧
      r.queue.state ∈ [.starting, .running, .recoveryInspectionPending, .recoveryRetryWait,
        .recoveryContinuationPending, .humanAttentionRequired]) ∧
    (i.resultSha256.isSome → r.queue.state ∈ [.resultSubmitted, .completed, .failed] ∧
      r.queue.terminalStatus.isSome ∧ r.rawSha256 = i.resultSha256)

def ResultValid : Prop :=
  r.queue.state.isTerminal → ∀ raw ∈ r.queue.raw,
    raw.json.utf8ByteSize ≤ 65536 ∧
    env.sha256 raw.json = raw.sha256 ∧
    (env.parseQueueResult r.queue.resultContractSha256 raw.json).toOption.isSome ∧
    (env.parseQueueResult r.queue.resultContractSha256 raw.json).toOption = r.queue.terminalStatus

def CapabilityValid : Prop :=
  ∀ c ∈ r.capability,
    c.generation = r.queue.generation ∧ c.attempt = r.queue.attempt ∧
    c.backend = r.queue.backend ∧ c.workspacePath = r.queue.workspacePath ∧
    c.schemaSha256 = r.queue.resultContractSha256 ∧
    c.consumedAt.isSome = c.acceptedResultSha256.isSome ∧
    r.queue.state ≠ .cancelled ∧
    (c.consumedAt.isSome →
      r.queue.state ∈ [.resultSubmitted, .finalizing, .completed, .failed] ∧
      r.rawSha256 = c.acceptedResultSha256)

def QueueValid : Prop :=
  0 < r.queue.attempt ∧ 0 < r.queue.generation ∧
  (r.queue.state ∈ [.resultSubmitted, .completed, .failed] →
    r.queue.raw.isSome ∧ r.queue.terminalStatus.isSome) ∧
  (r.queue.state.isNonterminal → r.queue.raw = none ∧ r.queue.terminalStatus.getD "" = "") ∧
  (r.queue.state = .cancelled →
    r.queue.raw = none ∧ r.queue.terminalStatus = none ∧ r.queue.claim = none)

def OutboxValid : Prop :=
  (r.queue.state.isTerminal → r.successorOutbox.isSome ∧ r.notificationOutbox.isSome) ∧
  (r.queue.state = .cancelled → r.successorOutbox = none ∧ r.notificationOutbox = none) ∧
  (∀ s ∈ r.successorOutbox,
    (s.outcome = .enqueued →
      (s.successorDispatchId.any fun id => id ≠ dispatchId && keys.contains id) ∧
        s.completedAt.isSome) ∧
    (s.outcome = .notRequired → s.successorDispatchId = none) ∧
    (s.outcome = .pending → s.completedAt = none)) ∧
  ∀ n ∈ r.notificationOutbox,
    n.outcome ∈ [.attemptedOk, .attemptedFailed] → n.attemptedAt.isSome

def LivenessValid : Prop :=
  ∀ l ∈ r.liveness,
    l.generation = r.queue.generation ∧ l.attempt = r.queue.attempt ∧
    (l.exitedAt.isSome → r.queue.state ∉ [.queued, .claimed, .starting, .running]) ∧
    (r.queue.state = .cancelled → l.exitedAt.isSome)

def SuccessorsValid : Prop :=
  (r.successors.map (·.successorDispatchId)).Nodup ∧
  ∀ a ∈ r.successors,
    a.successorDispatchId ≠ dispatchId ∧ a.successorDispatchId ∈ keys ∧
    (a.releasedAt.isSome → r.queue.state.isTerminal)

def checkpointCycles : List ℕ :=
  (r.wakes.filter (·.kind = .checkpoint)).map (·.cycleSequence)

def terminalWakes : List Wake := r.wakes.filter (·.kind = .terminal)

def payloadValid (w : Wake) : Bool :=
  match w.kind, w.payload with
  | .terminal, .terminal state resultSha256 =>
    state = r.queue.state && resultSha256 = r.rawSha256
  | .checkpoint, .direct _ => true
  | .checkpoint, .rearmed state _ =>
    state = r.queue.state &&
      state ∈ [.queued, .claimed, .starting, .running, .resultSubmitted, .humanAttentionRequired]
  | .checkpoint, .snapshot state _ _ startedAt =>
    startedAt = r.queue.createdAt &&
      state ∈ [.claimed, .starting, .running, .resultSubmitted, .humanAttentionRequired]
  | _, _ => false

def WakeValid (w : Wake) : Prop :=
  (1 ≤ w.cycleSequence ∧ w.cycleSequence ≤ 64) ∧
  (∃ decision ∈ r.decisions, decision.kind = w.kind ∧ decision.cycleSequence = w.cycleSequence) ∧
  (w.sourceThreadId = r.binding.sourceThreadId ∨ w.state = .suppressed) ∧
  (if w.sourceThreadId.isSome then w.state ≠ .notApplicable
    else w.state ∈ [.notApplicable, .suppressed]) ∧
  (w.sourceTurnId.isSome = decide (w.state = .delivered)) ∧
  w.attemptCount ≤ 2 ∧
  (w.state = .pending → w.attemptCount < 2) ∧ (w.state = .failed → w.attemptCount = 2) ∧
  r.payloadValid w

def WakesValid : Prop :=
  (∀ w ∈ r.wakes, r.WakeValid w) ∧
  r.checkpointCycles.length ≤ 64 ∧
  r.checkpointCycles.Perm (List.range' 1 r.checkpointCycles.length) ∧
  r.terminalWakes.length ≤ 1 ∧
  (r.queue.state.isTerminal → r.terminalWakes.length = 1) ∧
  (r.queue.state = .cancelled → r.wakes = [])

def RecoveryValid : Prop :=
  r.recovery.profileSha256.all isSha256 ∧ r.recovery.providerEnvKey.all isEnvironmentKey ∧
  r.recovery.inspection.budget ≤ 16 ∧ r.recovery.continuation.budget ≤ 8 ∧
  r.recovery.freshThread.budget ≤ 4 ∧
  r.recovery.humanAttentionReason.isSome =
    decide (r.recovery.recoveryState = .humanAttentionRequired) ∧
  r.recovery.nextEligibleAt.isSome =
    decide (r.recovery.recoveryState ∈ [.retryWait, .continuationPending]) ∧
  ∀ state ∈ r.recovery.recoveryState.queueState, r.queue.state = state

def PolicyValid : Prop :=
  r.policy.preIdentity.budget ≤ 5 ∧ r.policy.invalidChain.budget ≤ 1 ∧
  r.policy.schemaEnvelope.budget ≤ 2 ∧ r.policy.postIdentityLoss.budget ≤ 1 ∧
  r.policy.providerTransient.budget ≤ 4 ∧ r.policy.providerTransientGrantUsed ≤ 1 ∧
  r.policy.providerTransient.budget ≤ 3 + r.policy.providerTransientGrantUsed ∧
  r.policy.humanAttentionReason.isSome = decide (r.policy.strategy = .humanAttention)

def ControlsValid : Prop :=
  ∀ a ∈ r.controls,
    a.appliedRevision = a.expectedRevision + 1 ∧
    !env.isBlank a.reason ∧ a.reason.utf8ByteSize ≤ 512 ∧
    a.requestedBudget.isSome = decide (a.actionKind = .budgetChange) ∧
    a.compatibilityRebind.isSome = decide (a.actionKind = .compatibilityRebind)

def wakeAgrees (decision : ControllerDecision) (w : Wake) : Prop :=
  (w.state = .pending → decision.state = .pendingDelivery) ∧
  (decision.state = .pendingDelivery → w.state ∈ [.pending, .starting, .failed, .ambiguous]) ∧
  (decision.state = .awaitingClaim →
    w.state ∈ [.delivered, .notApplicable, .suppressed, .failed])

def wakeOf (decision : ControllerDecision) : Option Wake :=
  r.wakes.find? fun w => w.kind = decision.kind && w.cycleSequence = decision.cycleSequence

def DecisionValid (decision : ControllerDecision) : Prop :=
  decision.Valid env (.dispatch dispatchId decision.kind decision.cycleSequence) ∧
  (r.wakeOf decision = none →
    decision.state ∈ [.actionCommitted, .acknowledged, .superseded, .legacyClosed]) ∧
  ∀ w ∈ r.wakeOf decision, wakeAgrees decision w

def DecisionsValid : Prop :=
  (r.decisions.map fun decision => (decision.kind, decision.cycleSequence)).Nodup ∧
  ∀ decision ∈ r.decisions, r.DecisionValid env dispatchId decision

/-- The rows of one dispatch pass every check. -/
structure Valid : Prop where
  integrity : r.IntegrityValid
  result : r.ResultValid env
  capability : r.CapabilityValid
  queue : r.QueueValid
  outbox : r.OutboxValid keys dispatchId
  liveness : r.LivenessValid
  successors : r.SuccessorsValid keys dispatchId
  wakes : r.WakesValid
  recovery : r.RecoveryValid
  policy : r.PolicyValid
  controls : r.ControlsValid env
  decisions : r.DecisionsValid env dispatchId

instance : Decidable r.IntegrityValid := by unfold IntegrityValid; infer_instance
instance : Decidable (r.ResultValid env) := by unfold ResultValid; infer_instance
instance : Decidable r.CapabilityValid := by unfold CapabilityValid; infer_instance
instance : Decidable r.QueueValid := by unfold QueueValid; infer_instance
instance : Decidable (r.OutboxValid keys dispatchId) := by unfold OutboxValid; infer_instance
instance : Decidable r.LivenessValid := by unfold LivenessValid; infer_instance
instance : Decidable (r.SuccessorsValid keys dispatchId) := by
  unfold SuccessorsValid; infer_instance
instance (w : Wake) : Decidable (r.WakeValid w) := by unfold WakeValid; infer_instance
instance : Decidable r.WakesValid := by unfold WakesValid; infer_instance
instance : Decidable r.RecoveryValid := by unfold RecoveryValid; infer_instance
instance : Decidable r.PolicyValid := by unfold PolicyValid; infer_instance
instance : Decidable (r.ControlsValid env) := by unfold ControlsValid; infer_instance
instance (decision : ControllerDecision) (w : Wake) : Decidable (wakeAgrees decision w) := by
  unfold wakeAgrees; infer_instance
instance (decision : ControllerDecision) : Decidable (r.DecisionValid env dispatchId decision) := by
  unfold DecisionValid; infer_instance
instance : Decidable (r.DecisionsValid env dispatchId) := by unfold DecisionsValid; infer_instance

instance : Decidable (r.Valid env keys dispatchId) :=
  decidable_of_iff
    (r.IntegrityValid ∧ r.ResultValid env ∧ r.CapabilityValid ∧ r.QueueValid ∧
      r.OutboxValid keys dispatchId ∧ r.LivenessValid ∧ r.SuccessorsValid keys dispatchId ∧
      r.WakesValid ∧ r.RecoveryValid ∧ r.PolicyValid ∧ r.ControlsValid env ∧
      r.DecisionsValid env dispatchId)
    ⟨fun ⟨h1, h2, h3, h4, h5, h6, h7, h8, h9, h10, h11, h12⟩ =>
      ⟨h1, h2, h3, h4, h5, h6, h7, h8, h9, h10, h11, h12⟩,
     fun h => ⟨h.integrity, h.result, h.capability, h.queue, h.outbox, h.liveness, h.successors,
      h.wakes, h.recovery, h.policy, h.controls, h.decisions⟩⟩

end DispatchRows

/-- `_validate_rows`, on the rows the model keeps. -/
def Valid (env : Env) (L : Ledger) : Prop :=
  (∀ entry ∈ L.dispatches.entries, entry.2.Valid env L.dispatches.keys entry.1) ∧
  ∀ entry ∈ L.programDecisions.entries, entry.2.Valid env entry.1

instance (env : Env) (L : Ledger) : Decidable (L.Valid env) := by unfold Valid; infer_instance

end CodexFlow.Ledger
