import CodexFlow.Ledger.Submit

/-!
# Program decisions

The decisions that the events of a program open, claim and commit. What the program tables say is an
argument: the revision, the plan and the trunk of the program, and whether its effects are accepted.
-/

namespace CodexFlow.Ledger

open Checked

/-- What the row of a program says; `capable` holds when its retained graph is supported. -/
structure ProgramFacts where
  capable : Bool
  programRevision : ℕ
  planDigest : String
  trunkHead : String

def ProgramFacts.requireCapability (f : ProgramFacts) : Checked Unit :=
  ensure f.capable (.staleWriter "approval_capability_unavailable")

/-- `[A-Za-z0-9][A-Za-z0-9_./:-]{0,255}` -/
def isEventKey (text : String) : Bool :=
  text.length ≤ 256 &&
    match text.toList with
    | [] => false
    | c :: rest =>
      c.isAlphanum && rest.all fun d => d.isAlphanum || d ∈ ['_', '.', '/', ':', '-']

/-! ### Events -/

def ProgramFacts.decision (f : ProgramFacts) (deadline now : Time) : ProgramDecision where
  programRevision := f.programRevision
  decision :=
    { kind := .terminal
      cycleSequence := 1
      sourceThreadId := none
      state := .awaitingClaim
      revision := 0
      earlier := []
      generation := .prepared
      generationBudget := 2
      generationUsed := 0
      claimant := none
      claimLeaseExpiresAt := none
      action := none
      outbox := none
      acknowledgedAt := none
      supersededAt := none
      deadline := deadline
      humanAttentionReason := none
      createdAt := now
      updatedAt := now }

/-- `_ensure_program_decision_in_transaction`: an event that exists keeps its decision. -/
def ensureProgramDecision (L : Ledger) (event : ProgramEvent) (f : ProgramFacts)
    (deadline : Option Time) (now : Time) : Checked Ledger := do
  ensure (isEventKey event.eventKey) (.valueError "program event key is invalid")
  f.requireCapability
  match L.programDecisions.get? event with
  | some _ => pure L
  | none => do
    ensure (L.programDecisions.keys.all fun e =>
        ¬(e.programId = event.programId ∧ e.eventKey = event.eventKey)) .integrityError
    pure { L with programDecisions :=
      L.programDecisions.insert event (f.decision (deadline.getD (now + seconds 300)) now) }

def ControllerDecision.supersedeOpen (now : Time) (d : ControllerDecision) : ControllerDecision :=
  if d.action.isNone && d.state ∈ [.awaitingClaim, .claimed, .humanAttentionRequired] then
    { d with
      state := .superseded, supersededAt := some now, claimLeaseExpiresAt := none
      humanAttentionReason := none, updatedAt := now }
  else d

def ProgramDecision.supersedeIf (c : Bool) (now : Time) (p : ProgramDecision) : ProgramDecision :=
  if c then { p with decision := p.decision.supersedeOpen now } else p

/-- A checkpoint retires the decisions of the program's revision that defer to an active writer. -/
def coalesceCheckpoint (L : Ledger) (programId : String) (f : ProgramFacts) (now : Time) : Ledger :=
  { L with programDecisions := L.programDecisions.map fun event p =>
    p.supersedeIf (event.programId = programId && p.programRevision = f.programRevision &&
      p.decision.generation.inspectionOutcome = some .active) now }

/-- `record_program_event`; the other operations of a program open their events without a
checkpoint. -/
def recordProgramEvent (L : Ledger) (event : ProgramEvent) (f : ProgramFacts)
    (deadline : Option Time) (now : Time) : Checked Ledger := do
  f.requireCapability
  let coalesced :=
    if event.eventKind = .checkpoint then L.coalesceCheckpoint event.programId f now else L
  coalesced.ensureProgramDecision event f deadline now

/-- A decision for an earlier revision of its program, still open. -/
def ProgramDecision.isStale (p : ProgramDecision) (f : ProgramFacts) : Bool :=
  p.programRevision < f.programRevision && p.decision.action.isNone &&
    p.decision.state ∈ [.awaitingClaim, .claimed, .humanAttentionRequired]

/-- The event that stands for the superseded ones. -/
def coalescedEvent (programId : String) (f : ProgramFacts) : ProgramEvent :=
  ⟨programId, .checkpoint, s!"revision/{f.programRevision}/coalesced"⟩

/-- The fresh events of the programs that are still open. -/
def openCoalesced (facts : String → ProgramFacts) (now : Time) :
    List String → Ledger → Checked Ledger
  | [], L => pure L
  | programId :: programs, L => do
    let L' ← L.ensureProgramDecision (coalescedEvent programId (facts programId))
      (facts programId) none now
    openCoalesced facts now programs L'

/-- `reconcile_stale_program_controller_decisions`; `isOpen` says that a program is neither
completed nor failed. -/
def reconcileStaleDecisions (L : Ledger) (facts : String → ProgramFacts) (isOpen : String → Bool)
    (now : Time) : Checked Ledger := do
  ensure (L.programDecisions.keys.all fun event => (facts event.programId).capable)
    (.staleWriter "approval_capability_unavailable")
  let stale := (L.programDecisions.entries.filter fun entry =>
    entry.2.isStale (facts entry.1.programId)).map (·.1.programId)
  openCoalesced facts now (stale.dedup.filter isOpen)
    { L with programDecisions := L.programDecisions.map fun event p =>
      p.supersedeIf (p.isStale (facts event.programId)) now }

/-! ### Claiming -/

/-- `claim_program_controller_decision` -/
def claimProgramDecision (env : Env) (L : Ledger) (event : ProgramEvent) (q : ClaimRequest)
    (f : ProgramFacts) (minted : String) (now : Time) : Checked Ledger := do
  ensure (!env.isBlank q.claimantId ∧ q.claimantId.utf8ByteSize ≤ 256)
    (.valueError "program controller claimant id is invalid")
  match L.programDecisions.get? event with
  | none => .error (.recordNotFound "program controller decision does not exist")
  | some p => do
    let d := p.decision
    ensure (p.programRevision = f.programRevision)
      (.staleWriter "program controller decision belongs to a stale program revision")
    f.requireCapability
    ensure (L.programDecisions.entries.all fun entry =>
        ¬(entry.1 ≠ event ∧ entry.1.programId = event.programId ∧
          entry.2.programRevision = p.programRevision ∧ entry.2.decision.state = .claimed))
      (.staleWriter "another controller generation owns this program revision")
    ensure (q.generation.all (· = d.currentGeneration))
      (.staleWriter "program controller generation is stale")
    ensure (d.state = .awaitingClaim) (.staleWriter "program controller decision is not claimable")
    ensure (d.revision = q.expectedRevision)
      (.staleWriter "program controller decision revision is stale")
    ensure (now < d.deadline) (.staleWriter "program controller decision deadline has expired")
    let tokenHash ← env.claimTokenHash minted
    pure { L with programDecisions := L.programDecisions.set event { p with decision :=
      { d with
        state := .claimed, revision := d.revision + 1, generationUsed := d.generationUsed + 1
        claimant := some ⟨q.claimantKind, q.claimantId, tokenHash, now⟩
        claimLeaseExpiresAt := some (now + q.lease), updatedAt := now } } }

/-! ### Committing -/

/-- The token is empty when a recovery submits the bundle of a completed inspection. -/
structure ProgramSubmitRequest where
  bundle : ProgramActionBundle
  claimantId : String
  token : String
  allowRecovered : Bool := false

namespace ProgramSubmitRequest

variable (env : Env) (q : ProgramSubmitRequest)

def check : Checked Unit :=
  if q.token = "" then
    ensure q.allowRecovered (.valueError "program controller claim token is required")
  else do
    let _ ← env.claimTokenHash q.token
    pure ()

def digest : String := env.bundleSha256 (.program q.bundle)

def isInspected (d : ControllerDecision) : Bool :=
  d.generation.inspectionCompleted && d.generation.inspected.any (·.2 = q.digest env)

/-- The claim, the generation and the facts of the program that the bundle was made under. -/
def authorize (event : ProgramEvent) (f : ProgramFacts) (p : ProgramDecision) : Checked Unit := do
  let d := p.decision
  ensure (q.allowRecovered || d.heldBy (env.sha256 q.token) q.claimantId)
    (.staleWriter "program controller claim is stale")
  if q.allowRecovered then do
    ensure (d.state ∈ [.claimed, .awaitingClaim])
      (.staleWriter "program controller recovery decision is stale")
    ensure d.isModelClaim
      (.staleWriter "program controller recovery claimant is not the model owner")
  else ensure (d.state = .claimed) (.staleWriter "program controller decision revision is stale")
  ensure (d.currentGeneration = q.bundle.generation)
    (.staleWriter "program controller generation is stale")
  ensure (p.programRevision = q.bundle.expectedProgramRevision ∧
      f.programRevision = q.bundle.expectedProgramRevision)
    (.staleWriter "program revision is stale")
  ensure (f.planDigest = q.bundle.planDigest) (.staleWriter "program plan digest is stale")
  ensure (f.trunkHead = q.bundle.expectedTrunkHead) (.staleWriter "program trunk HEAD is stale")
  ensure (q.bundle.eventKind = event.eventKind ∧ q.bundle.eventKey = event.eventKey)
    (.staleWriter "program controller event identity is stale")

def committed (c : Claimant) (now : Time) (d : ControllerDecision) : ControllerDecision :=
  let actionId := (ActionBundle.program q.bundle).actionId env
  { d with
    state := .actionCommitted, revision := d.revision + 1
    action := some ⟨actionId, .program q.bundle, q.digest env, now⟩
    outbox := some
      { actionId := actionId
        generation := q.bundle.generation
        expectedRevision := d.revision
        claimantKind := c.kind
        claimantId := q.claimantId
        bundle := .program q.bundle
        bundleSha256 := q.digest env
        committedAt := now
        acknowledgedAt := none }
    claimLeaseExpiresAt := none, updatedAt := now }

end ProgramSubmitRequest

/-- `submit_program_controller_actions`; `effects` is what the program tables make of the
actions. -/
def submitProgramActions (env : Env) (L : Ledger) (event : ProgramEvent) (q : ProgramSubmitRequest)
    (f : ProgramFacts) (effects : Checked Unit) (now : Time) : Checked Ledger := do
  q.check env
  let missing := LedgerError.recordNotFound "program controller decision does not exist"
  ensure (q.bundle.decisionId = .program event) missing
  match L.programDecisions.get? event with
  | none => .error missing
  | some p => do
    f.requireCapability
    ensure (q.allowRecovered → q.isInspected env p.decision)
      (.staleWriter "program controller recovery bundle is not the inspected bundle")
    match p.decision.outbox with
    | some o => do
      ensure (o.bundleSha256 = q.digest env)
        (.staleWriter "program controller action is already committed with different bytes")
      ensure (q.allowRecovered ∨ o.claimantId = q.claimantId)
        (.staleWriter "program controller action replay claimant is stale")
      pure L
    | none => do
      q.authorize env event f p
      effects
      match p.decision.claimant with
      | none => .error .integrityError
      | some c => do
        ensure (L.findOutbox ((ActionBundle.program q.bundle).actionId env)).isNone .integrityError
        pure { L with programDecisions :=
          L.programDecisions.set event { p with decision := q.committed env c now p.decision } }

/-! ### Effects -/

/-- The outcome of an external effect; `closes` says that every effect of the action has one. -/
structure EffectOutcome where
  failure : Option String
  closes : Bool

def ControllerDecision.failEffect (failure : Option String) (now : Time) (d : ControllerDecision) :
    ControllerDecision :=
  if failure.isSome && d.state = .actionCommitted then
    { d with
      state := .humanAttentionRequired, humanAttentionReason := failure
      claimLeaseExpiresAt := none, updatedAt := now }
  else d

/-- The receipt is acknowledged once no effect of the action is pending. -/
def ControllerDecision.closeEffects (closes : Bool) (now : Time) (d : ControllerDecision) :
    ControllerDecision :=
  if closes && d.outbox.any (·.acknowledgedAt.isNone) then d.acknowledge now else d

/-- `record_program_action_effect` -/
def recordProgramEffect (L : Ledger) (event : ProgramEvent) (q : EffectOutcome) (f : ProgramFacts)
    (now : Time) : Checked Ledger := do
  match L.programDecisions.get? event with
  | none => .error (.recordNotFound "program action does not exist")
  | some p => do
    ensure p.decision.outbox.isSome (.recordNotFound "program action does not exist")
    f.requireCapability
    let actionId := (p.decision.outbox.map (·.actionId)).getD ""
    let decision := (p.decision.failEffect q.failure now).closeEffects q.closes now
    let L' := { L with programDecisions :=
      L.programDecisions.set event { p with decision := decision } }
    if q.failure.isSome then
      L'.ensureProgramDecision
        ⟨event.programId, .controllerAttention, s!"action-effect/{actionId}/failed"⟩ f none now
    else pure L'

end CodexFlow.Ledger
