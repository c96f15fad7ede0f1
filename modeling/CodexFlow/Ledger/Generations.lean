import CodexFlow.Ledger.Inspections

/-!
# Controller generations

A generation is the process of one controller: it is prepared, launched, gets a thread and turns,
and ends. A generation that was lost may be replaced by an operator, once.
-/

namespace CodexFlow.Ledger

open Checked

variable (env : Env)

namespace ControllerDecision

variable (d : ControllerDecision) (now : Time)

def withGeneration (f : ControllerGeneration → ControllerGeneration) : ControllerDecision :=
  { d with generation := f d.generation }

end ControllerDecision

/-! ### Launching -/

/-- `prepare_controller_generation`; `fenced` says that the refresh fence is armed. -/
def DecisionRows.prepareGeneration (fenced : Bool) (generation : ℕ) (promptSha256 : Option String)
    (p : DecisionRows) : Checked DecisionRows := do
  let d := p.decision
  ensure (d.currentGeneration = generation) (.staleWriter "controller generation is stale")
  ensure (d.state ∈ [.claimed, .awaitingClaim])
    (.staleWriter "controller decision is not launchable")
  ensure (!fenced) (.harnessRefreshBlocked "harness refresh fence is active")
  ensure (d.generation.state ∈ [.prepared, .deliveryStarting])
    (.staleWriter "controller generation is already terminal or active")
  ensure (∀ known ∈ d.generation.promptSha256, ∀ prompt ∈ promptSha256, known = prompt)
    (.staleWriter "controller generation prompt digest conflicts")
  pure { p with decision := d.withGeneration fun g =>
    { g with state := .deliveryStarting, promptSha256 := promptSha256.or g.promptSha256 } }

/-- `bind_controller_generation_thread` -/
def DecisionRows.bindThread (generation : ℕ) (threadId : String) (now : Time) (p : DecisionRows) :
    Checked DecisionRows := do
  let d := p.decision
  ensure (d.currentGeneration = generation) (.staleWriter "controller generation is stale")
  match d.generation.controllerThreadId with
  | some thread => do
    ensure (thread = threadId) (.staleWriter "controller thread identity is immutable")
    pure p
  | none => do
    ensure (d.generation.state = .deliveryStarting)
      (.staleWriter "controller generation is not awaiting thread identity")
    pure { p with decision := d.withGeneration fun g =>
      { g with state := .active, controllerThreadId := some threadId, startedAt := some now } }

structure TurnRequest where
  generation : ℕ
  threadId : String
  turnId : String
  previousTurnId : Option String := none

/-- A turn identity: at most 512 bytes without blanks and control characters. -/
def Env.isControllerTurn (text : String) : Bool :=
  text ≠ "" && text.utf8ByteSize ≤ 512 &&
    text.toList.all fun c => !env.isSpace c && 0x20 ≤ c.toNat

def TurnRequest.check (q : TurnRequest) : Checked Unit := do
  ensure (env.isControllerTurn q.turnId) (.valueError "controller turn identity is invalid")
  ensure (q.previousTurnId.all env.isControllerTurn)
    (.valueError "previous controller turn identity is invalid")

/-- `bind_controller_generation_turn`; `taken` says that another generation has the turn. -/
def DecisionRows.bindTurn (taken : Bool) (q : TurnRequest) (p : DecisionRows) :
    Checked DecisionRows := do
  let d := p.decision
  let g := d.generation
  ensure (d.currentGeneration = q.generation) (.staleWriter "controller generation is stale")
  ensure (g.controllerThreadId = some q.threadId)
    (.staleWriter "controller generation thread identity is stale")
  if g.controllerTurnId = some q.turnId then pure p
  else do
    ensure (g.controllerTurnId.isSome → q.previousTurnId = g.controllerTurnId)
      (.staleWriter "controller retry turn identity is stale")
    ensure (g.controllerTurnId.isNone → q.previousTurnId.isNone)
      (.staleWriter "controller retry turn predecessor is stale")
    ensure (g.state = .active) (.staleWriter "controller retry turn bind is stale")
    ensure (!taken) .integrityError
    pure { p with decision := d.withGeneration fun g =>
      { g with controllerTurnId := some q.turnId } }

/-! ### Ending -/

/-- `complete_controller_generation` -/
def DecisionRows.completeGeneration (generation : ℕ) (outcome : ControllerGenerationState)
    (now : Time) (p : DecisionRows) : Checked DecisionRows := do
  let d := p.decision
  ensure (d.currentGeneration = generation) (.staleWriter "controller generation is stale")
  if d.generation.state ∉ [.prepared, .deliveryStarting, .active] then do
    ensure (d.generation.state = outcome)
      (.staleWriter "controller generation terminal state is immutable")
    pure p
  else pure { p with decision := d.withGeneration fun g =>
    { g with state := outcome, terminalAt := some now } }

/-- `record_controller_profile_drift` -/
def DecisionRows.recordProfileDrift (generation : ℕ) (reason : String) (now : Time)
    (p : DecisionRows) : Checked DecisionRows := do
  let d := p.decision
  let identified := d.generation.controllerThreadId.isSome || d.generation.inspectionOutcome.isSome
  ensure (d.generationAt generation).isSome
    (.recordNotFound "controller profile-drift authority does not exist")
  ensure (d.currentGeneration = generation)
    (.staleWriter "controller profile-drift generation is stale")
  if d.generation.state = .failed && !identified && d.state = .humanAttentionRequired then pure p
  else do
    ensure (d.generation.state = .deliveryStarting ∧ !identified)
      (.staleWriter "controller profile drift is not a pre-identity generation")
    ensure (d.state ∈ [.awaitingClaim, .claimed])
      (.staleWriter "controller profile drift decision is no longer launchable")
    pure { p with
      decision := (d.attend now (env.redactControlText reason)).withGeneration fun g =>
        { g with state := .failed, terminalAt := some now } }

structure ResetRequest where
  generation : ℕ
  expectedRevision : ℕ
  claimantId : String
  token : String

/-- The row of a generation by its number, rewritten. -/
def ControllerDecision.mapGeneration (d : ControllerDecision) (generation : ℕ)
    (f : ControllerGeneration → ControllerGeneration) : ControllerDecision :=
  if generation = d.currentGeneration then d.withGeneration f
  else { d with earlier := d.earlier.modify (generation - 1) f }

/-- `reset_controller_generation_delivery`: the claim of a launch that is known to have failed is
given back. -/
def DecisionRows.resetDelivery (q : ResetRequest) (now : Time) (p : DecisionRows) :
    Checked DecisionRows := do
  let d := p.decision
  let stale := LedgerError.staleWriter "controller pre-identity reset authority is stale"
  match d.generationAt q.generation with
  | none => .error (.recordNotFound "controller generation does not exist")
  | some g => do
    ensure (g.state = .deliveryStarting ∧ g.controllerThreadId.isNone)
      (.staleWriter "controller generation is not a pre-identity launch")
    ensure (d.revision = q.expectedRevision) stale
    if q.claimantId ≠ "" ∨ q.token ≠ "" then do
      ensure (d.isModelClaim ∧ d.claimant.any (·.claimantId = q.claimantId)) stale
      let tokenHash ← env.claimTokenHash q.token
      ensure (d.heldBy tokenHash q.claimantId ∧ d.claimLeaseExpiresAt.any (now < ·) ∧
          d.state = .claimed) stale
    else ensure (d.state = .awaitingClaim ∧ d.claimant.isNone) stale
    let reset := d.mapGeneration q.generation fun g => { g with state := .prepared }
    pure { p with decision := if d.state = .claimed then reset.release now else reset }

structure AmbiguousLaunch where
  generation : ℕ
  expectedRevision : ℕ
  expectedState : ControllerDecisionState
  expectedClaimantKind : Option ControllerClaimantKind
  expectedClaimantId : Option String

/-- The generation of a launch that nobody can account for. -/
def ControllerGeneration.markAmbiguous (g : ControllerGeneration) (now : Time) :
    ControllerGeneration :=
  { g with
    inspection := g.inspection.or (some
      { startedAt := now, tokenSha256 := none, leaseExpiresAt := none, completedAt := none
        outcome := none, bundle := none }) }.closeInspection .ambiguous now

/-- `_mark_controller_generation_launch_ambiguous` -/
def DecisionRows.markLaunchAmbiguous (q : AmbiguousLaunch) (now : Time) (p : DecisionRows) :
    Checked DecisionRows := do
  let d := p.decision
  ensure (d.currentGeneration = q.generation ∧ d.revision = q.expectedRevision ∧
      d.state = q.expectedState ∧ d.claimant.map (·.kind) = q.expectedClaimantKind ∧
      d.claimant.map (·.claimantId) = q.expectedClaimantId)
    (.staleWriter "controller launch ambiguity authority is stale")
  ensure (d.generation.state ∈ [.deliveryStarting, .active] ∧
      d.generation.inspectionOutcome.isNone ∧
      d.generation.inspection.all (·.completedAt.isNone))
    (.staleWriter "controller launch is no longer an orphan")
  pure { p with
    decision := (d.attend now "controller recovery launch failed before durable identity").withGeneration
      (·.markAmbiguous now) }

/-! ### Replacing -/

/-- `authorize_ambiguous_controller_replacement` -/
def DecisionRows.authorizeReplacement (expectedRevision : ℕ) (now : Time) (p : DecisionRows) :
    Checked DecisionRows := do
  let d := p.decision
  ensure (d.revision = expectedRevision) (.staleWriter "controller replacement revision is stale")
  ensure (d.state = .humanAttentionRequired ∧ d.action.isNone ∧ d.claimant.isNone ∧
      d.generation.state = .ambiguous ∧ d.generation.inspectionOutcome = some .ambiguous ∧
      d.generation.inspection.any (·.completedAt.isSome))
    (.staleWriter "controller replacement lacks exact ambiguous inspection authority")
  ensure (d.currentGeneration + 1 ≤ d.generationBudget)
    (.staleWriter "controller replacement generation budget is exhausted")
  pure { p with decision := { d.replace with
    state := .awaitingClaim, revision := d.revision + 1, deadline := now + seconds 300
    humanAttentionReason := none, updatedAt := now } }

end CodexFlow.Ledger
