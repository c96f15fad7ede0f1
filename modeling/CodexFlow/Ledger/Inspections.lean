import CodexFlow.Ledger.Decision

/-!
# Recovery inspections

One authoritative read of a generation: its reservation, its completion and what an expired claim
leaves of both. An inspection whose lease runs out closes the decision for a human.
-/

namespace CodexFlow.Ledger

open Checked

/-- The generation ends with an inspection that found `outcome`. -/
def ControllerGeneration.closeInspection (g : ControllerGeneration)
    (outcome : ControllerGenerationState) (now : Time) : ControllerGeneration :=
  { g with
    state := outcome, terminalAt := some now
    inspection := g.inspection.map fun i =>
      { i with completedAt := some now, outcome := some outcome, leaseExpiresAt := none } }

/-- The pending inspection has become ambiguous and the claim is taken away. -/
def ControllerDecision.expireInspection (now : Time) (d : ControllerDecision) :
    ControllerDecision :=
  { d.attend now "controller inspection lease expired" with
    generation := d.generation.closeInspection .ambiguous now }

/-! ### Reserving -/

/-- The first transaction of `reserve_controller_recovery_inspection`: an expired reservation is
closed, and the call raises once that is committed. -/
def DecisionRows.expireInspection (now : Time) (p : DecisionRows) : Checked DecisionRows :=
  pure (if p.decision.generation.inspectionExpired now then
    { p with decision := p.decision.expireInspection now } else p)

/-- The second transaction: the one reservation of the generation. -/
def DecisionRows.reserveInspection (env : Env) (minted : String) (now : Time) (p : DecisionRows) :
    Checked DecisionRows := do
  let d := p.decision
  ensure (!d.isClosed) (.staleWriter "controller decision is terminal")
  ensure (d.state ∈ [.awaitingClaim, .claimed])
    (.staleWriter "controller recovery inspection requires a claimable decision")
  ensure (d.state = .claimed → !d.isHumanClaim)
    (.staleWriter "human controller claim owns the decision")
  ensure (!d.generation.inspectionExpired now)
    (.staleWriter "controller recovery inspection lease has expired")
  ensure d.generation.inspection.isNone
    (.staleWriter "controller recovery inspection already consumed")
  let tokenHash ← env.claimTokenHash minted
  pure { p with decision := { d with
    generation := { d.generation with
      inspection := some
        { startedAt := now
          tokenSha256 := some tokenHash
          leaseExpiresAt := some (min (now + seconds 300) d.deadline)
          completedAt := none
          outcome := none
          bundle := none } } } }

/-! ### Completing -/

/-- `ControllerRecoveryInspectionClaim` -/
structure InspectionClaim where
  decisionId : DecisionKey
  generation : ℕ
  revision : ℕ
  token : String

/-- The reported outcome is `none` when it is malformed. -/
structure CompleteRequest where
  outcome : Option ControllerGenerationState
  claim : Option InspectionClaim := none
  token : Option String := none
  bundle : Option ActionBundle := none

/-- A launch that is still starting, and a malformed history, are ambiguous. -/
def readOutcome : Option ControllerGenerationState → ControllerGenerationState
  | none => .ambiguous
  | some .deliveryStarting => .ambiguous
  | some outcome => outcome

def ControllerGenerationState.isTerminalOutcome (s : ControllerGenerationState) : Bool :=
  s ∈ [.completed, .failed, .interrupted, .unavailable, .ambiguous]

/-- The outcomes that leave room for a replacement. -/
def ControllerGenerationState.isLoss (s : ControllerGenerationState) : Bool :=
  s ∈ [.failed, .interrupted, .unavailable]

def CompleteRequest.check (q : CompleteRequest) : Checked Unit :=
  ensure (∀ claim ∈ q.claim, ∀ token ∈ q.token, token = claim.token)
    (.staleWriter "controller recovery inspection token conflicts")

/-- The claim of a completion; a bare token stands for the claim the rows would give. -/
def CompleteRequest.claimOf (q : CompleteRequest) (decisionId : DecisionKey)
    (d : ControllerDecision) : Option InspectionClaim :=
  q.claim.or (q.token.map fun token => ⟨decisionId, d.currentGeneration, d.revision, token⟩)

/-- `program_revision` of the decision, where it has one. -/
abbrev ProgramRevision := Option ℕ

/-- The bundle of a completed inspection, with its digest and the digest of its claimant audit. -/
def ControllerDecision.readBundle (env : Env) (decisionId : DecisionKey)
    (programRevision : ProgramRevision) (bundle : ActionBundle) (d : ControllerDecision) :
    Checked ((ActionBundle × String) × String) := do
  ensure (bundle.decisionId = decisionId ∧ bundle.generation = d.currentGeneration)
    (.staleWriter "controller inspection bundle identity is stale")
  match bundle with
  | .dispatch b =>
    ensure (b.expectedRevision = d.revision)
      (.staleWriter "controller inspection bundle revision is stale")
  | .program b => do
    ensure programRevision.isSome (.typeError "int() argument must not be NoneType")
    ensure (programRevision = some b.expectedProgramRevision)
      (.staleWriter "controller inspection bundle revision is stale")
  match d.claimant with
  | none =>
    .error (.corruptSchema "completed controller inspection lacks its model claimant audit")
  | some c => do
    ensure (c.kind = .model)
      (.corruptSchema "completed controller inspection lacks its model claimant audit")
    pure ((bundle, env.bundleSha256 bundle),
      c.auditSha256 env decisionId d.currentGeneration bundle.revision)

/-- The bundle and the token digest that the inspection keeps. -/
def ControllerDecision.inspectionFacts (env : Env) (decisionId : DecisionKey)
    (programRevision : ProgramRevision) (outcome : ControllerGenerationState)
    (bundle : Option ActionBundle) (i : ControllerInspection) (d : ControllerDecision) :
    Checked (Option (ActionBundle × String) × Option String) :=
  if outcome = .completed then
    match bundle with
    | none =>
      .error (.valueError "completed controller inspection requires its typed action bundle")
    | some b => do
      let (inspected, audit) ← d.readBundle env decisionId programRevision b
      pure (some inspected, some audit)
  else do
    ensure bundle.isNone
      (.valueError "non-completed controller inspection cannot carry an action bundle")
    pure (none, i.tokenSha256)

/-- A lost generation may be replaced within the budget; before its claim has run out only when it
is unavailable. -/
def ControllerDecision.canReplace (outcome : ControllerGenerationState) (now : Time)
    (d : ControllerDecision) : Bool :=
  outcome.isLoss && d.currentGeneration < d.generationBudget &&
    (outcome = .unavailable || d.claimant.isNone || d.claimLeaseExpiresAt.isNone ||
      d.leaseExpired now)

/-- The current generation is kept among the earlier ones and a new one is prepared. -/
def ControllerDecision.replace (d : ControllerDecision) : ControllerDecision :=
  { d with earlier := d.generations, generation := .prepared }

/-- The decision after an inspection that found `outcome`, other than an active writer. -/
def ControllerDecision.settleInspection (outcome : ControllerGenerationState) (replaced : Bool)
    (now : Time) (d : ControllerDecision) : ControllerDecision :=
  if outcome = .completed then
    { d with
      state := if d.claimant.isSome then .claimed else .awaitingClaim
      humanAttentionReason := none, updatedAt := now }
  else if replaced then { d.release now with humanAttentionReason := none }.replace
  else if outcome.isTerminalOutcome then d.attend now s!"controller inspection: {outcome.value}"
  else { d.release now with humanAttentionReason := none }

/-- `complete_controller_recovery_inspection` -/
def DecisionRows.completeInspection (env : Env) (decisionId : DecisionKey)
    (programRevision : ProgramRevision) (q : CompleteRequest) (now : Time) (p : DecisionRows) :
    Checked DecisionRows := do
  let d := p.decision
  let outcome := readOutcome q.outcome
  ensure (d.state ∈ [.awaitingClaim, .claimed])
    (.staleWriter "controller recovery inspection decision is stale")
  ensure (d.state = .claimed → !d.isHumanClaim)
    (.staleWriter "human controller claim owns the decision")
  match d.generation.inspection with
  | none => .error (.staleWriter "controller recovery inspection is not pending")
  | some i => do
    ensure i.isPending (.staleWriter "controller recovery inspection is not pending")
    match q.claimOf decisionId d with
    | none => .error (.staleWriter "controller recovery inspection claim is required")
    | some claim => do
      let tokenHash ← env.claimTokenHash claim.token
      ensure (claim.decisionId = decisionId ∧ claim.generation = d.currentGeneration ∧
          claim.revision = d.revision ∧ i.tokenSha256 = some tokenHash ∧
          i.leaseExpiresAt.any (now < ·))
        (.staleWriter "controller recovery inspection claim is stale or expired")
      let (bundle, token) ← d.inspectionFacts env decisionId programRevision outcome q.bundle i
      let inspected := { d with
        generation := { d.generation with
          state := outcome
          terminalAt := if outcome.isTerminalOutcome then some now else none
          inspection := some { i with
            completedAt := some now, outcome := some outcome, tokenSha256 := token
            bundle := bundle, leaseExpiresAt := none } } }
      -- an active writer keeps its decision
      pure (if outcome = .active then { p with decision := inspected }
        else { p with
          decision := inspected.settleInspection outcome (d.canReplace outcome now) now })

/-! ### Reaping -/

/-- The last read of `reap_controller_claim` looks for a decision of a dispatch. -/
def DecisionRows.projected (decisionId : DecisionKey) (p : DecisionRows) : Checked DecisionRows :=
  match decisionId with
  | .dispatch .. => pure p
  | .program _ => .error (.recordNotFound "controller decision does not exist")

/-- The lease of the claim ends and its holder is kept as an audit, under the same revision. -/
def ControllerDecision.deactivate (now : Time) (d : ControllerDecision) : ControllerDecision :=
  { d with
    state := .awaitingClaim, claimLeaseExpiresAt := none, humanAttentionReason := none
    updatedAt := now }

/-- An expired claim whose inspection is over. -/
def DecisionRows.reapModel (decisionId : DecisionKey) (now : Time) (p : DecisionRows) :
    Checked DecisionRows :=
  let d := p.decision
  match d.generation.inspectionOutcome with
  | none => pure p
  | some .active =>
    DecisionRows.projected decisionId { p with
      decision := d.attend now "active controller generation requires human attention" }
  | some _ => DecisionRows.projected decisionId { p with decision := d.release now }

/-- `reap_controller_claim` -/
def DecisionRows.reap (decisionId : DecisionKey) (now : Time) (p : DecisionRows) :
    Checked DecisionRows :=
  let d := p.decision
  let expired := DecisionRows.projected decisionId { p with decision := d.expireInspection now }
  if d.action.isNone && d.generation.inspectionExpired now then expired
  else if d.action.isNone && d.generation.inspectionLive now then pure p
  else if d.action.isNone && d.generation.inspectionCompleted && d.generation.inspected.isSome &&
      d.isModelClaim && d.leaseExpired now then do
    ensure (d.state = .claimed)
      (.staleWriter "controller completed inspection lease release is stale")
    DecisionRows.projected decisionId { p with decision := d.deactivate now }
  else if d.isModelClaim && d.generation.inspectionExpired now then expired
  else if d.claimant.isNone || !d.leaseExpired now then pure p
  else if d.isModelClaim then
    -- a read that is still live keeps the lease with its owner
    if d.generation.inspectionPending then
      if d.generation.inspectionLive now then pure p else expired
    else p.reapModel decisionId now
  else DecisionRows.projected decisionId { p with decision := d.release now }

end CodexFlow.Ledger
