import CodexFlow.Ledger.Wakes

/-!
# Claims on a controller decision

A controller claims a decision, renews its claim, defers it to a rate-limit reset and acknowledges
what it committed. A function on `DecisionRows` is the part of an operation that reads and writes
one decision and its wake.
-/

namespace CodexFlow.Ledger

open Checked

/-- A decision with the wake that delivers it; a decision of a program has none. -/
structure DecisionRows where
  decision : ControllerDecision
  wake : Option Wake
deriving DecidableEq

/-! ### What the checks read -/

namespace ControllerInspection

variable (i : ControllerInspection) (now : Time)

def isPending : Bool := i.completedAt.isNone

def isCompleted : Bool := i.completedAt.isSome && i.outcome = some .completed

def isExpired : Bool := i.isPending && i.leaseExpiresAt.any (· ≤ now)

def isLive : Bool := i.isPending && i.leaseExpiresAt.any (now < ·)

end ControllerInspection

namespace ControllerGeneration

variable (g : ControllerGeneration) (now : Time)

/-- `inspection_started_at` is set and `inspection_completed_at` is not. -/
def inspectionPending : Bool := g.inspection.any (·.isPending)

def inspectionCompleted : Bool := g.inspection.any (·.isCompleted)

/-- A pending inspection whose lease has run out. -/
def inspectionExpired : Bool := g.inspection.any (·.isExpired now)

/-- A pending inspection whose lease is still running. -/
def inspectionLive : Bool := g.inspection.any (·.isLive now)

def inspectionOutcome : Option ControllerGenerationState := g.inspection.bind (·.outcome)

end ControllerGeneration

namespace ControllerDecision

variable (d : ControllerDecision) (now : Time)

/-- Nothing may claim the decision any more. -/
def isClosed : Bool :=
  d.state ∈ [.actionCommitted, .acknowledged, .superseded, .legacyClosed] ||
    d.state = .humanAttentionRequired && d.action.isSome

def isModelClaim : Bool := d.claimant.any (·.kind = .model)

def isHumanClaim : Bool := d.claimant.any (·.kind = .human)

/-- `claim_lease_expires_at` is set and has passed. -/
def leaseExpired : Bool := d.claimLeaseExpiresAt.any (· ≤ now)

/-- The secret and the identity are those of the claim. -/
def heldBy (claimTokenSha256 claimantId : String) : Bool :=
  d.claimant.any fun c => c.claimTokenSha256 = claimTokenSha256 && c.claimantId = claimantId

/-- A row of `controller_decision_generations` by its number. -/
def generationAt (generation : ℕ) : Option ControllerGeneration :=
  if generation = 0 then none else d.generations[generation - 1]?

/-! ### Updates that several operations share -/

def unclaim : ControllerDecision := { d with claimant := none, claimLeaseExpiresAt := none }

/-- The claim is given back under a new revision. -/
def release : ControllerDecision :=
  { d.unclaim with state := .awaitingClaim, revision := d.revision + 1, updatedAt := now }

/-- The claim is taken away and a human has to look. -/
def attend (reason : String) : ControllerDecision :=
  { d.unclaim with
    state := .humanAttentionRequired, revision := d.revision + 1
    humanAttentionReason := some reason, updatedAt := now }

end ControllerDecision

/-- `_controller_claim_token_hash` -/
def Env.claimTokenHash (env : Env) (token : String) : Checked String := do
  ensure (token ≠ "" ∧ token.utf8ByteSize ≤ 256) (.valueError "controller claim token is invalid")
  pure (env.sha256 token)

/-- The wake of a decision that a human took over is never delivered; its route is kept. -/
def Wake.suppress (w : Wake) (now : Time) : Wake :=
  if w.state ∈ [.pending, .notApplicable] then
    { w with state := .suppressed, sourceTurnId := none, updatedAt := now }
  else w

/-! ### Claiming -/

structure ClaimRequest where
  claimantKind : ControllerClaimantKind
  claimantId : String
  expectedRevision : ℕ
  generation : Option ℕ := none
  token : Option String := none
  lease : ℕ := seconds 300

def ClaimRequest.check (env : Env) (q : ClaimRequest) : Checked Unit := do
  ensure (!env.isBlank q.claimantId ∧ q.claimantId.utf8ByteSize ≤ 256)
    (.valueError "controller claimant id is invalid")
  ensure (0 < q.lease ∧ q.lease ≤ seconds 3600) (.valueError "controller claim lease is invalid")

/-- A repeated claim must present the capability of the first. -/
def ControllerDecision.replayClaim (env : Env) (q : ClaimRequest) (now : Time) (c : Claimant)
    (d : ControllerDecision) : Checked Unit := do
  let another := LedgerError.staleWriter "controller decision is claimed by another claimant"
  match q.token with
  | none => .error another
  | some token => do
    let tokenHash ← env.claimTokenHash token
    ensure (tokenHash = c.claimTokenSha256) another
  ensure (c.kind = q.claimantKind ∧ c.claimantId = q.claimantId)
    (.staleWriter "controller claimant identity conflicts")
  ensure (d.revision = q.expectedRevision) (.staleWriter "controller claim revision is stale")
  ensure (!d.leaseExpired now) (.staleWriter "controller claim lease has expired")

/-- The decision under a fresh claim. -/
def ControllerDecision.takenBy (q : ClaimRequest) (tokenHash : String) (now : Time)
    (d : ControllerDecision) : ControllerDecision :=
  { d with
    state := .claimed, revision := d.revision + 1
    generationUsed :=
      if q.claimantKind = .model then max d.generationUsed d.currentGeneration
      else d.generationUsed
    claimant := some ⟨q.claimantKind, q.claimantId, tokenHash, now⟩
    claimLeaseExpiresAt := some (now + q.lease)
    humanAttentionReason := none, updatedAt := now }

def ControllerDecision.claimableFrom (q : ClaimRequest) (w : Wake) (d : ControllerDecision) :
    Checked Unit :=
  if d.state = .pendingDelivery then do
    ensure (q.claimantKind = .human) (.staleWriter "model claim requires delivered controller wake")
    ensure (w.state ∈ [.pending, .notApplicable])
      (.staleWriter "pending controller wake is no longer claimable")
  else
    ensure (w.state ≠ .starting)
      (.staleWriter "controller wake delivery is in its external identity window")

/-- `claim_controller_decision`; `minted` is the capability of a fresh claim. -/
def DecisionRows.claim (env : Env) (q : ClaimRequest) (minted : String) (now : Time)
    (p : DecisionRows) : Checked DecisionRows := do
  let d := p.decision
  ensure (q.generation.all (· = d.currentGeneration)) (.staleWriter "controller generation is stale")
  ensure (!d.isClosed)
    (.staleWriter "controller decision is terminal or requires human attention")
  ensure (!d.generation.inspectionCompleted)
    (.staleWriter "controller recovery inspection is already completed")
  match d.claimant with
  | some c => do
    d.replayClaim env q now c
    pure p
  | none => do
    ensure (!d.generation.inspectionPending)
      (.staleWriter "controller recovery inspection is already in progress")
    ensure (d.revision = q.expectedRevision) (.staleWriter "controller decision revision is stale")
    ensure q.token.isNone
      (.staleWriter "controller claim capability cannot be supplied for a fresh claim")
    ensure (now ≤ d.deadline) (.staleWriter "controller decision deadline has expired")
    match p.wake with
    | none => .error (.corruptSchema "controller decision has no wake delivery")
    | some w => do
      d.claimableFrom q w
      let tokenHash ← env.claimTokenHash minted
      pure ⟨d.takenBy q tokenHash now,
        some (if q.claimantKind = .human then w.suppress now else w)⟩

/-! ### Keeping a claim -/

structure RenewRequest where
  claimantId : String
  token : String
  expectedRevision : ℕ
  lease : ℕ := seconds 300

def RenewRequest.check (env : Env) (q : RenewRequest) : Checked Unit := do
  let _ ← env.claimTokenHash q.token
  ensure (0 < q.lease ∧ q.lease ≤ seconds 3600) (.valueError "controller claim lease is invalid")

/-- `renew_controller_decision_claim` -/
def DecisionRows.renew (env : Env) (q : RenewRequest) (now : Time) (p : DecisionRows) :
    Checked DecisionRows := do
  let d := p.decision
  ensure (d.heldBy (env.sha256 q.token) q.claimantId)
    (.staleWriter "controller claim token is stale")
  ensure (d.revision = q.expectedRevision ∧ d.state = .claimed)
    (.staleWriter "controller claim revision or state is stale")
  ensure (!d.leaseExpired now) (.staleWriter "controller claim lease has expired")
  pure { p with decision := { d with
    revision := d.revision + 1, claimLeaseExpiresAt := some (min (now + q.lease) d.deadline)
    updatedAt := now } }

structure DeferRequest where
  generation : ℕ
  claimantId : String
  token : String
  expectedRevision : ℕ
  retryAt : Time

/-- The reset lies ahead, by a day and five seconds at most. -/
def DeferRequest.check (env : Env) (q : DeferRequest) (now : Time) : Checked Unit := do
  ensure (now < q.retryAt ∧ q.retryAt - now ≤ seconds 86405)
    (.valueError "controller rate-limit deadline is outside its bound")
  let _ ← env.claimTokenHash q.token
  pure ()

/-- `defer_controller_rate_limit` -/
def DecisionRows.deferRateLimit (env : Env) (q : DeferRequest) (now : Time) (p : DecisionRows) :
    Checked DecisionRows := do
  let d := p.decision
  ensure (d.generationAt q.generation).isSome
    (.recordNotFound "controller rate-limit decision does not exist")
  ensure (d.revision = q.expectedRevision ∧ d.currentGeneration = q.generation ∧
      d.state = .claimed ∧ d.isModelClaim ∧ d.heldBy (env.sha256 q.token) q.claimantId ∧
      d.claimLeaseExpiresAt.any (now < ·))
    (.staleWriter "controller rate-limit claim is stale")
  ensure (d.generation.state = .active ∧ d.generation.controllerThreadId.isSome ∧
      d.generation.controllerTurnId.isSome ∧ d.generation.inspection.isNone)
    (.staleWriter "controller rate-limit generation is not an active bound turn")
  pure { p with decision := { d with
    revision := d.revision + 1, claimLeaseExpiresAt := some (q.retryAt + seconds 300)
    deadline := max d.deadline (q.retryAt + seconds 3600), updatedAt := now } }

/-! ### Acknowledging -/

/-- `token` is the capability, unless the committed bundle is acknowledged by a recovery.
`pendingEffects` says that an external effect of a program action has no outcome yet. -/
structure AcknowledgeRequest where
  actionId : String
  bundleSha256 : String
  committedRevision : ℕ
  claimantId : String
  token : String
  allowRecovered : Bool := false
  pendingEffects : Bool := false

def AcknowledgeRequest.check (env : Env) (q : AcknowledgeRequest) : Checked Unit :=
  if q.token = "" then ensure q.allowRecovered (.valueError "controller claim token is required")
  else do
    let _ ← env.claimTokenHash q.token
    pure ()

/-- The receipt is acknowledged; a decision that needs attention keeps needing it. -/
def ControllerDecision.acknowledge (now : Time) (d : ControllerDecision) : ControllerDecision :=
  let acknowledged := { d with
    outbox := d.outbox.map fun o => { o with acknowledgedAt := some now } }
  if d.state ∈ [.actionCommitted, .humanAttentionRequired] then
    { acknowledged with
      state := if d.state = .humanAttentionRequired then .humanAttentionRequired else .acknowledged
      acknowledgedAt := some now, claimLeaseExpiresAt := none, updatedAt := now }
  else acknowledged

/-- The committed effect is in place, or one completed inspection stands for it. -/
def ControllerDecision.acknowledgeable (actionId : String) (o : ActionOutbox)
    (d : ControllerDecision) : Bool :=
  d.actionId = some actionId && d.state ∈ [.actionCommitted, .humanAttentionRequired] ||
    (d.generationAt o.generation).any (·.inspectionCompleted)

/-- `acknowledge_controller_action` -/
def DecisionRows.acknowledge (env : Env) (decisionId : DecisionKey) (q : AcknowledgeRequest)
    (now : Time) (p : DecisionRows) : Checked DecisionRows := do
  let d := p.decision
  let held := q.allowRecovered || d.heldBy (env.sha256 q.token) q.claimantId
  match d.outbox with
  | none => .error (.staleWriter "controller action receipt is stale")
  | some o => do
    ensure (o.actionId = q.actionId ∧ o.bundleSha256 = q.bundleSha256)
      (.staleWriter "controller action receipt is stale")
    ensure (decisionId matches .program _ → !q.pendingEffects)
      (.staleWriter "program controller action has nonterminal external effects")
    ensure (q.allowRecovered → d.acknowledgeable q.actionId o)
      (.staleWriter "controller recovery acknowledgement lacks one completed inspection")
    if o.acknowledgedAt.isSome then do
      ensure held (.staleWriter "controller acknowledgement replay claim is stale")
      ensure (d.revision = q.committedRevision)
        (.staleWriter "controller acknowledgement replay revision is stale")
      pure p
    else do
      ensure (held ∧ d.revision = q.committedRevision)
        (.staleWriter "controller acknowledgement claim or revision is stale")
      pure { p with decision := d.acknowledge now }

end CodexFlow.Ledger
