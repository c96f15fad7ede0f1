import CodexFlow.Programs.Actions

/-!
# Calls on a program

The remaining operations on the rows of a program, and every operation as one call: registration
and start, the dispatches of its milestones, the receipt of an integration and the outcome of an
external effect.
-/

namespace CodexFlow.Programs

open Ledger (Time isGitSha isSha256)
open Checked

/-! ### Registration -/

/-- `ProgramGraph`; its constructor accepts unique nodes whose dependencies are declared. -/
structure ProgramGraph where
  programId : String
  planDigest : String
  integrationStrategy : IntegrationStrategy
  trunkHead : String
  nodes : Table String Node

namespace ProgramGraph

variable (g : ProgramGraph)

/-- No dependency reaches back to a node, looking through at most as many edges as there are
nodes. -/
def reaches (target : String) : ℕ → String → Bool
  | 0, _ => false
  | fuel + 1, id =>
    (g.nodes.get? id).any fun node =>
      node.dependencies.any fun d => d = target || reaches target fuel d

def check : Checked Unit := do
  ensure (isSha256 g.planDigest) (.valueError "program plan revision digest is invalid")
  ensure (isGitSha g.trunkHead) (.valueError "program trunk HEAD is invalid")
  ensure (1 ≤ g.nodes.entries.length ∧ g.nodes.entries.length ≤ 128)
    (.valueError "program graph must contain one to 128 nodes")
  ensure (g.nodes.entries.all fun entry => entry.2.dependencies.all (· ∈ g.nodes.keys))
    (.valueError "program graph dependency is not declared")
  ensure (g.nodes.keys.all fun id => !g.reaches id g.nodes.entries.length id)
    (.valueError "program graph contains a dependency cycle")

/-- `register_program`, of a run that has no row yet. -/
def program : Program where
  programId := g.programId
  planDigest := g.planDigest
  integrationStrategy := g.integrationStrategy
  registeredTrunkHead := g.trunkHead
  trunkHead := g.trunkHead
  milestones :=
    { entries := g.nodes.entries.map fun entry => (entry.1, { node := entry.2 })
      nodup := by
        rw [List.map_map]
        exact g.nodes.nodup }

def register : Checked Program := do
  g.check
  ensure (g.nodes.entries.all fun entry => entry.2.approvalGates.isEmpty)
    (.staleWriter "approval_capability_unavailable")
  pure g.program

end ProgramGraph

/-! ### Start and attention -/

namespace Program

variable (P : Program)

/-- `start_program` -/
def startProgram (eventKey : String) : Checked (Program × Option NewEvent) := do
  P.requireCapability
  ensure (P.state ∉ [.completed, .failed]) (.staleWriter "program is terminal")
  let started := if P.state = .registered then (P.inState .running).advance else P
  started.returning (some ⟨.checkpoint, eventKey⟩)

/-- `record_program_attention` -/
def recordProgramAttention (eventKey : String) : Checked (Program × Option NewEvent) := do
  P.requireCapability
  pure (if P.state ∈ [.completed, .failed, .externalBlocked] then P else P.inState .needsDecision,
    some ⟨.controllerAttention, eventKey⟩)

/-! ### Dispatches -/

/-- `claim_dispatch`, with the generation that it requires. -/
def claimDispatch (milestoneId role : String) : Checked Program := do
  let m ← P.milestone milestoneId (.recordNotFound s!"milestone {milestoneId} does not exist")
  if m.hasDispatch role 1 then pure P
  else do
    ensure (!m.ownsRole role) (.dispatchConflict s!"milestone {milestoneId} role {role} is owned")
    ensure (m.state = .planned)
      (.invalidTransition s!"dispatch claim requires PLANNED, found {m.state.value}")
    pure (P.setMilestone milestoneId ((m.addDispatch role 1).moveTo .starting))

/-- `claim_program_review_dispatch` -/
def claimReviewDispatch (milestoneId role : String) (generation : ℕ) : Checked Program := do
  ensure (role ≠ executor)
    (.valueError "program review dispatch must use a reviewer role")
  let m ← P.milestone milestoneId (.recordNotFound s!"milestone {milestoneId} does not exist")
  if m.hasDispatch role generation then pure P
  else do
    ensure (generation = m.nextGeneration role) (.dispatchConflict
      s!"milestone {milestoneId} role {role} requires successor generation")
    ensure (m.state ∈ [.completed, .reviewing, .repairRequired, .blocked, .needsDecision, .accepted])
      (.invalidTransition
        s!"program review claim requires a completed milestone, found {m.state.value}")
    pure (P.setMilestone milestoneId (m.addDispatch role generation))

/-- `claim_program_repair_dispatch` -/
def claimRepairDispatch (milestoneId : String) (generation : ℕ) : Checked Program := do
  ensure (1 < generation)
    (.valueError "program repair dispatch must use a successor generation")
  let m ← P.milestone milestoneId (.recordNotFound s!"milestone {milestoneId} does not exist")
  if m.hasDispatch executor generation then pure P
  else do
    ensure (m.ownsRole executor)
      (.staleWriter "program repair requires the original executor owner")
    ensure (generation = m.nextGeneration executor) (.dispatchConflict
      s!"milestone {milestoneId} role executor requires successor generation")
    ensure (m.state = .repairRequired) (.invalidTransition
      s!"program repair dispatch requires REPAIR_REQUIRED, found {m.state.value}")
    pure (P.setMilestone milestoneId ((m.addDispatch executor generation).moveTo .starting))

/-- `transition`: the moves that an executor and its controller make. -/
def moveMilestone (milestoneId : String) (target expected : WorkflowState) : Checked Program := do
  let m ← P.milestone milestoneId (.recordNotFound s!"milestone {milestoneId} does not exist")
  ensure (m.state = expected) (.staleWriter
    s!"stale milestone writer: expected {expected.value}, current is {m.state.value}")
  ensure (¬(m.state = .planned ∧ target = .starting))
    (.invalidTransition "PLANNED -> STARTING is reserved for claim_dispatch")
  ensure (m.state.isTransitionAllowed target)
    (.invalidTransition s!"{m.state.value} -> {target.value} is not allowed")
  pure (P.setMilestone milestoneId (m.moveTo target))

end Program

/-! ### Integrations -/

namespace IntegrationReceipt

variable (r : IntegrationReceipt)

/-- The chain of a logical promotion leads from the trunk to the candidate. -/
def isLinear (i : Integration) : Bool :=
  match r.lineage with
  | none => false
  | some lineage =>
    r.linearChain && 2 ≤ lineage.length && lineage.all isGitSha &&
      lineage.head? = some i.expectedTrunkHead && lineage.getLast? = some i.candidateSha &&
      decide lineage.Nodup && r.parents = some lineage.dropLast.getLast?.toList

/-- What an applied receipt says of the commit that it made. -/
def checkApplied (i : Integration) : Checked Unit := do
  ensure (r.afterTrunkHead.any isGitSha)
    (.valueError "applied program integration requires a resolved after trunk HEAD")
  ensure (r.parents.any fun parents => parents ≠ [] ∧ parents.all isGitSha)
    (.valueError "applied program integration requires exact commit parents")
  ensure (r.tree.any isGitSha)
    (.valueError "applied program integration requires an exact commit tree")
  if r.logicalPromotion then do
    ensure (r.afterTrunkHead = some i.candidateSha)
      (.staleWriter "logical promotion receipt has an unexpected resulting HEAD")
    ensure (r.isLinear i)
      (.staleWriter "logical promotion receipt has an invalid linear candidate chain")
  else
    match i.strategy with
    | .fastForward =>
      ensure (r.afterTrunkHead = some i.candidateSha)
        (.staleWriter "fast-forward integration receipt has an unexpected resulting HEAD")
    | .merge =>
      ensure (r.parents = some [i.expectedTrunkHead, i.candidateSha])
        (.staleWriter "merge integration receipt has unexpected commit parents")
    | .cherryPick =>
      ensure (r.parents = some [i.expectedTrunkHead])
        (.staleWriter "cherry-pick integration receipt has unexpected commit parents")

def check (P : Program) (milestoneId : String) (i : Integration) (state : IntegrationState) :
    Checked Unit := do
  ensure (r.programId = P.programId ∧ r.milestoneId = milestoneId ∧
      r.candidateSha = i.candidateSha ∧ r.expectedTrunkHead = i.expectedTrunkHead ∧
      r.strategy = i.strategy)
    (.staleWriter "program integration receipt does not match its authorized outbox")
  ensure (r.beforeTrunkHead = i.expectedTrunkHead)
    (.staleWriter "program integration receipt has a stale trunk predecessor")
  if state = .applied then r.checkApplied i else pure ()

end IntegrationReceipt

namespace Program

variable (P : Program)

/-- The trunk moves to the integrated candidate. -/
def applyIntegration (digests : Digests) (milestoneId : String) (m : Milestone) (i : Integration)
    (r : IntegrationReceipt) (after : String) (now : Time) :
    Checked (Program × Option NewEvent) := do
  let integrated := (m.setIntegration { i with ended := some ⟨.applied, r, now⟩ }).recordFact
    (.integrationCompleted i.candidateSha (digests.integration r) after)
  let moved := { (P.setMilestone milestoneId integrated).advance with trunkHead := after }
  (← moved.refreshCompletion false now).returning
    (some ⟨.integrationCompleted, s!"milestone/{milestoneId}/integration/{i.candidateSha}"⟩)

/-- `complete_program_integration` -/
def completeIntegration (digests : Digests) (milestoneId candidateSha : String)
    (r : IntegrationReceipt) (state : IntegrationState) (now : Time) :
    Checked (Program × Option NewEvent) := do
  let missing := Ledger.LedgerError.recordNotFound
    s!"program integration does not exist: integration/{P.programId}/{milestoneId}/{candidateSha}"
  ensure (isGitSha candidateSha) (.valueError "program integration candidate is invalid")
  P.requireCapability
  let m ← P.milestone milestoneId missing
  match m.integrationOf candidateSha with
  | none => .error missing
  | some i => do
    r.check P milestoneId i state
    match i.ended with
    | some ended => do
      ensure (digests.integration ended.receipt = digests.integration r)
        (.staleWriter "program integration already has a different terminal receipt")
      P.returning none
    | none =>
      match state, r.afterTrunkHead with
      | .applied, some after => do
        ensure (P.trunkHead = i.expectedTrunkHead)
          (.staleWriter "program integration trunk authority changed before receipt commit")
        P.applyIntegration digests milestoneId m i r after now
      | _, _ =>
        ((P.setMilestone milestoneId
          (m.setIntegration { i with ended := some ⟨state, r, now⟩ })).inState
            (if state = .conflict then .needsDecision else .failed)).returning none

/-! ### External effects -/

/-- `program_action_effect_state` -/
def effectState (m : Milestone) (actionId effectId : String) : Option EffectState :=
  Journal.latest (fun fact => (fact.effect?.filter fun e =>
    e.1 = actionId ∧ e.2.1 = effectId).map (·.2.2)) m.lifecycle

def EffectState.isFailed : EffectState → Bool
  | .applied => false
  | .failed _ => true

def isPending (actionId : String) (effect : String × String) : Bool :=
  match P.milestones.get? effect.2 with
  | none => true
  | some m => (effectState m actionId effect.1).isNone

def effectsClosed (actionId : String) (b : ProgramBundle) : Bool :=
  !b.externalEffects.isEmpty && b.externalEffects.all fun effect => !P.isPending actionId effect

/-- `record_program_action_effect`, of an action with its bundle; the flag says that the outcome is
new. -/
def recordActionEffect (actionId effectId : String) (b : ProgramBundle) (state : EffectState) :
    Checked (Program × Bool) :=
  match b.externalEffects.find? (·.1 = effectId) with
  | none => .error (.staleWriter "program action effect is not authorized by its bundle")
  | some effect => do
    P.requireCapability
    let m ← P.milestone effect.2 (.recordNotFound "program action does not exist")
    match effectState m actionId effectId with
    | some existing => do
      ensure (EffectState.isFailed existing = EffectState.isFailed state)
        (.staleWriter "program action effect already has a different terminal outcome")
      pure (P, false)
    | none =>
      let recorded := P.setMilestone effect.2 (m.recordFact (.programEffect actionId effectId state))
      pure (if EffectState.isFailed state then recorded.inState .needsDecision else recorded, true)

end Program

/-! ### Calls -/

/-- An operation on the rows of one program. -/
inductive Call where
  | start (eventKey : String)
  | attention (eventKey : String)
  | recordCandidate (milestoneId candidateSha : String)
  | adopt (milestoneId : String) (adoption : Adoption)
  | executorResult (milestoneId : String) (result : ExecutorResult)
  | controlResult (milestoneId : String)
  | reconcile (milestoneId : String) (reconciliation : Reconciliation)
  | runtimeEvidence (milestoneId : String) (result : EvidenceResult) (queue : Option QueueFacts)
  | invalidateEvidence (milestoneId evidenceSha256 reason : String)
  | closeNode (milestoneId : String) (closure : Closure)
  | review (milestoneId : String) (result : ReviewResult)
  | integration (milestoneId candidateSha : String) (receipt : IntegrationReceipt)
      (state : IntegrationState)
  | claimDispatch (milestoneId role : String)
  | claimReview (milestoneId role : String) (generation : ℕ)
  | claimRepair (milestoneId : String) (generation : ℕ)
  | move (milestoneId : String) (target expected : WorkflowState)

/-- An operation that opens no decision. -/
def silently (result : Checked Program) : Checked (Program × Option NewEvent) := do
  pure (← result, none)

/-- The program after a call, with the event that it opens a decision for. -/
def Program.run (digests : Digests) (P : Program) (now : Time) :
    Call → Checked (Program × Option NewEvent)
  | .start key => P.startProgram key
  | .attention key => P.recordProgramAttention key
  | .recordCandidate m c => P.recordProgramCandidate m c
  | .adopt m q => P.adoptProgramCandidate digests m q now
  | .executorResult m q => P.recordProgramExecutorResult m q
  | .controlResult m => P.recordControlExecutorResult m
  | .reconcile m q => P.reconcileProgramCandidate m q
  | .runtimeEvidence m q queue => P.recordRuntimeEvidence digests m q queue now
  | .invalidateEvidence m e reason => P.invalidateRuntimeEvidence m e reason
  | .closeNode m q => P.closeProgramNode digests m q now
  | .review m q => P.recordProgramReview digests m q
  | .integration m c r state => P.completeIntegration digests m c r state now
  | .claimDispatch m role => silently (P.claimDispatch m role)
  | .claimReview m role generation => silently (P.claimReviewDispatch m role generation)
  | .claimRepair m generation => silently (P.claimRepairDispatch m generation)
  | .move m target expected => silently (P.moveMilestone m target expected)

end CodexFlow.Programs
