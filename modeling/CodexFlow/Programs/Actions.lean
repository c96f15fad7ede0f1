import CodexFlow.Programs.Evidence

/-!
# Actions of a program controller

The closed set of actions, the bundle that carries them, and what the program tables make of them
when the bundle is committed.
-/

namespace CodexFlow.Programs

open Ledger (Time isGitSha isSha256)
open Checked

/-- `ModelFacingProgramControllerAction`; the lists are in the order its constructor leaves. -/
inductive ProgramAction where
  | startReadyMilestones (milestoneIds : List String)
  | startReviews (milestoneId : String) (subject : Subject) (reviewRoles : List String)
  | requestRepair (milestoneId : String) (subject : Subject) (findingIds : List String)
  | resolveCandidateBlocker (milestoneId candidateSha blockerGateId : String)
      (blockerResolution : BlockerResolution)
  | promoteCandidate (milestoneId : String) (subject : Subject) (reviewIds : List String)
  | integrateCandidate (milestoneId candidateSha expectedTrunkHead : String)
      (integrationStrategy : IntegrationStrategy)
  | requireReplan (reason : String)
  | requireHumanAttention (reason : String)
  | acknowledgeOnly
deriving DecidableEq

inductive ProgramActionKind where
  | startReadyMilestones
  | startReviews
  | requestRepair
  | resolveCandidateBlocker
  | promoteCandidate
  | integrateCandidate
  | requireReplan
  | requireHumanAttention
  | acknowledgeOnly
deriving DecidableEq

namespace ProgramAction

def kind : ProgramAction → ProgramActionKind
  | startReadyMilestones _ => .startReadyMilestones
  | startReviews .. => .startReviews
  | requestRepair .. => .requestRepair
  | resolveCandidateBlocker .. => .resolveCandidateBlocker
  | promoteCandidate .. => .promoteCandidate
  | integrateCandidate .. => .integrateCandidate
  | requireReplan _ => .requireReplan
  | requireHumanAttention _ => .requireHumanAttention
  | acknowledgeOnly => .acknowledgeOnly

/-- The effects that the harness applies, each with the milestone that owns it. -/
def externalEffects : ProgramAction → List (String × String)
  | startReadyMilestones ids => ids.map fun id => (s!"start:{id}", id)
  | startReviews m s roles => roles.map fun role => (s!"review:{m}:{s.wireValue}:{role}", m)
  | requestRepair m s _ => [(s!"repair:{m}:{s.wireValue}", m)]
  | promoteCandidate m s _ =>
    if s.kind = .runtimeEvidence then [(s!"promote:{m}:{s.wireValue}", m)] else []
  | integrateCandidate m c _ _ => [(s!"integrate:{m}:{c}", m)]
  | _ => []

def areNames (names : List String) : Bool := names ≠ [] ∧ names.length ≤ 128 ∧ names.Nodup

def check : ProgramAction → Checked Unit
  | startReadyMilestones ids =>
    ensure (areNames ids) (.valueError "start_ready_milestones requires only milestone_ids")
  | startReviews _ s roles =>
    ensure (s.isWellFormed ∧ areNames roles)
      (.valueError "start_reviews requires exactly one subject and review roles")
  | requestRepair _ s findings =>
    ensure (s.isWellFormed ∧ areNames findings)
      (.valueError "request_repair requires exactly one subject and finding ids")
  | resolveCandidateBlocker _ c _ _ =>
    ensure (isGitSha c) (.valueError "program candidate commit is invalid")
  | promoteCandidate _ s reviews =>
    ensure (s.isWellFormed ∧ areNames reviews)
      (.valueError "promote_candidate requires exactly one subject and review ids")
  | integrateCandidate _ c head _ =>
    ensure (isGitSha c ∧ isGitSha head)
      (.valueError "integrate_candidate requires candidate, trunk HEAD and strategy")
  | _ => pure ()

end ProgramAction

/-- `ModelFacingProgramControllerActionBundle` with its typed actions. -/
structure ProgramBundle where
  decisionId : Ledger.DecisionKey
  programId : String
  planDigest : String
  generation : ℕ
  eventKind : Ledger.ProgramEventKind
  eventKey : String
  expectedProgramRevision : ℕ
  expectedTrunkHead : String
  actions : List ProgramAction
  rationale : String
deriving DecidableEq

namespace ProgramBundle

variable (b : ProgramBundle)

def externalEffects : List (String × String) := b.actions.flatMap (·.externalEffects)

def checkActions : List ProgramAction → Checked Unit
  | [] => pure ()
  | action :: actions => do
    action.check
    checkActions actions

/-- What the constructor accepts, with the identities of the effects that it computes. -/
def check : Checked Unit := do
  let kinds := b.actions.map (·.kind)
  checkActions b.actions
  ensure (1 ≤ b.actions.length ∧ b.actions.length ≤ 16)
    (.valueError "program action bundle must contain one to sixteen typed actions")
  ensure (kinds.Nodup ∧ (.acknowledgeOnly ∈ kinds → b.actions.length = 1))
    (.valueError "program action kinds must be unique and acknowledge_only is exclusive")
  ensure (b.externalEffects.map (·.1)).Nodup
    (.valueError "program action bundle external effects are not unique")

end ProgramBundle

/-! ### Effects on the tables -/

abbrev QueueStates := DispatchParts → Option Ledger.QueueState

namespace Program

variable (P : Program)

/-- The milestones of a start, none of which may share a surface with another. -/
def checkStarts (seen : List String) : List String → Checked Unit
  | [] => pure ()
  | id :: ids => do
    let m ← P.milestone id (.staleWriter "program start action names an unknown milestone")
    ensure ((← P.applicableBlocker .start id).isNone)
      (.staleWriter "program start action has a blocking program prerequisite")
    ensure (m.node.mutableSurfaces.all (· ∉ seen))
      (.staleWriter "program start action has overlapping mutable ownership")
    ensure (!m.ownsRole executor)
      (.staleWriter "program start action would duplicate an executor START")
    checkStarts (seen ++ m.node.mutableSurfaces) ids

def startReadyMilestones (ids : List String) : Checked Program := do
  let nodes ← P.nodes
  ensure (ids.all (· ∈ readyMilestones nodes))
    (.staleWriter "program start action names a non-ready milestone")
  P.checkStarts [] ids
  pure P

def targets (m : Milestone) (subject : Subject) (action : String) : Checked Unit :=
  ensure (subject.kind = m.node.outcome.kind ∧ m.subject = some subject)
    (.staleWriter s!"program {action} action does not target the exact program subject")

/-- The last dispatch of the role is over. -/
def reviewerIsFree (queue : QueueStates) (milestoneId : String) (m : Milestone) (role : String) :
    Bool :=
  m.latestGeneration role = 0 ||
    (queue ⟨P.programId, milestoneId, role, m.latestGeneration role⟩).any (· ∈ [.completed, .failed, .cancelled])

def startReviews (queue : QueueStates) (milestoneId : String) (subject : Subject)
    (roles : List String) : Checked Program := do
  let m ← P.milestone milestoneId (.staleWriter "program review action is incomplete")
  targets m subject "review"
  ensure ((← P.applicableBlocker .start milestoneId).isNone)
    (.staleWriter "program review action has a blocking program prerequisite")
  ensure (roles = m.eligibleReviewRoles (some subject))
    (.staleWriter "program review action does not name the eligible promotion phase")
  ensure (roles.all (P.reviewerIsFree queue milestoneId m))
    (.staleWriter "program review action would duplicate a current reviewer START")
  ensure (m.state ∈ [.completed, .blocked, .needsDecision, .repairRequired, .reviewing])
    (.staleWriter "program review action requires a completed or reviewing milestone")
  let moved ← m.transition .reviewing m.state
  pure (P.setMilestone milestoneId moved)

def knownBlockers (m : Milestone) (subject : Subject) : List String :=
  ((m.reviewsOf subject).filter (·.promotionBlocking)).flatMap (·.findingIds)

def requestRepair (milestoneId : String) (subject : Subject) (findingIds : List String) :
    Checked Program := do
  let m ← P.milestone milestoneId (.staleWriter "program repair action is incomplete")
  targets m subject "repair"
  ensure (findingIds.all (· ∈ knownBlockers m subject))
    (.staleWriter "program repair action names a non-blocking or unknown finding")
  ensure (m.ownsRole executor) (.staleWriter "program repair requires its original executor owner")
  ensure (m.state ∈ [.reviewing, .repairRequired])
    (.staleWriter "program repair requires a reviewing milestone")
  let moved ← m.transition .repairRequired .reviewing
  pure (P.setMilestone milestoneId
    (moved.recordFact (.repairRequested subject.candidateSha? findingIds)))

def resolveCandidateBlocker (milestoneId candidateSha gateId : String)
    (resolution : BlockerResolution) : Checked Program := do
  let m ← P.milestone milestoneId
    (.staleWriter "program blocker action does not target the exact candidate")
  ensure (m.candidateSha = some candidateSha)
    (.staleWriter "program blocker action does not target the exact candidate")
  let blocker ← programCandidateBlocker m.lifecycle candidateSha
  ensure (blocker.any (·.gateId = gateId))
    (.staleWriter "program blocker action does not target the current terminal blocker")
  pure (P.setMilestone milestoneId
    (m.recordFact (.candidateBlockerResolved candidateSha gateId resolution)))

def promoteCandidate (digests : Digests) (milestoneId : String) (subject : Subject)
    (reviewIds : List String) (now : Time) : Checked Program := do
  let m ← P.milestone milestoneId (.staleWriter "program promotion action is incomplete")
  targets m subject "promotion"
  m.validateReviewSet subject reviewIds
  ensure ((← P.applicableBlocker .promote milestoneId).isNone)
    (.staleWriter "program promotion has a promotion-blocking terminal blocker")
  match m.node.outcome with
  | .noIntegration => do
    ensure (m.state = .reviewing)
      (.staleWriter "runtime evidence promotion requires a reviewing milestone")
    pure P
  | .git => do
    let accepted ← (m.promote subject reviewIds).accept
      (.staleWriter "program promotion requires a reviewing milestone")
    pure (P.setMilestone milestoneId accepted)
  | .alreadyIntegrated .. =>
    (P.setMilestone milestoneId (m.promote subject reviewIds)).closeNode digests milestoneId
      { subject := subject, reviewIds := reviewIds } false now

def integrateCandidate (trunkHead milestoneId candidateSha expectedTrunkHead : String)
    (strategy : IntegrationStrategy) (now : Time) : Checked Program := do
  let m ← P.milestone milestoneId
    (.staleWriter "program integration action does not target the exact candidate")
  ensure (m.candidateSha = some candidateSha)
    (.staleWriter "program integration action does not target the exact candidate")
  ensure (expectedTrunkHead = trunkHead) (.staleWriter "program integration trunk HEAD is stale")
  ensure m.node.outcome.isGit
    (.staleWriter "program integration is unsupported for this node outcome")
  ensure (m.promotedAlready (.commit candidateSha))
    (.staleWriter "program integration requires an exact promotion receipt")
  ensure ((← P.applicableBlocker .integrate milestoneId).isNone)
    (.staleWriter "program integration has a promotion-blocking terminal blocker")
  match m.integrationOf candidateSha with
  | none =>
    pure (P.setMilestone milestoneId
      (m.addIntegration ⟨candidateSha, expectedTrunkHead, strategy, now, none⟩))
  | some i => do
    ensure i.isPending (.staleWriter "program integration is already terminal")
    pure P

/-- One action of `_program_action_effects`; `trunkHead` is that of the row at the commit. -/
def applyAction (digests : Digests) (queue : QueueStates) (trunkHead : String) (now : Time)
    (P : Program) : ProgramAction → Checked Program
  | .startReadyMilestones ids => P.startReadyMilestones ids
  | .startReviews m s roles => P.startReviews queue m s roles
  | .requestRepair m s findings => P.requestRepair m s findings
  | .resolveCandidateBlocker m c gate resolution => P.resolveCandidateBlocker m c gate resolution
  | .promoteCandidate m s reviews => P.promoteCandidate digests m s reviews now
  | .integrateCandidate m c head strategy => P.integrateCandidate trunkHead m c head strategy now
  | .requireReplan _ => pure (P.inState .needsDecision)
  | .requireHumanAttention _ => pure (P.inState .needsDecision)
  | .acknowledgeOnly => pure P

/-- `_program_action_effects` -/
def actionEffects (digests : Digests) (queue : QueueStates) (b : ProgramBundle) (now : Time) :
    Checked Program := do
  P.requireCapability
  b.actions.foldlM (applyAction digests queue P.trunkHead now) P

def commitActions (digests : Digests) (queue : QueueStates) (b : ProgramBundle) (now : Time) :
    Checked Program := do
  let P' ← P.actionEffects digests queue b now
  pure { P' with
    revision := P.revision + 1
    state := if P'.state = .registered then .running else P'.state }

end Program

end CodexFlow.Programs
