import CodexFlow.Review.Session

/-!
# The review workflow

`ReviewWorkflow.run` and `ReviewWorkflow.run_multi_authority`: the objective, a review round, at
most one repair and a fresh round. A callback is a function of its arguments and, where it is asked
in both rounds, of the number of the round, so that it may answer anything at each of its calls.
-/

namespace CodexFlow.Review

open Hook (Json lit)
open Programs (AcceptanceMode WorkflowState)
open Raising Review.Flow

structure ReviewWorkflow where
  /-- `self.config`, or what loading the configuration of the repository gives. -/
  config : Except Raised WorkflowConfig
  writeReviewArtifact : ReviewLifecycleResult → Except Raised Unit

/-- The arguments of `_project_result`. -/
structure Projection where
  status : LifecycleStatus
  accepted : Bool := false
  reviews : List ReviewResult := []
  repairs : List RepairRecord := []
  recovery : Option RecoveryDecision := none
  authorityPlan : Option AuthorityPlan := none
  renderedEvidence : List RenderedEvidence := []

def Projection.result (p : Projection) (lifecycle : List LifecycleRecord) :
    ReviewLifecycleResult where
  status := p.status
  accepted := p.accepted
  reviewIds := p.reviews.map (·.reviewId)
  findingIds := p.reviews.flatMap fun review => review.findings.map (·.findingId)
  repairIds := p.repairs.map (·.repairId)
  lifecycle := lifecycle
  recovery := p.recovery
  authorityPlan := p.authorityPlan
  renderedEvidence := p.renderedEvidence
  notificationFailure := false

def LifecycleRecord.isRecovery (record : LifecycleRecord) (recovery : RecoveryDecision) : Bool :=
  record.kind = "recovery_decision" && record.says "outcome" recovery.outcome.value &&
    record.says "checkpoint" recovery.checkpoint

/-- A recovery decision is recorded once. -/
def settleRecovery : Option RecoveryDecision → Flow Unit
  | none => pure ()
  | some recovery => do
      if (← get).lifecycle.any (·.isRecovery recovery) then pure ()
      else recordReviewRecovery recovery

/-- The executor's dispatch is claimed when the milestone is only planned. -/
def startExecutor : Flow WorkflowState := do
  let current ← currentState
  if current = .planned then do
    claimExecutor
    transition .running .starting
    pure .running
  else pure current

def objectiveOutput : Json → Except Raised Json
  | .obj fields => .ok (.obj fields)
  | _ => .error (.valueError "objective output must be a JSON object")

def Raised.isTransport : Raised → Bool
  | transportFailureBeforeIdentity => true
  | terminalFailureAfterIdentity => true
  | _ => false

/-- Every surviving finding says so, and no new finding claims to survive. -/
def survivalFault (prior findings : List ReviewFinding) (surviving masquerading : String) :
    Except Raised Unit :=
  match findings.find? fun finding =>
    finding.survivesPriorRepair ≠ (finding.findingId ∈ prior.map (·.findingId) : Bool) with
  | none => .ok ()
  | some finding =>
      if finding.survivesPriorRepair then .error (.controllerError masquerading)
      else .error (.controllerError surviving)

namespace ReviewWorkflow

variable (w : ReviewWorkflow)

/-- `_project_result` -/
def projectResult (p : Projection) : Flow ReviewLifecycleResult := do
  settleRecovery p.recovery
  let result := p.result (← get).lifecycle
  lift (w.writeReviewArtifact result)
  pure result

def objectiveFailed (e : Raised) (plan : Option AuthorityPlan) : Flow ReviewLifecycleResult := do
  if e.isTransport then do
    recordReviewTransition .failed .running .recovery "transport_failure"
      [("exception_class", text e.className)]
    w.projectResult
      { status := .transportFailure
        recovery := some (classifyRecovery { checkpoint := "objective_transport_boundary" })
        authorityPlan := plan }
  else if e.isException then do
    recordReviewTransition .failed .running .recovery "objective_failed"
      [("exception_class", text e.className)]
    w.projectResult
      { status := .failed
        recovery := some (classifyRecovery
          { provenInfeasible := true, checkpoint := "objective_failure" })
        authorityPlan := plan }
  else throw e

/-- Asks for the objective and records how it ended; nothing is returned when it completed. -/
def executeObjective (answer : Except Raised Json) (plan : Option AuthorityPlan) :
    Flow (Option ReviewLifecycleResult) := do
  match ← attempt (do lift (objectiveOutput (← ask .objective answer))) with
  | .ok output => do
      recordReviewTransition .completed .running .execution "objective_completed"
        [("output", output)]
      pure none
  | .error e => some <$> w.objectiveFailed e plan

/-! ### One reviewer -/

/-- The callbacks and the budget of `run`. -/
structure RunArguments where
  objective : Except Raised Json
  reviewer : ℕ → String → Bool → Except Raised ReviewResult
  repair : ReviewFinding → Except Raised RepairRecord
  currentRevision : ℕ → Except Raised String
  budget : Option Budget

def isStale (review : ReviewResult) (revision : String) : Bool :=
  review.reviewedRevision ≠ revision || !review.fresh || !review.readOnly

def staleReview (review : ReviewResult) (expected checkpoint : String)
    (reviews : List ReviewResult) (repairs : List RepairRecord) : Flow ReviewLifecycleResult := do
  recordReviewTransition .repairRequired .reviewing .recovery "stale_review"
    [("review_id", text review.reviewId), ("expected_revision", text expected),
      ("reviewed_revision", text review.reviewedRevision)]
  w.projectResult
    { status := .staleReview, reviews, repairs
      recovery := some (classifyRecovery { checkpoint := checkpoint }) }

def secondReview (args : RunArguments) (budget : Budget) (first : ReviewResult)
    (repair : RepairRecord) : Flow ReviewLifecycleResult := do
  let revision ← ask .revision (args.currentRevision 2)
  if budget.reviews ≥ budget.maxReviews then
    throw (.controllerError "review limit exhausted before fresh re-review")
  else do
    recordReviewTransition .reviewing .completed .review "review_started"
      [("review_index", .int 2), ("revision", text revision), ("read_only", .bool true),
        ("fresh", .bool true)]
    beginRound 2
    let second ← ask (.review none revision none) (args.reviewer 2 revision true)
    if isStale second revision then
      w.staleReview second revision "stale_re_review" [first, second] [repair]
    else do
      lift (survivalFault first.findings second.findings
        "a surviving finding must explicitly survive the exact prior repair"
        "new review scope cannot masquerade as a surviving finding")
      if second.promotionBlockers ≠ [] then do
        recordReviewTransition .failed .reviewing .recovery "re_review_rejected"
          [("review", reviewJson second)]
        w.projectResult
          { status := .rejectedAfterRepair, reviews := [first, second], repairs := [repair]
            recovery := some (classifyRecovery
              { provenInfeasible := true, checkpoint := "re_review_rejected" }) }
      else do
        recordReviewTransition .accepted .reviewing .acceptance "review_accepted"
          [("review", reviewJson second), ("same_owner_repair", .bool true)]
        w.projectResult
          { status := .accepted, accepted := true, reviews := [first, second],
            repairs := [repair] }

def repairFinding (args : RunArguments) (budget : Budget) (first : ReviewResult)
    (finding : ReviewFinding) : Flow ReviewLifecycleResult := do
  let record ← ask (.repair finding) (args.repair finding)
  if record.findingId ≠ finding.findingId ∨ !record.sameOwner then
    throw (.controllerError "repair must acknowledge the exact finding and same durable owner")
  else do
    recordReviewTransition .running .repairRequired .repair "repair_completed"
      [("repair_id", text record.repairId), ("finding_id", text record.findingId),
        ("same_owner", .bool record.sameOwner), ("outcome", text record.outcome)]
    recordReviewTransition .completed .running .execution "repair_execution_completed"
      [("repair_id", text record.repairId)]
    w.secondReview args { budget with repairs := budget.repairs + 1 } first record

/-- What follows the first review: acceptance, or the repair of what it found. -/
def judgeReview (args : RunArguments) (budget : Budget) (first : ReviewResult) :
    Flow ReviewLifecycleResult :=
  match first.promotionBlockers with
  | [] => do
      recordReviewTransition .accepted .reviewing .review "review_accepted"
        [("review", reviewJson first)]
      w.projectResult { status := .accepted, accepted := true, reviews := [first] }
  | finding :: others => do
      recordReviewTransition .repairRequired .reviewing .review "review_rejected"
        [("review", reviewJson first)]
      if ((finding :: others).length : ℤ) > (budget.maxRepairs : ℤ) - budget.repairs then
        w.projectResult
          { status := .limitExhausted, reviews := [first]
            recovery := some (classifyRecovery
              { provenInfeasible := true, checkpoint := "repair_limit" }) }
      else w.repairFinding args budget first finding

def firstReview (args : RunArguments) (budget : Budget) : Flow ReviewLifecycleResult := do
  let revision ← ask .revision (args.currentRevision 1)
  if budget.reviews ≥ budget.maxReviews then do
    recordReviewTransition .failed .completed .budget "limit_exhausted"
      [("limit", text "reviews")]
    w.projectResult
      { status := .limitExhausted
        recovery := some (classifyRecovery
          { provenInfeasible := true, checkpoint := "review_limit" }) }
  else do
    recordReviewTransition .reviewing .completed .review "review_started"
      [("review_index", .int 1), ("revision", text revision), ("read_only", .bool true)]
    beginRound 1
    let first ← ask (.review none revision none) (args.reviewer 1 revision true)
    if isStale first revision then w.staleReview first revision "stale_review" [first] []
    else w.judgeReview args { budget with reviews := budget.reviews + 1 } first

/-- `run` -/
def run (args : RunArguments) : Flow ReviewLifecycleResult := do
  let budget := args.budget.getD .standard
  let current ← startExecutor
  if current ≠ .running then
    throw (.controllerError
      s!"review objective requires RUNNING workflow state, found {current.value}")
  else
    match budget.exhausted with
    | some limit => do
        recordReviewTransition .failed .running .budget "limit_exhausted"
          [("limit", text limit.value)]
        w.projectResult
          { status := .limitExhausted
            recovery := some (classifyRecovery
              { provenInfeasible := true, checkpoint := "budget:" ++ limit.value }) }
    | none => do
        match ← w.executeObjective args.objective none with
        | some result => pure result
        | none => w.firstReview args { budget with turns := budget.turns + 1 }

end ReviewWorkflow

end CodexFlow.Review
