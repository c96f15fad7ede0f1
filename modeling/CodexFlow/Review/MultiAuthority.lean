import CodexFlow.Review.Workflow

/-!
# Several reviewers

`ReviewWorkflow.run_multi_authority`: every declared acceptance mode is reviewed by the authority
of its own, the architecture only once the others are green.
-/

namespace CodexFlow.Review

open Hook (Json lit)
open Programs (AcceptanceMode WorkflowState)
open Raising Review.Flow

/-- A reviewer callback, asked with the round, the revision and the evidence it is shown. -/
structure Reviewer where
  /-- The callback has a parameter for rendered evidence. -/
  takesEvidence : Bool
  answer : ℕ → String → Option RenderedEvidence → Except Raised ReviewResult

/-- The arguments of `run_multi_authority`. -/
structure MultiArguments where
  objective : Except Raised Json
  repair : ReviewFinding → Except Raised RepairRecord
  currentRevision : ℕ → Except Raised String
  acceptanceModes : Option (List AcceptanceMode)
  capsule : Option (List AcceptanceMode)
  reviewers : List (AcceptanceMode × Reviewer)
  objectiveReviewer : Option Reviewer
  visualReviewer : Option Reviewer
  architectureReviewer : Option Reviewer
  renderEvidence : Option (ℕ → String → Except Raised RenderedEvidence)
  architectureReplan : Option (ReviewFinding → Except Raised ReplanProposal)
  planner : Option (DecisionRequest → Except Raised DecisionResponse)
  notification : Option (ReviewLifecycleResult → Except Raised Unit)
  budget : Option Budget
  availableModels : Option (List String)

namespace MultiArguments

variable (args : MultiArguments)

def modes : List AcceptanceMode :=
  match args.capsule with
  | some modes => modes
  | none =>
      match args.acceptanceModes with
      | none | some [] => [.objective]
      | some modes => modes

def named : AcceptanceMode → Option Reviewer
  | .objective => args.objectiveReviewer
  | .visual => args.visualReviewer
  | .architecture => args.architectureReviewer

/-- `callback_map` -/
def callback (mode : AcceptanceMode) : Option Reviewer :=
  (args.named mode).orElse fun _ => args.reviewers.lookup mode

def nonArchitectureModes : List AcceptanceMode := args.modes.filter (· ≠ .architecture)

def initialReviewModes : List AcceptanceMode :=
  if args.nonArchitectureModes = [] then args.modes else args.nonArchitectureModes

def architectureIsLate : Bool :=
  .architecture ∈ args.modes && args.nonArchitectureModes ≠ []

/-- The checks on the callbacks that come before the ledger is touched. -/
def available : Except Raised Unit :=
  match args.modes.filter fun mode => (args.callback mode).isNone with
  | [] =>
      if .visual ∈ args.modes ∧ args.renderEvidence.isNone then
        .error (.authorityUnavailable "visual acceptance requires fixed rendered evidence")
      else .ok ()
  | missing => .error (.authorityUnavailable
      ("required reviewer callbacks are unavailable: " ++ ",".intercalate (missing.map modeValue)))

end MultiArguments

def reviewsGreen (results : List ReviewResult) : Bool :=
  results.all fun result => result.accepted && result.promotionBlockers = []

def rejectedWithoutBlockers (results : List ReviewResult) : List ReviewResult :=
  results.filter fun result => !result.accepted && result.promotionBlockers = []

def blockersIn (results : List ReviewResult) : List ReviewFinding :=
  results.flatMap (·.promotionBlockers)

/-- What a round of reviews works with. -/
structure Round where
  index : ℕ
  token : String
  evidence : Option RenderedEvidence
  /-- The reviews of the round before. -/
  prior : List ReviewResult

namespace Round

variable (round : Round) (plan : AuthorityPlan)

def shown (mode : AcceptanceMode) (reviewer : Reviewer) : Option RenderedEvidence :=
  match mode with
  | .objective => none
  | .visual => round.evidence
  | .architecture => if reviewer.takesEvidence then round.evidence else none

/-- A second review refers to the review of its authority before the repair. -/
def admitSuccessor (mode : AcceptanceMode) (result : ReviewResult) : Except Raised Unit :=
  match round.prior.find? (·.acceptanceMode = mode) with
  | none => .ok ()
  | some prior =>
      if ¬ prior.findings.isEmpty ∧ result.priorReviewId ≠ some prior.reviewId then
        .error (.controllerError "fresh review must reference the exact prior authority review")
      else survivalFault prior.findings result.findings
        "surviving finding must acknowledge the exact prior repair"
        "new review scope cannot masquerade as a surviving finding"

/-- The checks of `invoke` on what a reviewer returns. -/
def admitReview (mode : AcceptanceMode) (result : ReviewResult) : Except Raised Unit := do
  let assignment ← plan.forMode mode
  if result.reviewerRole ≠ assignment.role then
    throw (.controllerError s!"stale authority for {modeValue mode} review")
  else if result.acceptanceMode ≠ mode then
    throw (.controllerError s!"reviewer returned the wrong acceptance mode for {modeValue mode}")
  else if !result.fresh || !result.readOnly || result.reviewedRevision ≠ round.token then
    throw (.controllerError s!"stale {modeValue mode} reviewer result")
  else if mode = .visual ∧ ¬ round.evidence.any (·.evidenceId ∈ result.evidenceIds) then
    throw (.controllerError "visual review did not acknowledge fixed rendered evidence")
  else round.admitSuccessor mode result

/-- `invoke` -/
def invoke (args : MultiArguments) (mode : AcceptanceMode) : Flow ReviewResult :=
  match args.callback mode with
  | none => throw (.keyError (modeValue mode))
  | some reviewer => do
      let shown := round.shown mode reviewer
      let result ← ask (.review (some mode) round.token shown)
        (reviewer.answer round.index round.token shown)
      lift (round.admitReview plan mode result)
      recordReviewFact .review "authority_review"
        [("mode", text (modeValue mode)), ("review", reviewJson result),
          ("round", .int round.index)]
      pure result

/-- The reviews that converge the candidate. -/
def initial (args : MultiArguments) : Flow (List ReviewResult) :=
  args.initialReviewModes.mapM (round.invoke plan args)

/-- The late architecture review, of a candidate that the others accept. -/
def late (args : MultiArguments) (initial : List ReviewResult) : Flow (List ReviewResult) := do
  if args.architectureIsLate && reviewsGreen initial then do
    let review ← round.invoke plan args .architecture
    pure (initial ++ [review])
  else pure initial

end Round

def decisionRequest : DecisionRequest where
  requestId := "architecture-replan-decision"
  question := "The proposed architecture strategy changes an accepted boundary; confirm a new authorized scope."
  options := ["keep-accepted-boundary", "request-user-decision"]
  blocking := true

namespace ReviewWorkflow

variable (w : ReviewWorkflow)

/-- What the closures of `run_multi_authority` see. -/
structure Context where
  args : MultiArguments
  plan : AuthorityPlan
  budget : Budget
  reviews : List ReviewResult := []
  repairs : List RepairRecord := []
  evidence : Option RenderedEvidence := none

/-- `_project_result` of what the workflow has so far. -/
def projectContext (c : Context) (status : LifecycleStatus) (recovery : Option RecoveryDecision) :
    Flow ReviewLifecycleResult :=
  w.projectResult
    { status, reviews := c.reviews, repairs := c.repairs, recovery
      authorityPlan := some c.plan, renderedEvidence := c.evidence.toList }

/-- `budget_failure` -/
def budgetFailure (c : Context) (limit : String) : Flow ReviewLifecycleResult := do
  recordReviewFact .budget "limit_exhausted" [("limit", text limit)]
  let state ← currentState
  if state ∉ [.failed, .accepted] then
    recordReviewTransition .failed state .budget "limit_exhausted" [("limit", text limit)]
  else pure ()
  w.projectContext c .limitExhausted (some (classifyRecovery
    { provenInfeasible := true, checkpoint := "budget:" ++ limit }))

def roundFailed (c : Context) (e : Raised) : Flow ReviewLifecycleResult :=
  match e with
  | .authorityUnavailable _ => do
      recordReviewTransition .failed .reviewing .recovery "route_unavailable"
        [("exception_class", text e.className)]
      w.projectContext c .routeUnavailable none
  | .controllerError _ => do
      recordReviewTransition .failed .reviewing .recovery "stale_authority"
        [("exception_class", text e.className)]
      w.projectContext c .staleAuthority
        (some (classifyRecovery { checkpoint := "stale_authority" }))
  | .interrupt _ => throw e
  | _ => do
      recordReviewTransition .failed .reviewing .recovery "review_failed"
        [("exception_class", text e.className)]
      w.projectContext c .failed none

def evidenceFailed (c : Context) (e : Raised) : Flow ReviewLifecycleResult := do
  if e.isException then do
    recordReviewTransition .failed .completed .recovery "rendered_evidence_failed"
      [("exception_class", text e.className)]
    w.projectContext c .failed (some (classifyRecovery
      { provenInfeasible := true, checkpoint := "rendered_evidence" }))
  else throw e

def evidenceStale (c : Context) (data : List (String × Json)) : Flow ReviewLifecycleResult := do
  recordReviewTransition .failed .completed .recovery "stale_rendered_evidence" data
  w.projectContext c .staleReview (some (classifyRecovery { checkpoint := "rendered_evidence" }))

/-- The notification of an acceptance; its failure changes the report only. -/
def notify (c : Context) (result : ReviewLifecycleResult) : Flow ReviewLifecycleResult :=
  match c.args.notification with
  | none => pure result
  | some notification => do
      match ← attempt (ask .notification (notification result)) with
      | .ok () => pure result
      | .error e =>
          if e.isException then do
            recordReviewFact .acceptance "notification_failure"
              [("exception_class", text e.className)]
            let relabelled :=
              { result with notificationFailure := true, lifecycle := (← get).lifecycle }
            lift (w.writeReviewArtifact relabelled)
            pure relabelled
          else throw e

def acceptAll (c : Context) (last : List ReviewResult) (data : List (String × Json))
    (recovery : Option RecoveryDecision) : Flow ReviewLifecycleResult := do
  recordReviewTransition .accepted .reviewing .acceptance "all_authorities_accepted"
    (("review_ids", texts (last.map (·.reviewId))) :: data)
  let result ← w.projectResult
    { status := .accepted, accepted := true, reviews := c.reviews, repairs := c.repairs, recovery
      authorityPlan := some c.plan, renderedEvidence := c.evidence.toList }
  w.notify c result

def startRound (c : Context) (round : Round) : Flow Unit := do
  recordReviewTransition .reviewing .completed .review "review_round_started"
    [("round", .int round.index), ("revision", text round.token),
      ("acceptance_modes", texts (c.args.modes.map modeValue))]
  beginRound round.index

/-- The verdict on the fresh reviews after the repair. -/
def judgeSecond (c : Context) (recovery : Option RecoveryDecision) (second : List ReviewResult) :
    Flow ReviewLifecycleResult := do
  if rejectedWithoutBlockers second ≠ [] then do
    recordReviewTransition .failed .reviewing .recovery "re_review_rejected_without_finding"
      [("review_ids", texts ((rejectedWithoutBlockers second).map (·.reviewId)))]
    w.projectContext c .rejectedAfterRepair (some (classifyRecovery
      { provenInfeasible := true, checkpoint := "re_review_rejected_without_finding" }))
  else if blockersIn second ≠ [] then do
    recordReviewTransition .failed .reviewing .recovery "re_review_rejected"
      [("finding_ids", texts ((blockersIn second).map (·.findingId)))]
    w.projectContext c .rejectedAfterRepair (some (classifyRecovery
      { provenInfeasible := true, checkpoint := "re_review_rejected" }))
  else w.acceptAll c second [("same_owner_repair", .bool true)] recovery

def secondRound (c : Context) (recovery : Option RecoveryDecision) (first : List ReviewResult)
    (token : String) : Flow ReviewLifecycleResult := do
  let round : Round := ⟨2, token, c.evidence, first⟩
  startRound c round
  match ← attempt (round.initial c.plan c.args) with
  | .error e => w.roundFailed c e
  | .ok initial =>
      match ← attempt (round.late c.plan c.args initial) with
      | .error e => w.roundFailed { c with reviews := c.reviews ++ initial } e
      | .ok second =>
          w.judgeSecond { c with reviews := c.reviews ++ second } recovery second

/-- The evidence of the repaired candidate keeps the identity of the first. -/
def refreshEvidence (c : Context) (recovery : Option RecoveryDecision)
    (first : List ReviewResult) : Flow ReviewLifecycleResult := do
  let token ← ask .revision (c.args.currentRevision 2)
  if .visual ∈ c.args.modes then do
    match ← attempt (ask (.evidence token) (render c.args 2 token)) with
    | .error e => w.evidenceFailed c e
    | .ok refreshed =>
        if c.evidence.map (·.evidenceId) ≠ some refreshed.evidenceId then
          w.evidenceStale c
            [("expected_evidence_id", optional (c.evidence.map (·.evidenceId)))]
        else w.secondRound { c with evidence := some refreshed } recovery first token
  else w.secondRound c recovery first token
where
  /-- The renderer of the arguments; calling none at all is a `TypeError`. -/
  render (args : MultiArguments) (index : ℕ) (token : String) : Except Raised RenderedEvidence :=
    match args.renderEvidence with
    | some render => render index token
    | none => .error (.other "TypeError")

def repairBlocker (c : Context) (recovery : Option RecoveryDecision) (first : List ReviewResult)
    (finding : ReviewFinding) : Flow ReviewLifecycleResult := do
  match ← attempt (ask (.repair finding) (c.args.repair finding)) with
  | .error e =>
      if e.isException then do
        recordReviewTransition .failed .repairRequired .recovery "repair_failed"
          [("exception_class", text e.className)]
        w.projectContext c .failed (some (classifyRecovery
          { provenInfeasible := true, checkpoint := "repair_failed" }))
      else throw e
  | .ok record =>
      if record.findingId ≠ finding.findingId ∨ !record.sameOwner then
        throw (.controllerError
          "multi-authority repair must retain the exact finding and same owner")
      else do
        recordReviewTransition .running .repairRequired .repair "repair_completed"
          [("repair_id", text record.repairId), ("finding_id", text finding.findingId),
            ("same_owner", .bool true)]
        recordReviewTransition .completed .running .execution "repair_execution_completed"
          [("repair_id", text record.repairId)]
        w.refreshEvidence
          { c with
            budget := { c.budget with repairs := c.budget.repairs + 1 }
            repairs := [record] } recovery first

/-- The planner, when there is one, answers the request with one of its options. -/
def consultPlanner (c : Context) : Flow Unit :=
  match c.args.planner with
  | none => pure ()
  | some planner => do
      let response ← ask (.planner decisionRequest) (planner decisionRequest)
      if response.requestId ≠ decisionRequest.requestId then
        throw (.controllerError "planner returned an invalid decision response")
      else recordReviewDecisionResponse response

/-- An architecture proposal that changes an accepted boundary becomes a user decision. -/
def deferReplan (c : Context) (proposal : ReplanProposal) : Flow ReviewLifecycleResult := do
  recordReviewDecisionRequest decisionRequest
  consultPlanner c
  let recovery := classifyRecovery (proposal.boundary "architecture_replan")
  recordReviewRecovery recovery
  w.projectContext c
    (if recovery.outcome = .continueWithReplan then .continueWithReplan else .needsDecision)
    (some recovery)

/-- The rest of a rejected first round, once the architecture has no say in it any more. -/
def repairFirst (c : Context) (recovery : Option RecoveryDecision) (first : List ReviewResult) :
    Flow ReviewLifecycleResult := do
  if c.budget.repairs ≥ c.budget.maxRepairs then w.budgetFailure c "repairs"
  else
    match blockersIn first with
    | [] => throw (.other "IndexError")
    | finding :: _ => w.repairBlocker c recovery first finding

/-- The recovery authority diagnoses a rejection by the architecture before anything is repaired. -/
def replanArchitecture (c : Context) (first : List ReviewResult) : Flow ReviewLifecycleResult :=
  match blockersIn (first.filter (·.acceptanceMode = .architecture)) with
  | [] => w.repairFirst c none first
  | finding :: _ =>
      match c.args.architectureReplan with
      | none => throw (.authorityUnavailable
          "architecture rejection requires a recovery/replan authority")
      | some replan => do
          let proposal ← ask (.replan finding) (replan finding)
          if ¬ proposal.boundaryUnchanged then w.deferReplan c proposal
          else do
            let recovery := classifyRecovery { checkpoint := "architecture_replan" }
            recordReviewRecovery recovery
            recordReviewFact .recovery "architecture_replan_accepted"
              [("finding_id", text finding.findingId), ("strategy", text proposal.strategy),
                ("boundary_unchanged", .bool true)]
            w.repairFirst c (some recovery) first

/-- The verdict on the first round. -/
def judgeFirst (c : Context) (first : List ReviewResult) : Flow ReviewLifecycleResult := do
  if rejectedWithoutBlockers first ≠ [] then do
    recordReviewTransition .failed .reviewing .recovery "authority_rejected_without_finding"
      [("review_ids", texts ((rejectedWithoutBlockers first).map (·.reviewId)))]
    w.projectContext c .failed (some (classifyRecovery
      { checkpoint := "review_rejected_without_finding" }))
  else if reviewsGreen first then w.acceptAll c first [] none
  else do
    recordReviewTransition .repairRequired .reviewing .review "multi_authority_rejected"
      [("finding_ids", texts ((blockersIn first).map (·.findingId)))]
    w.replanArchitecture c first

def firstRound (c : Context) (token : String) : Flow ReviewLifecycleResult := do
  let round : Round := ⟨1, token, c.evidence, []⟩
  startRound c round
  match ← attempt (do round.late c.plan c.args (← round.initial c.plan c.args)) with
  | .error e => w.roundFailed c e
  | .ok first => w.judgeFirst { c with reviews := first } first

/-- The fixed evidence of the candidate, when the visual mode is declared. -/
def fixEvidence (c : Context) : Flow ReviewLifecycleResult := do
  let token ← ask .revision (c.args.currentRevision 1)
  if .visual ∈ c.args.modes then do
    match ← attempt (ask (.evidence token) (refreshEvidence.render c.args 1 token)) with
    | .error e => w.evidenceFailed c e
    | .ok rendered =>
        if rendered.revision ≠ token then
          w.evidenceStale c [("expected_revision", text token)]
        else do
          recordReviewFact .review "rendered_evidence_fixed" (evidenceJson rendered)
          w.firstRound { c with evidence := some rendered } token
  else w.firstRound c token

/-- `run_multi_authority` -/
def runMultiAuthority (args : MultiArguments) : Flow ReviewLifecycleResult := do
  let config ← lift w.config
  let plan ← lift (config.deriveAuthorities args.modes args.availableModels)
  lift args.available
  let budget := args.budget.getD config.limits.budget
  let state ← startExecutor
  if state ≠ .running then
    throw (.controllerError "multi-authority review requires a running milestone")
  else do
    recordReviewFact .routing "authorities_derived"
      [("acceptance_modes", texts (args.modes.map modeValue)), ("authority_plan", plan.json)]
    let c : Context := { args, plan, budget }
    match budget.exhausted with
    | some limit => w.budgetFailure c limit.value
    | none => do
        match ← w.executeObjective args.objective (some plan) with
        | some result => pure result
        | none => w.fixEvidence { c with budget := { budget with turns := budget.turns + 1 } }

end ReviewWorkflow

end CodexFlow.Review
