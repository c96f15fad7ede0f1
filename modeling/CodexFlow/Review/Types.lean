import CodexFlow.Hook.Json
import CodexFlow.Programs.Types
import Mathlib

/-!
# Values of the review workflow

Findings, reviews, repairs, rendered evidence, budgets and routes as their constructors leave them,
with the JSON that the lifecycle facts are made of.
-/

namespace CodexFlow.Review

open Hook (Json lit)
open Programs (AcceptanceMode WorkflowState executor)

/-! ### JSON of typed values -/

def text (s : String) : Json := .str (lit s)

def texts (ss : List String) : Json := .arr (ss.map text)

def optional (s : Option String) : Json := (s.map text).getD .null

def object (fields : List (String × Json)) : Json :=
  .obj (fields.map fun field => (lit field.1, field.2))

/-! ### Enumerations -/

def modeValue : AcceptanceMode → String
  | .objective => "objective"
  | .visual => "visual"
  | .architecture => "architecture"

inductive FindingCausalClass where
  | implementation
  | contract
  | acceptance
  | security
  | environment
  | transport
  | review
  | staleReview
deriving DecidableEq

def FindingCausalClass.value : FindingCausalClass → String
  | implementation => "implementation"
  | contract => "contract"
  | acceptance => "acceptance"
  | security => "security"
  | environment => "environment"
  | transport => "transport"
  | review => "review"
  | staleReview => "stale_review"

inductive Severity where
  | P0
  | P1
  | P2
  | P3
deriving DecidableEq

def Severity.value : Severity → String
  | P0 => "P0"
  | P1 => "P1"
  | P2 => "P2"
  | P3 => "P3"

inductive ReasoningEffort where
  | none
  | minimal
  | low
  | medium
  | high
  | xhigh
deriving DecidableEq

def ReasoningEffort.value : ReasoningEffort → String
  | none => "none"
  | minimal => "minimal"
  | low => "low"
  | medium => "medium"
  | high => "high"
  | xhigh => "xhigh"

inductive LifecyclePhase where
  | execution
  | review
  | repair
  | recovery
  | decision
  | budget
  | acceptance
  | routing
deriving DecidableEq

/-- `LifecycleStatus`, as far as a review workflow reports it. -/
inductive LifecycleStatus where
  | accepted
  | continueWithReplan
  | needsDecision
  | failed
  | transportFailure
  | staleReview
  | limitExhausted
  | rejectedAfterRepair
  | staleAuthority
  | routeUnavailable
deriving DecidableEq

inductive RecoveryOutcome where
  | changeStrategy
  | continueWithReplan
  | needsDecision
  | externalBlocked
  | failed
deriving DecidableEq

def RecoveryOutcome.value : RecoveryOutcome → String
  | changeStrategy => "change_strategy"
  | continueWithReplan => "continue_with_replan"
  | needsDecision => "needs_decision"
  | externalBlocked => "external_blocked"
  | failed => "failed"

/-! ### Findings and reviews -/

structure ReviewFinding where
  findingId : String
  causalClass : FindingCausalClass
  severity : Severity
  promotionBlocking : Bool
  promotionReason : String
  evidence : Json
  criterion : String
  deferTo : Option String
  survivesPriorRepair : Bool

def blockersOf (findings : List ReviewFinding) : List ReviewFinding :=
  findings.filter (·.promotionBlocking)

/-- `ReviewResult`, with the checks of its constructor. -/
structure ReviewResult where
  reviewId : String
  reviewerRole : String
  accepted : Bool
  findings : List ReviewFinding
  reviewedRevision : String
  fresh : Bool
  readOnly : Bool
  priorReviewId : Option String
  acceptanceMode : AcceptanceMode
  evidenceIds : List String
  distinct : (findings.map (·.findingId)).Nodup
  readOnly_eq : readOnly = true
  unblocked : accepted = true → blockersOf findings = []

namespace ReviewResult

def promotionBlockers (r : ReviewResult) : List ReviewFinding := blockersOf r.findings

/-- A review that neither accepts nor says what has to change. -/
def RejectsSilently (r : ReviewResult) : Prop := r.accepted = false ∧ r.promotionBlockers = []

end ReviewResult

/-- `RepairRecord`; its constructor refuses one of another owner. -/
structure RepairRecord where
  repairId : String
  findingId : String
  ownerDispatchId : String
  action : String
  outcome : String
  sameOwner : Bool
  priorFindingSurvives : Bool
  sameOwner_eq : sameOwner = true

structure RenderedEvidence where
  evidenceId : String
  revision : String
  artifactSha256 : String
  artifactPath : String
  width : Option ℕ
  height : Option ℕ
deriving DecidableEq

def findingJson (f : ReviewFinding) : Json :=
  object [("finding_id", text f.findingId), ("causal_class", text f.causalClass.value),
    ("severity", text f.severity.value), ("promotion_blocking", .bool f.promotionBlocking),
    ("promotion_reason", text f.promotionReason), ("evidence", f.evidence),
    ("criterion", text f.criterion), ("defer_to", optional f.deferTo),
    ("survives_prior_repair", .bool f.survivesPriorRepair)]

def reviewJson (r : ReviewResult) : Json :=
  object [("review_id", text r.reviewId), ("reviewer_role", text r.reviewerRole),
    ("accepted", .bool r.accepted), ("reviewed_revision", text r.reviewedRevision),
    ("fresh", .bool r.fresh), ("read_only", .bool r.readOnly),
    ("prior_review_id", optional r.priorReviewId),
    ("acceptance_mode", text (modeValue r.acceptanceMode)), ("evidence_ids", texts r.evidenceIds),
    ("findings", .arr (r.findings.map findingJson))]

def evidenceJson (e : RenderedEvidence) : List (String × Json) :=
  [("evidence_id", text e.evidenceId), ("revision", text e.revision),
    ("artifact_sha256", text e.artifactSha256), ("artifact_path", text e.artifactPath),
    ("width", (e.width.map fun n => Json.int n).getD .null),
    ("height", (e.height.map fun n => Json.int n).getD .null)]

/-! ### Budgets -/

inductive BudgetExhaustion where
  | turns
  | repairs
  | reviews
  | compactions
  | validations
  | wallClock
deriving DecidableEq

def BudgetExhaustion.value : BudgetExhaustion → String
  | turns => "turns"
  | repairs => "repairs"
  | reviews => "reviews"
  | compactions => "compactions"
  | validations => "validations"
  | wallClock => "wall_clock"

structure Budget where
  maxTurns : ℕ
  maxRepairs : ℕ
  maxReviews : ℕ
  maxCompactions : ℕ
  maxValidations : ℕ
  wallClockSeconds : ℚ
  turns : ℕ
  repairs : ℕ
  reviews : ℕ
  compactions : ℕ
  validations : ℕ
  elapsedSeconds : ℚ

def Budget.exhausted (b : Budget) : Option BudgetExhaustion :=
  if b.turns ≥ b.maxTurns then some .turns
  else if b.repairs ≥ b.maxRepairs then some .repairs
  else if b.reviews ≥ b.maxReviews then some .reviews
  else if b.compactions ≥ b.maxCompactions then some .compactions
  else if b.validations ≥ b.maxValidations then some .validations
  else if b.elapsedSeconds ≥ b.wallClockSeconds then some .wallClock
  else none

/-- A budget that leaves room for one more turn. -/
theorem Budget.of_not_exhausted {b : Budget} (h : b.exhausted = none) :
    b.repairs < b.maxRepairs ∧ b.reviews < b.maxReviews := by
  unfold Budget.exhausted at h
  split_ifs at h
  constructor <;> omega

/-- The budget of an ordinary review when the caller gives none. -/
def Budget.standard : Budget where
  maxTurns := 2
  maxRepairs := 1
  maxReviews := 2
  maxCompactions := 1
  maxValidations := 2
  wallClockSeconds := 900
  turns := 0
  repairs := 0
  reviews := 0
  compactions := 0
  validations := 0
  elapsedSeconds := 0

/-! ### Exceptions -/

/-- What a call raises; the last two are any other exception and one that `except Exception` does
not catch. -/
inductive Raised where
  | transportFailureBeforeIdentity
  | terminalFailureAfterIdentity
  | authorityUnavailable (message : String)
  | workflowConfigError (message : String)
  | controllerError (message : String)
  | staleWriter (message : String)
  | invalidTransition (message : String)
  | dispatchConflict (message : String)
  | recordNotFound (message : String)
  | valueError (message : String)
  | keyError (key : String)
  | other (className : String)
  | interrupt (className : String)
deriving DecidableEq

namespace Raised

def className : Raised → String
  | transportFailureBeforeIdentity => "TransportFailureBeforeIdentity"
  | terminalFailureAfterIdentity => "TerminalFailureAfterIdentity"
  | authorityUnavailable _ => "AuthorityUnavailable"
  | workflowConfigError _ => "WorkflowConfigError"
  | controllerError _ => "ControllerError"
  | staleWriter _ => "StaleWriter"
  | invalidTransition _ => "InvalidTransition"
  | dispatchConflict _ => "DispatchConflict"
  | recordNotFound _ => "RecordNotFound"
  | valueError _ => "ValueError"
  | keyError _ => "KeyError"
  | other name => name
  | interrupt name => name

def isException : Raised → Bool
  | interrupt _ => false
  | _ => true

end Raised

/-! ### Authorities -/

structure RoleRoute where
  role : String
  model : String
  reasoningEffort : ReasoningEffort
deriving DecidableEq

structure WorkflowLimits where
  maxTurns : ℕ
  maxRepairs : ℕ
  maxCompactions : ℕ
  maxValidations : ℕ
  maxReviews : ℕ
  wallClockSeconds : ℚ

def WorkflowLimits.budget (l : WorkflowLimits) : Budget where
  maxTurns := l.maxTurns
  maxRepairs := l.maxRepairs
  maxReviews := l.maxReviews
  maxCompactions := l.maxCompactions
  maxValidations := l.maxValidations
  wallClockSeconds := l.wallClockSeconds
  turns := 0
  repairs := 0
  reviews := 0
  compactions := 0
  validations := 0
  elapsedSeconds := 0

structure AuthorityAssignment where
  mode : Option AcceptanceMode
  role : String
  model : String
  reasoningEffort : ReasoningEffort
deriving DecidableEq

structure AuthorityPlan where
  assignments : List AuthorityAssignment
deriving DecidableEq

namespace AuthorityPlan

/-- `AuthorityPlan(assignments)` -/
def new (assignments : List AuthorityAssignment) : Except Raised AuthorityPlan :=
  if ¬ (assignments.map (·.role)).Nodup then
    .error (.valueError "required review authorities must use distinct roles")
  else if ¬ (assignments.filterMap (·.mode)).Nodup then
    .error (.valueError "required review acceptance modes must use distinct authorities")
  else .ok ⟨assignments⟩

def forMode (plan : AuthorityPlan) (mode : AcceptanceMode) : Except Raised AuthorityAssignment :=
  match plan.assignments.find? (·.mode = some mode) with
  | some assignment => .ok assignment
  | none => .error (.keyError (modeValue mode))

def json (plan : AuthorityPlan) : Json :=
  object [("assignments", .arr (plan.assignments.map fun assignment =>
    object [("mode", optional (assignment.mode.map modeValue)), ("role", text assignment.role),
      ("model", text assignment.model),
      ("reasoning_effort", text assignment.reasoningEffort.value)]))]

end AuthorityPlan

structure WorkflowConfig where
  roles : List (String × RoleRoute)
  limits : WorkflowLimits

namespace WorkflowConfig

def route (config : WorkflowConfig) (role : String) : Except Raised RoleRoute :=
  match config.roles.lookup role with
  | some route => .ok route
  | none => .error (.workflowConfigError s!"workflow role is not configured: {role}")

/-- The roles that the declared modes need, each with its mode. -/
def required (modes : List AcceptanceMode) : List (Option AcceptanceMode × String) :=
  (none, executor) ::
    ([.objective, .visual, .architecture].filter (· ∈ modes)).map (fun mode => (some mode, mode.role))
    ++ [(none, "recovery"), (none, "decision")]

def assign (config : WorkflowConfig) (availableModels : Option (List String))
    (entry : Option AcceptanceMode × String) : Except Raised AuthorityAssignment := do
  let route ← config.route entry.2
  if route.role ≠ entry.2 then
    throw (.authorityUnavailable s!"configured route for {entry.2} is aliased to {route.role}")
  else if availableModels.any fun models => route.model ∉ models then
    throw (.authorityUnavailable s!"configured model route is unavailable: {route.model}")
  else pure ⟨entry.1, entry.2, route.model, route.reasoningEffort⟩

def deriveAuthorities (config : WorkflowConfig) (modes : List AcceptanceMode)
    (availableModels : Option (List String)) : Except Raised AuthorityPlan := do
  if modes = [] ∨ ¬ modes.Nodup then
    throw (.authorityUnavailable "acceptance modes must be non-empty and unique")
  else
    let assignments ← (required modes).mapM (config.assign availableModels)
    match AuthorityPlan.new assignments with
    | .ok plan => pure plan
    | .error (.valueError message) => throw (.authorityUnavailable message)
    | .error e => throw e

end WorkflowConfig

/-! ### Recovery -/

structure RecoveryDecision where
  outcome : RecoveryOutcome
  rationale : String
  checkpoint : String
  findingIds : List String
  externalPrerequisite : Option String
  decisionRequestId : Option String
deriving DecidableEq

/-- What `ReviewWorkflow.classify_recovery` is told. -/
structure Boundary where
  intentUnchanged : Bool := true
  contractUnchanged : Bool := true
  securityBoundaryUnchanged : Bool := true
  costUnchanged : Bool := true
  destructiveBehaviorUnchanged : Bool := true
  scopeUnchanged : Bool := true
  underdetermined : Bool := false
  externalPrerequisite : Option String := none
  provenInfeasible : Bool := false
  checkpoint : String := "durable_checkpoint"
deriving DecidableEq

def Boundary.unchanged (b : Boundary) : Bool :=
  b.intentUnchanged && b.contractUnchanged && b.securityBoundaryUnchanged && b.costUnchanged &&
    b.destructiveBehaviorUnchanged && b.scopeUnchanged

def classifyRecovery (b : Boundary) : RecoveryDecision :=
  if b.externalPrerequisite.isSome then
    ⟨.externalBlocked, "an external prerequisite is unavailable", b.checkpoint,
      [], b.externalPrerequisite, none⟩
  else if b.underdetermined then
    ⟨.needsDecision, "accepted intent or authority is underdetermined", b.checkpoint, [], none,
      some "decision-required"⟩
  else if b.provenInfeasible then
    ⟨.failed, "evidence shows the accepted goal is infeasible under its constraints",
      b.checkpoint, [], none, none⟩
  else if b.unchanged then
    ⟨.continueWithReplan, "the accepted contract and safety boundary remain unchanged",
      b.checkpoint, [], none, none⟩
  else
    ⟨.changeStrategy,
      "implementation strategy must change while the accepted outcome remains fixed",
      b.checkpoint, [], none, none⟩

structure ReplanProposal where
  strategy : String
  intentUnchanged : Bool
  contractUnchanged : Bool
  securityBoundaryUnchanged : Bool
  costUnchanged : Bool
  destructiveBehaviorUnchanged : Bool
  scopeUnchanged : Bool
deriving DecidableEq

/-- The flags of a proposal, as the recovery at `checkpoint` is classified by them. -/
def ReplanProposal.boundary (p : ReplanProposal) (checkpoint : String) : Boundary where
  intentUnchanged := p.intentUnchanged
  contractUnchanged := p.contractUnchanged
  securityBoundaryUnchanged := p.securityBoundaryUnchanged
  costUnchanged := p.costUnchanged
  destructiveBehaviorUnchanged := p.destructiveBehaviorUnchanged
  scopeUnchanged := p.scopeUnchanged
  checkpoint := checkpoint

def ReplanProposal.boundaryUnchanged (p : ReplanProposal) : Bool := (p.boundary "").unchanged

structure DecisionRequest where
  requestId : String
  question : String
  options : List String
  blocking : Bool
deriving DecidableEq

structure DecisionResponse where
  requestId : String
  choice : String
  rationale : String
deriving DecidableEq

end CodexFlow.Review
