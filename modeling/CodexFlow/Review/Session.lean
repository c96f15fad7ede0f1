import CodexFlow.Lib.Raising
import CodexFlow.Review.Types

/-!
# A milestone under review

The state a review workflow works on: the milestone with its lifecycle facts in the ledger, and the
callbacks it has asked so far. Each ledger method is one transaction that raises without a trace.
-/

namespace CodexFlow.Review

open Hook (Json lit)
open Programs (AcceptanceMode WorkflowState)

structure LifecycleRecord where
  phase : LifecyclePhase
  kind : String
  sequence : ℕ
  data : List (String × Json)

/-- The field of a record equals the text. -/
def LifecycleRecord.says (record : LifecycleRecord) (key value : String) : Bool :=
  (record.data.lookup key).any (·.isStr (lit value))

/-- `ReviewLifecycleResult` -/
structure ReviewLifecycleResult where
  status : LifecycleStatus
  accepted : Bool
  reviewIds : List String
  findingIds : List String
  repairIds : List String
  lifecycle : List LifecycleRecord
  recovery : Option RecoveryDecision
  authorityPlan : Option AuthorityPlan
  renderedEvidence : List RenderedEvidence
  notificationFailure : Bool

/-- One callback that was asked, with its answer, or the start of a review round. -/
inductive Exchange where
  | objective (answer : Except Raised Json)
  | revision (answer : Except Raised String)
  | evidence (token : String) (answer : Except Raised RenderedEvidence)
  | round (index : ℕ)
  | review (mode : Option AcceptanceMode) (token : String) (shown : Option RenderedEvidence)
      (answer : Except Raised ReviewResult)
  | repair (finding : ReviewFinding) (answer : Except Raised RepairRecord)
  | replan (finding : ReviewFinding) (answer : Except Raised ReplanProposal)
  | planner (request : DecisionRequest) (answer : Except Raised DecisionResponse)
  | notification (answer : Except Raised Unit)

/-- The rows of the milestone, the generation of its executor dispatch, and the exchanges of the
workflow so far, newest first. -/
structure Session where
  state : WorkflowState
  executor : Option ℕ
  lifecycle : List LifecycleRecord
  exchanges : List Exchange

/-- A workflow in progress: it keeps what it wrote when it raises. -/
abbrev Flow := Raising Session Raised

namespace Flow

open Raising

/-! ### The ledger -/

def currentState : Flow WorkflowState := return (← get).state

/-- `claim_dispatch(run, milestone, "executor", 1)` -/
def claimExecutor : Flow Unit := do
  let session ← get
  match session.executor with
  | some 1 => pure ()
  | some generation =>
      throw (.dispatchConflict s!"milestone role executor is owned by generation {generation}")
  | none =>
      if session.state ≠ .planned then
        throw (.invalidTransition
          s!"dispatch claim requires PLANNED, found {session.state.value}")
      else modify fun s => { s with executor := some 1, state := .starting }

/-- The compare-and-set that `transition` and `record_review_transition` share. -/
def moveFrom (expected target : WorkflowState) : Flow Unit := do
  let session ← get
  if session.state ≠ expected then
    throw (.staleWriter
      s!"stale writer: expected {expected.value}, current is {session.state.value}")
  else if ¬ session.state.isTransitionAllowed target then
    throw (.invalidTransition s!"{session.state.value} -> {target.value} is not allowed")
  else modify fun s => { s with state := target }

/-- `transition` -/
def transition (target expected : WorkflowState) : Flow Unit := do
  if (← get).state = expected ∧ expected = .planned ∧ target = .starting then
    throw (.invalidTransition "PLANNED -> STARTING is reserved for claim_dispatch")
  else moveFrom expected target

/-- `record_review_fact` -/
def recordReviewFact (phase : LifecyclePhase) (kind : String) (data : List (String × Json)) :
    Flow Unit :=
  modify fun s => { s with
    lifecycle := s.lifecycle ++ [⟨phase, kind, s.lifecycle.length + 1, data⟩] }

/-- `record_review_transition` -/
def recordReviewTransition (target expected : WorkflowState) (phase : LifecyclePhase)
    (kind : String) (data : List (String × Json)) : Flow Unit := do
  moveFrom expected target
  recordReviewFact phase kind data

/-- `record_review_recovery` -/
def recordReviewRecovery (decision : RecoveryDecision) : Flow Unit :=
  recordReviewFact .recovery "recovery_decision"
    [("outcome", text decision.outcome.value), ("rationale", text decision.rationale),
      ("checkpoint", text decision.checkpoint), ("finding_ids", texts decision.findingIds),
      ("external_prerequisite", optional decision.externalPrerequisite),
      ("decision_request_id", optional decision.decisionRequestId)]

/-- `record_review_decision_request` -/
def recordReviewDecisionRequest (request : DecisionRequest) : Flow Unit :=
  recordReviewFact .decision "decision_request"
    [("request_id", text request.requestId), ("question", text request.question),
      ("options", texts request.options), ("blocking", .bool request.blocking)]

def requestOptions (lifecycle : List LifecycleRecord) (requestId : String) : Option (List Json) :=
  (lifecycle.reverse.find? fun record =>
    record.kind = "decision_request" ∧ record.says "request_id" requestId).map
      fun record => match record.data.lookup "options" with
        | some (.arr options) => options
        | _ => []

/-- `record_review_decision_response` -/
def recordReviewDecisionResponse (response : DecisionResponse) : Flow Unit := do
  match requestOptions (← get).lifecycle response.requestId with
  | none => throw (.recordNotFound s!"decision request {response.requestId} does not exist")
  | some options =>
      if ¬ options.any (·.isStr (lit response.choice)) then
        throw (.valueError "decision response choice is not one of the persisted request options")
      else
        recordReviewFact .decision "decision_response"
          [("request_id", text response.requestId), ("choice", text response.choice),
            ("rationale", text response.rationale)]

/-! ### The callbacks -/

/-- Asks a callback: its answer becomes part of the exchanges before it is looked at. -/
def ask {α : Type} (exchange : Except Raised α → Exchange) (answer : Except Raised α) : Flow α := do
  modify fun s => { s with exchanges := exchange answer :: s.exchanges }
  lift answer

def beginRound (index : ℕ) : Flow Unit :=
  modify fun s => { s with exchanges := .round index :: s.exchanges }

/-! ### What they do -/

section

variable {s : Session}

theorem ends_moveFrom {expected target : WorkflowState} {Q : Except Raised Unit → Session → Prop}
    (hs : s.state = expected) (allowed : expected.isTransitionAllowed target) :
    Ends (moveFrom expected target) s Q ↔ Q (.ok ()) { s with state := target } := by
  simp [moveFrom, hs, allowed]

theorem ends_recordReviewTransition {expected target : WorkflowState} {phase : LifecyclePhase}
    {kind : String} {data : List (String × Json)} {Q : Except Raised Unit → Session → Prop}
    (hs : s.state = expected) (allowed : expected.isTransitionAllowed target) :
    Ends (recordReviewTransition target expected phase kind data) s Q ↔
      Q (.ok ()) { s with
        state := target
        lifecycle := s.lifecycle ++ [⟨phase, kind, s.lifecycle.length + 1, data⟩] } := by
  simp only [recordReviewTransition, ends_bind, ends_moveFrom hs allowed, followed_ok,
    recordReviewFact, ends_modify]

@[simp] theorem ends_recordReviewFact {phase : LifecyclePhase} {kind : String}
    {data : List (String × Json)} {Q : Except Raised Unit → Session → Prop} :
    Ends (recordReviewFact phase kind data) s Q ↔
      Q (.ok ()) { s with
        lifecycle := s.lifecycle ++ [⟨phase, kind, s.lifecycle.length + 1, data⟩] } := Iff.rfl

@[simp] theorem ends_ask {α : Type} {exchange : Except Raised α → Exchange}
    {answer : Except Raised α} {Q : Except Raised α → Session → Prop} :
    Ends (ask exchange answer) s Q ↔
      Q answer { s with exchanges := exchange answer :: s.exchanges } := by
  simp only [ask, ends_bind, ends_modify, followed_ok, ends_lift]

@[simp] theorem ends_beginRound {index : ℕ} {Q : Except Raised Unit → Session → Prop} :
    Ends (beginRound index) s Q ↔
      Q (.ok ()) { s with exchanges := .round index :: s.exchanges } := Iff.rfl

@[simp] theorem ends_currentState {Q : Except Raised WorkflowState → Session → Prop} :
    Ends currentState s Q ↔ Q (.ok s.state) s := Iff.rfl

end

end Flow

end CodexFlow.Review
