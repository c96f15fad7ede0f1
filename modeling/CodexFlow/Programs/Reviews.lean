import CodexFlow.Programs.Results
import CodexFlow.Lib.LastMatch

/-!
# Reviews

The reviewers that a subject needs, the reviews it has, and what a new review opens.
-/

namespace CodexFlow.Programs

open Ledger (Time)
open Checked

namespace Node

variable (node : Node)

/-- `_declared_program_review_roles`, in the order of their names. -/
def declaredReviewRoles : List String :=
  ([.architecture, .objective, .visual].filter fun mode : AcceptanceMode =>
    mode ∈ node.acceptanceModes).map (·.role)

/-- The roles of the first phase: those beside the architecture reviewer, if there are any. -/
def initialReviewRoles : List String :=
  let others := node.declaredReviewRoles.filter (· ≠ architectureReviewer)
  if others.isEmpty then node.declaredReviewRoles else others

end Node

namespace Milestone

variable (m : Milestone) (subject : Subject)

def reviewsOf : List ReviewFact :=
  m.lifecycle.filterMap fun fact => fact.review?.filter (·.subject = subject)

def lastReview (role : String) : Option ReviewFact :=
  LastMatch.findLast (·.reviewerRole = role) (m.reviewsOf subject)

/-- `_eligible_program_review_roles` -/
def eligibleReviewRoles (subject : Option Subject) : List String :=
  match subject with
  | none => m.node.initialReviewRoles
  | some s =>
    if (m.reviewsOf s).isEmpty then m.node.initialReviewRoles
    else if ¬m.node.initialReviewRoles.all (fun role =>
        (m.lastReview s role).any fun r => r.accepted && !r.promotionBlocking) then []
    else if architectureReviewer ∈ m.node.declaredReviewRoles ∧
        (m.lastReview s architectureReviewer).isNone then [architectureReviewer]
    else []

def sameNames (names names' : List String) : Bool :=
  names.all (· ∈ names') && names'.all (· ∈ names)

/-- `_validate_program_review_set_in_transaction` -/
def validateReviewSet (reviewIds : List String) : Checked Unit := do
  let reviews := m.reviewsOf subject
  let accepted := reviews.filter (·.accepted)
  ensure (sameNames reviewIds (accepted.map (·.reviewId)) ∧ accepted ≠ [] ∧
      sameNames (accepted.map (·.reviewerRole)) m.node.declaredReviewRoles)
    (.staleWriter "program closure requires every exact accepted review")
  ensure (m.node.acceptanceCriteriaSha256.isSome →
      reviews.all (·.acceptanceCriteriaSha256 = m.node.acceptanceCriteriaSha256))
    (.staleWriter "program closure reviews are bound to stale acceptance criteria")
  ensure (reviews.all (!·.promotionBlocking))
    (.staleWriter "program closure has a promotion-blocking review finding")

end Milestone

/-! ### A new review -/

/-- `ReviewResult`; a finding is its identity with whether it blocks a promotion. -/
structure ReviewResult where
  reviewId : String
  reviewerRole : String
  acceptanceMode : AcceptanceMode
  accepted : Bool
  findings : List (String × Bool)
  reviewedRevision : Subject
  fresh : Bool
  readOnly : Bool
deriving DecidableEq

namespace ReviewResult

variable (q : ReviewResult)

def fact (node : Node) : ReviewFact where
  reviewId := q.reviewId
  reviewerRole := q.reviewerRole
  acceptanceMode := q.acceptanceMode
  accepted := q.accepted
  findingIds := q.findings.map (·.1)
  promotionBlocking := !q.accepted || q.findings.any (·.2)
  acceptanceCriteriaSha256 := node.acceptanceCriteriaSha256
  subject := q.reviewedRevision

end ReviewResult

namespace Milestone

variable (m : Milestone) (milestoneId : String) (subject : Subject)

def reviewEvent (digests : Digests) : Option NewEvent :=
  let reviews := m.reviewsOf subject
  let roles := reviews.map (·.reviewerRole)
  let key := s!"milestone/{milestoneId}/reviews/"
  if ¬m.node.initialReviewRoles.all (· ∈ roles) then none
  else if reviews.any (fun r => r.reviewerRole ∈ m.node.initialReviewRoles && r.promotionBlocking) then
    some ⟨.controllerAttention, key ++ subject.wireValue ++ "/initial-blocked"⟩
  else if architectureReviewer ∈ m.node.declaredReviewRoles ∧ architectureReviewer ∉ roles then
    some ⟨.controllerAttention, key ++ subject.wireValue ++ "/architecture-ready"⟩
  else if reviews.any (fun r => r.reviewerRole = architectureReviewer && r.promotionBlocking) then
    some ⟨.controllerAttention, key ++ subject.wireValue ++ "/architecture-blocked"⟩
  else if sameNames m.node.declaredReviewRoles roles ∧ reviews.all (·.accepted) then
    some ⟨.reviewCompleted, key ++ digests.reviews (reviews.map (·.reviewId))⟩
  else none

end Milestone

/-- `record_program_review` -/
def Program.recordProgramReview (digests : Digests) (P : Program) (milestoneId : String)
    (q : ReviewResult) : Checked (Program × Option NewEvent) := do
  ensure (q.fresh ∧ q.readOnly)
    (.staleWriter "review does not declare fresh read-only evidence")
  ensure q.reviewedRevision.isWellFormed (.staleWriter "review subject is malformed")
  P.requireCapability
  let m ← P.milestone milestoneId (.recordNotFound milestoneId)
  ensure (q.reviewedRevision.kind = m.node.outcome.kind ∧ m.subject = some q.reviewedRevision)
    (.staleWriter "review does not cover the exact current program subject")
  ensure (q.reviewerRole = q.acceptanceMode.role)
    (.staleWriter "review role does not match its declared acceptance mode")
  match Journal.latest (fun fact => fact.review?.filter (·.reviewId = q.reviewId)) m.lifecycle with
  | some review => do
    ensure (review = q.fact m.node)
      (.staleWriter "program review replay conflicts with its durable result")
    pure (P, none)
  | none =>
    let reviewed := m.recordFact (.reviewCompleted (q.fact m.node))
    pure (P.setMilestone milestoneId reviewed,
      reviewed.reviewEvent milestoneId q.reviewedRevision digests)

end CodexFlow.Programs
