import CodexFlow.Contracts.Results

/-!
# Results of a reviewer

A read-only review, as a reviewer writes its last message. The evidence of a finding is an object in
a text of its own.
-/

namespace CodexFlow.Contracts

open Hook (PyStr lit)
open Git (strip)
open Capsule (Floats JsonValue DictValue StrEnum Checked Identifier expect interoperable isIdentifier
  strictLoads ordered_of_strictLoads)
open Programs (AcceptanceMode)
open Review (FindingCausalClass Severity)
open Checked

variable {floats : Floats}

instance : StrEnum FindingCausalClass where
  all := [.implementation, .contract, .acceptance, .security, .environment, .transport, .review,
    .staleReview]
  value causalClass := lit causalClass.value
  find_value a := by cases a <;> decide

instance : StrEnum Severity where
  all := [.P0, .P1, .P2, .P3]
  value severity := lit severity.value
  find_value a := by cases a <;> decide

/-- `bool(value)` -/
def isTruthy (value : JsonValue floats) : Bool :=
  match value.val with
  | .null => false
  | .bool b => b
  | .int n => n ≠ 0
  | .float literal => floats.ofInt 0 ≠ some literal && literal ≠ lit "-0.0"
  | .str s => s ≠ []
  | .arr items => !items.isEmpty
  | .obj fields => !fields.isEmpty

/-! ### Findings -/

structure ReviewFinding (floats : Floats) where
  findingId : PyStr
  causalClass : FindingCausalClass
  severity : Severity
  promotionBlocking : Bool
  promotionReason : PyStr
  evidence : DictValue floats
  criterion : PyStr
  deferTo : Option PyStr := none
  survivesPriorRepair : JsonValue floats

inductive FindingKey where
  | findingId
  | causalClass
  | severity
  | promotionBlocking
  | promotionReason
  | evidenceJson
  | criterion
  | deferTo
  | survivesPriorRepair
deriving DecidableEq

instance : RecordKeys FindingKey where
  all := [.findingId, .causalClass, .severity, .promotionBlocking, .promotionReason, .evidenceJson,
    .criterion, .deferTo, .survivesPriorRepair]
  value
    | .findingId => lit "finding_id"
    | .causalClass => lit "causal_class"
    | .severity => lit "severity"
    | .promotionBlocking => lit "promotion_blocking"
    | .promotionReason => lit "promotion_reason"
    | .evidenceJson => lit "evidence_json"
    | .criterion => lit "criterion"
    | .deferTo => lit "defer_to"
    | .survivesPriorRepair => lit "survives_prior_repair"
  find_value a := by cases a <;> decide
  nodup := by decide

namespace ReviewFinding

/-- `__post_init__` -/
def check (f : ReviewFinding floats) : Checked Unit := do
  ensure (isIdentifier 127 f.findingId) "finding id must be a stable bounded identifier"
  checkText f.promotionReason "promotion reason" 4096
  checkText f.criterion "acceptance criterion" 4096
  checkOptionalText f.deferTo "defer_to" 256
  ensure (interoperable (.obj f.evidence.val)) "finding evidence must contain interoperable JSON"

instance : PostInit String (ReviewFinding floats) := .ofCheck check

/-- `_REVIEW_EVIDENCE_BYTES` -/
def maxEvidenceBytes : ℕ := 16384

/-- `_review_evidence_from_json` -/
def evidenceFromJson (value : JsonValue floats) : Checked (DictValue floats) := do
  let text ← expect value.asStr "review finding evidence_json must be a string"
  match h : strictLoads floats maxEvidenceBytes text with
  | none => .error "review finding evidence_json is not strict JSON"
  | some (.obj fields) => .ok ⟨fields, ordered_of_strictLoads h⟩
  | some _ => .error "review finding evidence_json must contain an object"

def fromJson (value : JsonValue floats) : Checked (Built (ReviewFinding floats)) := do
  let d ← expect value.asDict "review finding shape is unsupported"
  ensure (hasKeys d (StrEnum.all : List FindingKey)) "review finding shape is unsupported"
  let evidence ← evidenceFromJson (at_ d FindingKey.evidenceJson)
  let invalid := "review finding values are invalid"
  let causalClass ← enumOf _ (at_ d FindingKey.causalClass)
  let severity ← enumOf _ (at_ d FindingKey.severity)
  let findingId ← expect (at_ d FindingKey.findingId).asStr invalid
  let promotionBlocking ← expect (asBool (at_ d FindingKey.promotionBlocking)) invalid
  let promotionReason ← expect (at_ d FindingKey.promotionReason).asStr invalid
  let criterion ← expect (at_ d FindingKey.criterion).asStr invalid
  let deferTo ← optional JsonValue.asStr (at_ d FindingKey.deferTo) invalid
  Built.new
    { findingId, causalClass, severity, promotionBlocking, promotionReason, evidence, criterion,
      deferTo, survivesPriorRepair := at_ d FindingKey.survivesPriorRepair }

end ReviewFinding

/-! ### Reviews -/

structure ReviewResult (floats : Floats) where
  reviewId : PyStr
  reviewerRole : Identifier
  accepted : JsonValue floats
  findings : List (Built (ReviewFinding floats))
  reviewedRevision : PyStr
  fresh : JsonValue floats
  readOnly : JsonValue floats
  priorReviewId : JsonValue floats
  acceptanceMode : AcceptanceMode
  evidenceIds : List PyStr

inductive ReviewKey where
  | schemaVersion
  | reviewId
  | reviewerRole
  | accepted
  | findings
  | reviewedRevision
  | fresh
  | readOnly
  | priorReviewId
  | acceptanceMode
  | evidenceIds
deriving DecidableEq

instance : RecordKeys ReviewKey where
  all := [.schemaVersion, .reviewId, .reviewerRole, .accepted, .findings, .reviewedRevision, .fresh,
    .readOnly, .priorReviewId, .acceptanceMode, .evidenceIds]
  value
    | .schemaVersion => lit "schema_version"
    | .reviewId => lit "review_id"
    | .reviewerRole => lit "reviewer_role"
    | .accepted => lit "accepted"
    | .findings => lit "findings"
    | .reviewedRevision => lit "reviewed_revision"
    | .fresh => lit "fresh"
    | .readOnly => lit "read_only"
    | .priorReviewId => lit "prior_review_id"
    | .acceptanceMode => lit "acceptance_mode"
    | .evidenceIds => lit "evidence_ids"
  find_value a := by cases a <;> decide
  nodup := by decide

namespace ReviewResult

/-- `__post_init__` -/
def check (r : ReviewResult floats) : Checked Unit := do
  checkText r.reviewId "review id" 256
  checkText r.reviewedRevision "reviewed revision" 256
  ensure (r.findings.map (·.val.findingId)).Nodup
    "review findings must have unique stable identities"
  ensure (isTruthy r.readOnly) "review result must declare read-only authority"
  ensure (¬ (isTruthy r.accepted ∧ r.findings.any (·.val.promotionBlocking)))
    "accepted review cannot contain promotion-blocking findings"
  ensure (∀ id ∈ r.evidenceIds, strip id ≠ []) "review evidence ids must be non-empty strings"

instance : PostInit String (ReviewResult floats) := .ofCheck check

/-- `_REVIEW_WIRE_SCHEMA_VERSION` -/
def wireSchemaVersion : ℤ := 2

/-- `review_result_from_json` -/
def fromJson (d : DictValue floats) : Checked (Built (ReviewResult floats)) := do
  ensure (hasKeys d (StrEnum.all : List ReviewKey)) "review result keys are unsupported"
  ensure ((at_ d ReviewKey.schemaVersion).asInt = some wireSchemaVersion)
    "review result schema version is unsupported"
  let findings ← expect (at_ d ReviewKey.findings).asList "review result findings must be an array"
  let findings ← findings.mapM ReviewFinding.fromJson
  let evidenceIds ← expect (at_ d ReviewKey.evidenceIds).asStrings
    "review result evidence ids are malformed"
  let invalid := "review result values are invalid"
  let reviewerRole ← expect (at_ d ReviewKey.reviewerRole).asStr invalid
  let reviewerRole ← Identifier.new "role" reviewerRole
  let acceptanceMode ← enumOf _ (at_ d ReviewKey.acceptanceMode)
  let reviewId ← expect (at_ d ReviewKey.reviewId).asStr invalid
  let reviewedRevision ← expect (at_ d ReviewKey.reviewedRevision).asStr invalid
  Built.new
    { reviewId, reviewerRole, accepted := at_ d ReviewKey.accepted, findings, reviewedRevision
      fresh := at_ d ReviewKey.fresh, readOnly := at_ d ReviewKey.readOnly
      priorReviewId := at_ d ReviewKey.priorReviewId
      acceptanceMode, evidenceIds }

/-- `review_result_from_agent_message` -/
def fromAgentMessage (floats : Floats) (raw : List UInt8) :
    Checked (Built (ReviewResult floats)) := do
  fromJson (← readObject floats ModelFacingResult.maxAgentMessageBytes raw
    "review result root must be an object")

end ReviewResult

end CodexFlow.Contracts
