import CodexFlow.Contracts.Plugins
import CodexFlow.Executions.Rows

/-!
# Results of a worker

`ModelFacingResult`, as an executor writes its last message: the closed shapes of its two schema
versions and the bounds of its texts.
-/

namespace CodexFlow.Contracts

open Hook (PyStr lit)
open Git (PurePath)
open Capsule (Floats JsonValue DictValue StrEnum Checked expect)
open Programs (BlockerKind BlockerScope)
open Executions (ModelResultStatus)
open Checked

variable {floats : Floats}

instance : StrEnum BlockerKind where
  all := [.external, .decision, .execution]
  value
    | .external => lit "external"
    | .decision => lit "decision"
    | .execution => lit "execution"
  find_value a := by cases a <;> decide

instance : StrEnum BlockerScope where
  all := [.currentPromotion, .currentRepair, .futureMilestone, .wholeProgram]
  value
    | .currentPromotion => lit "current_promotion"
    | .currentRepair => lit "current_repair"
    | .futureMilestone => lit "future_milestone"
    | .wholeProgram => lit "whole_program"
  find_value a := by cases a <;> decide

instance : StrEnum ModelResultStatus where
  all := [.completed, .needsDecision, .externalBlocked, .failed]
  value status := lit status.value
  find_value a := by cases a <;> decide

/-- `E(value)`, of a value that may be no text. -/
def enumOf (α : Type) [StrEnum α] (value : JsonValue floats) : Checked α :=
  expect (value.asStr.bind StrEnum.ofValue) "the value is not a valid member"

/-- `value == n`, of a number. -/
def equalsInt (value : JsonValue floats) (n : ℤ) : Bool :=
  match value.val with
  | .int m => m = n
  | .bool b => (if b then 1 else 0) = n
  | .float literal => floats.ofInt n = some literal || (n = 0 && literal = lit "-0.0")
  | _ => false

/-! ### Blockers -/

structure TypedBlocker where
  gateId : PyStr
  kind : BlockerKind
  scope : BlockerScope
  promotionBlocking : Bool
  requiredAction : PyStr
deriving DecidableEq

inductive BlockerKey where
  | gateId
  | kind
  | scope
  | promotionBlocking
  | requiredAction
deriving DecidableEq

instance : RecordKeys BlockerKey where
  all := [.gateId, .kind, .scope, .promotionBlocking, .requiredAction]
  value
    | .gateId => lit "gate_id"
    | .kind => lit "kind"
    | .scope => lit "scope"
    | .promotionBlocking => lit "promotion_blocking"
    | .requiredAction => lit "required_action"
  find_value a := by cases a <;> decide
  nodup := by decide

namespace TypedBlocker

/-- `__post_init__` -/
def check (b : TypedBlocker) : Checked Unit := do
  checkText b.gateId "blocker gate id" 256
  checkText b.requiredAction "blocker required action" 512

instance : PostInit String TypedBlocker := .ofCheck check

/-- `from_json` -/
def fromJson (d : DictValue floats) : Checked (Built TypedBlocker) := do
  ensure (hasKeys d (StrEnum.all : List BlockerKey)) "typed blocker shape is unsupported"
  let kind ← enumOf _ (at_ d BlockerKey.kind)
  let scope ← enumOf _ (at_ d BlockerKey.scope)
  let gateId ← expect (at_ d BlockerKey.gateId).asStr
    "blocker gate id must be a bounded non-empty string"
  let promotionBlocking ← expect (asBool (at_ d BlockerKey.promotionBlocking))
    "blocker promotion_blocking must be boolean"
  let requiredAction ← expect (at_ d BlockerKey.requiredAction).asStr
    "blocker required action must be a bounded non-empty string"
  Built.new { gateId, kind := kind, scope, promotionBlocking, requiredAction }

end TypedBlocker

/-! ### Validations -/

structure ModelValidation where
  name : PyStr
  passed : Bool
  evidence : PyStr
deriving DecidableEq

inductive ValidationKey where
  | name
  | passed
  | evidence
deriving DecidableEq

instance : RecordKeys ValidationKey where
  all := [.name, .passed, .evidence]
  value
    | .name => lit "name"
    | .passed => lit "passed"
    | .evidence => lit "evidence"
  find_value a := by cases a <;> decide
  nodup := by decide

namespace ModelValidation

/-- `__post_init__` -/
def check (v : ModelValidation) : Checked Unit := do
  checkText v.name "validation name" 256
  checkText v.evidence "validation evidence" 512

instance : PostInit String ModelValidation := .ofCheck check

def fromJson (value : JsonValue floats) : Checked (Built ModelValidation) := do
  let d ← expect value.asDict "result validation shape is invalid"
  ensure (hasKeys d (StrEnum.all : List ValidationKey)) "result validation shape is invalid"
  let values := "result validation values are invalid"
  let name ← expect (at_ d ValidationKey.name).asStr values
  let passed ← expect (asBool (at_ d ValidationKey.passed)) values
  let evidence ← expect (at_ d ValidationKey.evidence).asStr values
  Built.new { name := name, passed, evidence }

end ModelValidation

/-! ### Results -/

structure ModelFacingResult where
  schemaVersion : ℤ
  status : ModelResultStatus
  summary : PyStr
  changedSurfaces : List PyStr
  validations : List (Built ModelValidation)
  durableStatus : PyStr
  nextAction : Option PyStr := none
  blocker : Option (Built TypedBlocker) := none
  runtimeArtifactPaths : Option (List PyStr) := none

inductive ResultKey where
  | schemaVersion
  | status
  | summary
  | changedSurfaces
  | validations
  | durableStatus
  | nextAction
  | blocker
  | runtimeArtifactPaths
deriving DecidableEq

instance : RecordKeys ResultKey where
  all := [.schemaVersion, .status, .summary, .changedSurfaces, .validations, .durableStatus,
    .nextAction, .blocker, .runtimeArtifactPaths]
  value
    | .schemaVersion => lit "schema_version"
    | .status => lit "status"
    | .summary => lit "summary"
    | .changedSurfaces => lit "changed_surfaces"
    | .validations => lit "validations"
    | .durableStatus => lit "durable_status"
    | .nextAction => lit "next_action"
    | .blocker => lit "blocker"
    | .runtimeArtifactPaths => lit "runtime_artifact_paths"
  find_value a := by cases a <;> decide
  nodup := by decide

namespace ModelFacingResult

def isArtifactPath (item : PyStr) : Bool :=
  let path := PurePath.new item
  item ≠ [] && item ≠ lit "." && !path.isAbsolute && lit ".." ∉ path.parts && path.asPosix = item

/-- `__post_init__` -/
def check (r : ModelFacingResult) : Checked Unit := do
  ensure (r.schemaVersion = 1 ∨ r.schemaVersion = 2)
    "unsupported model-facing result schema version"
  checkText r.summary "result summary" maxText
  checkText r.durableStatus "result durable status" 128
  checkOptionalText r.nextAction "result next action" maxText
  checkItems r.changedSurfaces "result changed surfaces"
  ensure (r.validations.length ≤ 128) "result validations must use ModelValidation records"
  ensure (¬ (r.schemaVersion = 1 ∧ r.runtimeArtifactPaths.isSome))
    "result schema version 1 cannot carry runtime artifact paths"
  ensure (r.runtimeArtifactPaths.all fun paths =>
      paths ≠ [] ∧ paths.length ≤ 128 ∧ paths.Nodup ∧ ∀ item ∈ paths, isArtifactPath item = true)
    "result runtime artifact paths are invalid"

instance : PostInit String ModelFacingResult := .ofCheck check

/-- `expected` -/
def expectedKeys : List ResultKey :=
  [.schemaVersion, .status, .summary, .changedSurfaces, .validations, .durableStatus, .nextAction]

/-- `accepted_shapes` -/
def acceptedShapes (version : JsonValue floats) : List (List ResultKey) :=
  if equalsInt version 1 then [expectedKeys, expectedKeys ++ [.blocker]]
  else if equalsInt version 2 then
    [expectedKeys ++ [.runtimeArtifactPaths], expectedKeys ++ [.blocker, .runtimeArtifactPaths]]
  else []

/-- `from_json` -/
def fromJson (d : DictValue floats) : Checked (Built ModelFacingResult) := do
  ensure ((acceptedShapes (at_ d ResultKey.schemaVersion)).any (hasKeys d ·))
    ("model-facing result keys must be exactly ['changed_surfaces', 'durable_status', " ++
      "'next_action', 'schema_version', 'status', 'summary', 'validations']")
  let validations ← expect (at_ d ResultKey.validations).asList "result validations must be an array"
  let validations ← validations.mapM ModelValidation.fromJson
  let schemaVersion ← expect (at_ d ResultKey.schemaVersion).asInt
    "result schema_version must be an integer"
  let scalars := "result scalar fields are invalid"
  let status ← expect (at_ d ResultKey.status).asStr scalars
  let summary ← expect (at_ d ResultKey.summary).asStr scalars
  let durableStatus ← expect (at_ d ResultKey.durableStatus).asStr scalars
  let changedSurfaces ← expect (at_ d ResultKey.changedSurfaces).asStrings
    "result changed_surfaces must be an array of strings"
  let nextAction ← optional JsonValue.asStr (at_ d ResultKey.nextAction)
    "result next_action must be a string or null"
  let blocker ← optional JsonValue.asDict (at_ d ResultKey.blocker)
    "result blocker must be an object or null"
  let runtimeArtifactPaths ← optional JsonValue.asStrings (at_ d ResultKey.runtimeArtifactPaths)
    "result runtime_artifact_paths must be an array of strings or null"
  let status ← expect (StrEnum.ofValue status) "the value is not a valid member"
  let blocker ← blocker.mapM TypedBlocker.fromJson
  Built.new
    { schemaVersion, status, summary, changedSurfaces, validations, durableStatus, nextAction,
      blocker, runtimeArtifactPaths }

/-- `_MAX_AGENT_MESSAGE_BYTES` -/
def maxAgentMessageBytes : ℕ := 65536

/-- `from_agent_message` -/
def fromAgentMessage (floats : Floats) (raw : List UInt8) : Checked (Built ModelFacingResult) := do
  fromJson (← readObject floats maxAgentMessageBytes raw
    "raw agentMessage result root must be an object")

end ModelFacingResult

end CodexFlow.Contracts
