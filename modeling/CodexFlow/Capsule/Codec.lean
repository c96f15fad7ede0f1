import CodexFlow.Capsule.Types

/-!
# The capsule's codec

`capsule_json` and `capsule_from_json`, with the list of key sets that the decoder accepts, and the
durable form: canonical text, read back within the reader's limit.
-/

namespace CodexFlow.Capsule

open Hook (PyStr lit codePoint)
open Git (PurePath)
open Checked
open Programs (AcceptanceMode ProgramOutcomeKind)
open Review (ReasoningEffort)

variable {floats : Floats}

/-! ### Writing -/

def texts (values : List PyStr) : JsonValue floats := .list (values.map .str)

def optionalInt : Option ℤ → JsonValue floats
  | none => .null
  | some n => .int n

def enumText {α : Type} [StrEnum α] (value : α) : JsonValue floats := .str (StrEnum.value value)

def ValidationSpec.fields (spec : ValidationSpec floats) : List (PyStr × JsonValue floats) :=
  [(lit "argv", texts spec.argv), (lit "timeout_seconds", .float spec.timeoutSeconds spec.valid.2.1)]

def ProgramApprovalGate.fields (gate : ProgramApprovalGate) : List (PyStr × JsonValue floats) :=
  [(lit "gate_id", .str gate.gateId),
    (lit "prerequisite_milestone_ids", texts (gate.prerequisiteMilestoneIds.map (·.val))),
    (lit "protected_milestone_ids", texts (gate.protectedMilestoneIds.map (·.val))),
    (lit "scope_description", .str gate.scopeDescription)]

def ValidationSpec.toJson (spec : ValidationSpec floats) : DictValue floats :=
  .ofFields spec.fields (by
    show [lit "argv", lit "timeout_seconds"].Nodup
    decide)

/-- `gate.to_json()` -/
def ProgramApprovalGate.toJson (gate : ProgramApprovalGate) : DictValue floats :=
  .ofFields gate.fields (by
    show [lit "gate_id", lit "prerequisite_milestone_ids", lit "protected_milestone_ids",
      lit "scope_description"].Nodup
    decide)

namespace ExecutionCapsule

def baseFields (c : ExecutionCapsule floats) : List (PyStr × JsonValue floats) :=
  [(lit "capsule_version", .int c.capsuleVersion),
    (lit "run_id", .str c.runId.val),
    (lit "milestone_id", .str c.milestoneId.val),
    (lit "repository_root", .str c.repositoryRoot.asPosix),
    (lit "workspace_mode", enumText c.workspaceMode),
    (lit "workspace_path", .str c.workspacePath.asPosix),
    (lit "branch", .str c.branch),
    (lit "base_sha", .str c.baseSha),
    (lit "lane", .str c.lane),
    (lit "mutable_paths", texts c.mutablePaths),
    (lit "protected_paths", texts c.protectedPaths),
    (lit "validation", .dict c.validation.toJson),
    (lit "model", .str c.model),
    (lit "reasoning_effort", enumText c.reasoningEffort),
    (lit "prompt", .str c.prompt),
    (lit "output_schema", .dict c.outputSchema),
    (lit "permission_mode", enumText c.permissionMode),
    (lit "acceptance_modes", .list (c.acceptanceModes.map enumText))]

def pluginFields (c : ExecutionCapsule floats) : List (PyStr × JsonValue floats) :=
  if c.pluginRequirements ≠ [] then
    [(lit "plugin_requirements", .list (c.pluginRequirements.map .dict))]
  else []

def imageFields (c : ExecutionCapsule floats) : List (PyStr × JsonValue floats) :=
  if c.localImagePaths ≠ [] then [(lit "local_image_paths", texts c.localImagePaths)] else []

def criteriaFields (c : ExecutionCapsule floats) : List (PyStr × JsonValue floats) :=
  match c.acceptanceCriteriaSha256 with
  | some digest => [(lit "acceptance_criteria_sha256", .str digest)]
  | none => []

/-- The capsule is not an ordinary commit through Git without gates. -/
def carriesOutcome (c : ExecutionCapsule floats) : Bool :=
  c.outcomeKind ≠ .commit || c.integrationMode ≠ .git || c.approvalGates ≠ []

def outcomeFields (c : ExecutionCapsule floats) : List (PyStr × JsonValue floats) :=
  if c.carriesOutcome then
    [(lit "outcome_kind", enumText c.outcomeKind),
      (lit "integration_mode", enumText c.integrationMode),
      (lit "runtime_artifact_paths", texts c.runtimeArtifactPaths),
      (lit "runtime_artifact_max_files", optionalInt c.runtimeArtifactMaxFiles),
      (lit "runtime_artifact_max_bytes", optionalInt c.runtimeArtifactMaxBytes),
      (lit "approval_gates", .list (c.approvalGates.map fun gate => .dict gate.toJson))]
  else []

def fields (c : ExecutionCapsule floats) : List (PyStr × JsonValue floats) :=
  c.baseFields ++ c.pluginFields ++ c.imageFields ++ c.criteriaFields ++ c.outcomeFields

end ExecutionCapsule

/-! ### The key sets -/

def expectedKeys : List PyStr :=
  [lit "capsule_version", lit "run_id", lit "milestone_id", lit "repository_root",
    lit "workspace_mode", lit "workspace_path", lit "branch", lit "base_sha", lit "lane",
    lit "mutable_paths", lit "protected_paths", lit "validation", lit "model",
    lit "reasoning_effort", lit "prompt", lit "output_schema", lit "permission_mode"]

def modesKeys : List PyStr := [lit "acceptance_modes"]

def pluginKeys : List PyStr := [lit "plugin_requirements"]

/-- `optional` -/
def optionalKeys : List PyStr := modesKeys ++ pluginKeys

/-- `image_optional` -/
def imageKeys : List PyStr := [lit "local_image_paths"]

/-- `criteria_optional` -/
def criteriaKeys : List PyStr := [lit "acceptance_criteria_sha256"]

/-- `outcome_optional` -/
def outcomeKeys : List PyStr :=
  [lit "outcome_kind", lit "integration_mode", lit "runtime_artifact_paths",
    lit "runtime_artifact_max_files", lit "runtime_artifact_max_bytes", lit "approval_gates"]

/-- `accepted_keys`, each set without `expected`. -/
def acceptedKeys : List (List PyStr) :=
  [[],
    modesKeys,
    criteriaKeys,
    modesKeys ++ criteriaKeys,
    optionalKeys,
    optionalKeys ++ criteriaKeys,
    imageKeys,
    imageKeys ++ criteriaKeys,
    imageKeys ++ modesKeys,
    imageKeys ++ modesKeys ++ criteriaKeys,
    imageKeys ++ pluginKeys,
    imageKeys ++ pluginKeys ++ criteriaKeys,
    imageKeys ++ optionalKeys,
    imageKeys ++ optionalKeys ++ criteriaKeys,
    outcomeKeys,
    outcomeKeys ++ criteriaKeys,
    outcomeKeys ++ modesKeys,
    outcomeKeys ++ modesKeys ++ criteriaKeys,
    outcomeKeys ++ pluginKeys,
    outcomeKeys ++ pluginKeys ++ criteriaKeys,
    outcomeKeys ++ imageKeys,
    outcomeKeys ++ imageKeys ++ criteriaKeys,
    outcomeKeys ++ imageKeys ++ modesKeys,
    outcomeKeys ++ imageKeys ++ modesKeys ++ criteriaKeys,
    outcomeKeys ++ imageKeys ++ pluginKeys,
    outcomeKeys ++ imageKeys ++ pluginKeys ++ criteriaKeys,
    outcomeKeys ++ imageKeys ++ optionalKeys,
    outcomeKeys ++ imageKeys ++ optionalKeys ++ criteriaKeys]

/-- The keys of a capsule as it is written, by the optional groups that it has. -/
def writtenKeys (plugins images criteria outcome : Bool) : List PyStr :=
  expectedKeys ++ modesKeys ++ (if plugins then pluginKeys else []) ++
    (if images then imageKeys else []) ++ (if criteria then criteriaKeys else []) ++
    (if outcome then outcomeKeys else [])

namespace ExecutionCapsule

theorem fields_keys (c : ExecutionCapsule floats) :
    c.fields.map (·.1) = writtenKeys (c.pluginRequirements ≠ []) (c.localImagePaths ≠ [])
      c.acceptanceCriteriaSha256.isSome c.carriesOutcome := by
  simp only [fields, writtenKeys, List.map_append]
  congr 1
  · congr 1
    · congr 1
      · congr 1
        rw [pluginFields]
        split_ifs <;> simp_all [pluginKeys]
      · rw [imageFields]
        split_ifs <;> simp_all [imageKeys]
    · unfold criteriaFields
      cases c.acceptanceCriteriaSha256 <;> rfl
  · rw [outcomeFields]
    split_ifs <;> rfl

theorem fields_nodup (c : ExecutionCapsule floats) : (c.fields.map (·.1)).Nodup := by
  have nodup : ∀ plugins images criteria outcome,
      (writtenKeys plugins images criteria outcome).Nodup := by decide
  rw [fields_keys]
  exact nodup _ _ _ _

end ExecutionCapsule

/-- `capsule_json` -/
def capsuleJson (host : Host) (c : ExecutionCapsule host.floats) :
    Checked (DictValue host.floats) := do
  let c ← c.canonicalize host
  pure (.ofFields c.fields c.fields_nodup)

/-! ### Reading -/

/-- `require_string` -/
def requireString (d : DictValue floats) (field : String) : Checked PyStr :=
  expect (d.get (lit field)).asStr ("capsule " ++ field ++ " must be a string")

/-- `E(text)`, which raises. -/
def requireEnum (α : Type) [StrEnum α] (text : PyStr) : Checked α :=
  expect (StrEnum.ofValue text) "the text is not a valid member"

/-- `ProgramApprovalGate.from_json` -/
def ProgramApprovalGate.fromJson (value : DictValue floats) : Checked ProgramApprovalGate := do
  ensure (value.keysAre [lit "gate_id", lit "prerequisite_milestone_ids",
    lit "protected_milestone_ids", lit "scope_description"])
    "program approval gate shape is unsupported"
  let prerequisites ← expect (value.get (lit "prerequisite_milestone_ids")).asStrings
    "program approval gate prerequisite milestones are malformed"
  let protected_ ← expect (value.get (lit "protected_milestone_ids")).asStrings
    "program approval gate protected milestones are malformed"
  let prerequisites ← prerequisites.mapM (Identifier.new "milestone id")
  let protected_ ← protected_.mapM (Identifier.new "milestone id")
  let gateId ← expect (value.get (lit "gate_id")).asStr "program approval gate id is invalid"
  let scope ← expect (value.get (lit "scope_description")).asStr
    "program approval gate scope description is invalid"
  ProgramApprovalGate.new gateId prerequisites protected_ scope

/-- A limit of the runtime artifacts, which the constructor wants to be an integer or `None`. -/
def limitOf (value : JsonValue floats) (label : String) : Checked (Option ℤ) :=
  match value.val with
  | .null => pure none
  | _ => (expect value.asInt (label ++ " must be a positive integer")).map some

/-- The fields of `capsule_from_json`, each read as its type. -/
def readFields (host : Host) (d : DictValue host.floats) :
    Checked (ExecutionCapsule host.floats) := do
  let capsuleVersion ← expect (d.get (lit "capsule_version")).asInt
    "capsule capsule_version must be an integer"
  let validation ← expect ((d.get (lit "validation")).asDict.filter fun value =>
      value.keysAre [lit "argv", lit "timeout_seconds"])
    "capsule validation must contain argv and timeout_seconds"
  let arrays := "capsule path and argv fields must be arrays"
  let argv ← expect (validation.get (lit "argv")).asStrings arrays
  let mutablePaths ← expect (d.get (lit "mutable_paths")).asStrings arrays
  let protectedPaths ← expect (d.get (lit "protected_paths")).asStrings arrays
  let outputSchema ← expect (d.get (lit "output_schema")).asDict
    "capsule output_schema must be an object"
  let timeout ← expect (validation.get (lit "timeout_seconds")).asFloat
    "capsule validation timeout_seconds must be a number"
  let repositoryRoot ← requireString d "repository_root"
  let workspacePath ← requireString d "workspace_path"
  let branch ← requireString d "branch"
  let baseSha ← requireString d "base_sha"
  let lane ← requireString d "lane"
  let model ← requireString d "model"
  let prompt ← requireString d "prompt"
  let workspaceMode ← requireString d "workspace_mode"
  let effort ← requireString d "reasoning_effort"
  let permissionMode ← requireString d "permission_mode"
  let rawModes ← expect ((d.get? (lit "acceptance_modes")).getD
      (.list [enumText AcceptanceMode.objective])).asStrings
    "capsule acceptance_modes must be an array of strings"
  let runId ← requireString d "run_id"
  let milestoneId ← requireString d "milestone_id"
  let pluginRequirements ← expect ((d.get? (lit "plugin_requirements")).getD (.list [])).asDicts
    "capsule plugin_requirements must be an array of objects"
  let localImagePaths ← expect ((d.get? (lit "local_image_paths")).getD (.list [])).asStrings
    "capsule local_image_paths must be an array of strings"
  let runtimeArtifactPaths ← expect
      ((d.get? (lit "runtime_artifact_paths")).getD (.list [])).asStrings
    "capsule runtime_artifact_paths must be an array of strings"
  let rawGates ← expect ((d.get? (lit "approval_gates")).getD (.list [])).asDicts
    "capsule approval_gates must be an array of objects"
  let digest := d.get (lit "acceptance_criteria_sha256")
  ensure (digest.isNull || digest.asStr.any (isHex 64))
    "capsule acceptance criteria digest is invalid"
  let runId ← Identifier.new "run id" runId
  let milestoneId ← Identifier.new "milestone id" milestoneId
  let workspaceMode ← requireEnum _ workspaceMode
  let validation ← ValidationSpec.new host.floats argv timeout
  let reasoningEffort ← requireEnum _ effort
  let permissionMode ← requireEnum _ permissionMode
  let acceptanceModes ← rawModes.mapM (requireEnum AcceptanceMode)
  let outcomeKind ← expect (((d.get? (lit "outcome_kind")).getD
      (enumText ProgramOutcomeKind.commit)).asStr.bind StrEnum.ofValue)
    "the text is not a valid member"
  let integrationMode ← expect (((d.get? (lit "integration_mode")).getD
      (enumText ProgramIntegrationMode.git)).asStr.bind StrEnum.ofValue)
    "the text is not a valid member"
  let approvalGates ← rawGates.mapM ProgramApprovalGate.fromJson
  let runtimeArtifactMaxFiles ← limitOf (d.get (lit "runtime_artifact_max_files"))
    "runtime artifact max files"
  let runtimeArtifactMaxBytes ← limitOf (d.get (lit "runtime_artifact_max_bytes"))
    "runtime artifact max bytes"
  pure
    { capsuleVersion, runId, milestoneId, repositoryRoot := .new repositoryRoot, workspaceMode,
      workspacePath := .new workspacePath, branch, baseSha, lane, mutablePaths, protectedPaths,
      validation, model, reasoningEffort, prompt, outputSchema, permissionMode, acceptanceModes,
      pluginRequirements, localImagePaths, outcomeKind, integrationMode, runtimeArtifactPaths,
      runtimeArtifactMaxFiles, runtimeArtifactMaxBytes, approvalGates,
      acceptanceCriteriaSha256 := digest.asStr }

/-- `capsule_from_json` -/
def capsuleFromJson (host : Host) (d : DictValue host.floats) :
    Checked (ExecutionCapsule host.floats) := do
  ensure (acceptedKeys.any fun keys => d.keysAre (expectedKeys ++ keys))
    "capsule keys do not match the closed execution schema"
  let c ← readFields host d
  c.construct host

end CodexFlow.Capsule
