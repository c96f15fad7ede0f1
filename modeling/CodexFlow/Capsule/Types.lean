import CodexFlow.Capsule.Value
import CodexFlow.Git.Paths
import CodexFlow.Lib.Checked
import CodexFlow.Programs.Types
import CodexFlow.Review.Types

/-!
# Execution capsules

The capsule of one execution and its constructor. A nested record carries the checks of its own
constructor; `ExecutionCapsule.construct` is `__post_init__`, which resolves the two roots.
-/

namespace CodexFlow.Capsule

open Hook (CodePoint PyStr codePoint lit isSurrogate)
open Git (PurePath nul isSpace strip)
open Checked

abbrev Checked (α : Type) := Except String α

/-- The value, or `error` where there is none. -/
def expect {α : Type} (value : Option α) (error : String) : Checked α :=
  match value with
  | some a => .ok a
  | none => .error error

/-! ### Enumerations -/

/-- `class E(str, Enum)`: every member, each with its own text. -/
class StrEnum (α : Type) where
  all : List α
  value : α → PyStr
  find_value : ∀ a, (all.find? fun b => value b = value a) = some a

/-- `E(text)` -/
def StrEnum.ofValue {α : Type} [StrEnum α] (text : PyStr) : Option α :=
  (StrEnum.all (α := α)).find? fun a => StrEnum.value a = text

theorem StrEnum.ofValue_value {α : Type} [StrEnum α] (a : α) :
    StrEnum.ofValue (StrEnum.value a) = some a := StrEnum.find_value a

inductive WorkspaceMode where
  | currentCheckout
  | existingWorktree
  | managedWorktree
deriving DecidableEq

inductive NativePermissionMode where
  | inheritNative
  | readOnly
deriving DecidableEq

inductive ProgramIntegrationMode where
  | git
  | alreadyIntegrated
  | noIntegration
deriving DecidableEq

open Programs (AcceptanceMode ProgramOutcomeKind)
open Review (ReasoningEffort)

instance : StrEnum WorkspaceMode where
  all := [.currentCheckout, .existingWorktree, .managedWorktree]
  value
    | .currentCheckout => lit "current_checkout"
    | .existingWorktree => lit "existing_worktree"
    | .managedWorktree => lit "managed_worktree"
  find_value a := by cases a <;> decide

instance : StrEnum NativePermissionMode where
  all := [.inheritNative, .readOnly]
  value
    | .inheritNative => lit "inherit_native"
    | .readOnly => lit "read_only"
  find_value a := by cases a <;> decide

instance : StrEnum ProgramIntegrationMode where
  all := [.git, .alreadyIntegrated, .noIntegration]
  value
    | .git => lit "git"
    | .alreadyIntegrated => lit "already_integrated"
    | .noIntegration => lit "no_integration"
  find_value a := by cases a <;> decide

instance : StrEnum ProgramOutcomeKind where
  all := [.commit, .runtimeEvidence]
  value
    | .commit => lit "commit"
    | .runtimeEvidence => lit "runtime_evidence"
  find_value a := by cases a <;> decide

instance : StrEnum AcceptanceMode where
  all := [.objective, .visual, .architecture]
  value
    | .objective => lit "objective"
    | .visual => lit "visual"
    | .architecture => lit "architecture"
  find_value a := by cases a <;> decide

instance : StrEnum ReasoningEffort where
  all := [.none, .minimal, .low, .medium, .high, .xhigh]
  value effort := lit effort.value
  find_value a := by cases a <;> decide

/-! ### Identifiers and patterns -/

def isLower (c : CodePoint) : Bool := 0x61 ≤ c.val && c.val ≤ 0x7A

def isUpper (c : CodePoint) : Bool := 0x41 ≤ c.val && c.val ≤ 0x5A

def isAlphanumeric (c : CodePoint) : Bool := isDigit c || isLower c || isUpper c

/-- `[A-Za-z0-9][A-Za-z0-9_.-]{0,most}` -/
def isIdentifier (most : ℕ) : PyStr → Bool
  | [] => false
  | c :: rest => isAlphanumeric c && rest.length ≤ most &&
      rest.all fun c => isAlphanumeric c || c ∈ [codePoint '_', codePoint '.', minus]

/-- `_ValidatedIdentifier`: a `RunId` or a `MilestoneId`. -/
abbrev Identifier := { text : PyStr // isIdentifier 127 text = true }

instance : LawfulBEq Identifier := inferInstance

def Identifier.new (label : String) (text : PyStr) : Checked Identifier :=
  if h : isIdentifier 127 text = true then .ok ⟨text, h⟩
  else .error (label ++ " must match its pattern")

theorem Identifier.new_val (label : String) (id : Identifier) :
    Identifier.new label id.val = .ok id := dif_pos id.property

/-- `[a-z0-9][a-z0-9-]{0,63}` -/
def isLane : PyStr → Bool
  | [] => false
  | c :: rest => (isDigit c || isLower c) && rest.length ≤ 63 &&
      rest.all fun c => isDigit c || isLower c || c = minus

/-- `[0-9a-f]{length}` -/
def isHex (length : ℕ) (text : PyStr) : Bool :=
  text.length = length && text.all fun c => isDigit c || (0x61 ≤ c.val && c.val ≤ 0x66)

/-- One value that `_relative_paths` admits. -/
def isRelativePath (value : PyStr) : Bool :=
  let path := PurePath.new value
  value ≠ [] && value ≠ lit "." && nul ∉ value && !path.isAbsolute && lit ".." ∉ path.parts &&
    path.asPosix = value

/-- `_relative_paths` -/
def relativePaths (values : List PyStr) (label : String) : Checked Unit :=
  ensure (values.all isRelativePath ∧ values.Nodup)
    (label ++ " must contain unique repository-relative paths")

/-! ### Nested records -/

variable (floats : Floats)

/-- What `ValidationSpec.__post_init__` admits. -/
def ValidationSpec.Valid (argv : List PyStr) (timeout : PyStr) : Prop :=
  (argv ≠ [] ∧ ∀ item ∈ argv, item ≠ [] ∧ nul ∉ item) ∧
    floats.isRepr timeout = true ∧ floats.isPositive timeout = true

instance (argv : List PyStr) (timeout : PyStr) :
    Decidable (ValidationSpec.Valid floats argv timeout) := by
  unfold ValidationSpec.Valid
  infer_instance

structure ValidationSpec where
  argv : List PyStr
  timeoutSeconds : PyStr
  valid : ValidationSpec.Valid floats argv timeoutSeconds

def ValidationSpec.new (argv : List PyStr) (timeout : PyStr) : Checked (ValidationSpec floats) :=
  if h : ValidationSpec.Valid floats argv timeout then .ok ⟨argv, timeout, h⟩
  else .error "validation argv must contain non-empty strings and a positive timeout"

theorem ValidationSpec.new_self (spec : ValidationSpec floats) :
    ValidationSpec.new floats spec.argv spec.timeoutSeconds = .ok spec := dif_pos spec.valid

def ProgramApprovalGate.ValidSide (ids : List Identifier) : Prop :=
  ids ≠ [] ∧ ids.length ≤ 128 ∧ ids.Nodup ∧
    (ids.mergeSort fun a b => Hook.keyLE a.val b.val) = ids

/-- What `ProgramApprovalGate.__post_init__` admits. -/
def ProgramApprovalGate.Valid (gateId : PyStr) (prerequisites protected_ : List Identifier)
    (scope : PyStr) : Prop :=
  isIdentifier 255 gateId = true ∧ ValidSide prerequisites ∧ ValidSide protected_ ∧
    (∀ id ∈ prerequisites, id ∉ protected_) ∧ strip scope ≠ [] ∧ scope.length ≤ 4096

instance (gateId : PyStr) (prerequisites protected_ : List Identifier) (scope : PyStr) :
    Decidable (ProgramApprovalGate.Valid gateId prerequisites protected_ scope) := by
  unfold ProgramApprovalGate.Valid ProgramApprovalGate.ValidSide
  infer_instance

structure ProgramApprovalGate where
  gateId : PyStr
  prerequisiteMilestoneIds : List Identifier
  protectedMilestoneIds : List Identifier
  scopeDescription : PyStr
  valid : ProgramApprovalGate.Valid gateId prerequisiteMilestoneIds protectedMilestoneIds
    scopeDescription

def ProgramApprovalGate.new (gateId : PyStr) (prerequisites protected_ : List Identifier)
    (scope : PyStr) : Checked ProgramApprovalGate :=
  if h : ProgramApprovalGate.Valid gateId prerequisites protected_ scope then
    .ok ⟨gateId, prerequisites, protected_, scope, h⟩
  else .error "program approval gate is invalid"

theorem ProgramApprovalGate.new_self (gate : ProgramApprovalGate) :
    ProgramApprovalGate.new gate.gateId gate.prerequisiteMilestoneIds gate.protectedMilestoneIds
      gate.scopeDescription = .ok gate := dif_pos gate.valid

/-! ### Capsules -/

structure ExecutionCapsule where
  capsuleVersion : ℤ
  runId : Identifier
  milestoneId : Identifier
  repositoryRoot : PurePath
  workspaceMode : WorkspaceMode
  workspacePath : PurePath
  branch : PyStr
  baseSha : PyStr
  lane : PyStr
  mutablePaths : List PyStr
  protectedPaths : List PyStr
  validation : ValidationSpec floats
  model : PyStr
  reasoningEffort : ReasoningEffort
  prompt : PyStr
  outputSchema : DictValue floats
  permissionMode : NativePermissionMode
  acceptanceModes : List AcceptanceMode
  pluginRequirements : List (DictValue floats)
  localImagePaths : List PyStr
  outcomeKind : ProgramOutcomeKind
  integrationMode : ProgramIntegrationMode
  runtimeArtifactPaths : List PyStr
  runtimeArtifactMaxFiles : Option ℤ
  runtimeArtifactMaxBytes : Option ℤ
  approvalGates : List ProgramApprovalGate
  acceptanceCriteriaSha256 : Option PyStr

/-- What the constructor asks of its surroundings. -/
structure Host where
  floats : Floats
  /-- `path.resolve(strict=False)`: `none` raises. -/
  resolve : PurePath → Option PurePath
  /-- `validate_output_schema` returns. -/
  validateOutputSchema : DictValue floats → Bool
  /-- A resolved path resolves to itself. -/
  resolve_resolved : ∀ path resolved, resolve path = some resolved →
    resolve resolved = some resolved
  /-- and is written the way that it is read. -/
  resolved_new : ∀ path resolved, resolve path = some resolved →
    PurePath.new resolved.asPosix = resolved

variable {floats}

/-- `validate_program_outcome_pair` -/
def outcomePairs : List (ProgramOutcomeKind × ProgramIntegrationMode) :=
  [(.commit, .git), (.commit, .alreadyIntegrated), (.runtimeEvidence, .noIntegration)]

namespace ExecutionCapsule

def checkPlace (c : ExecutionCapsule floats) : Checked Unit := do
  ensure (isLane c.lane) "workspace lane must be a lowercase semantic slug"
  ensure (c.branch ≠ [] ∧ ¬ c.branch.any isSpace)
    "execution branch must be explicit and whitespace-free"
  ensure (c.workspaceMode = .managedWorktree → c.branch = lit "agent/" ++ c.lane)
    "managed worktree branch must match agent/<lane>"
  ensure (isHex 40 c.baseSha) "base SHA must be a resolved lowercase 40-character Git SHA"
  relativePaths c.mutablePaths "mutable paths"
  relativePaths c.protectedPaths "protected paths"
  ensure (∀ m ∈ c.mutablePaths, ∀ p ∈ c.protectedPaths,
      ¬ (PurePath.new p).isWithin (.new m) ∧ ¬ (PurePath.new m).isWithin (.new p))
    "mutable and protected paths must not overlap"

def checkArtifacts (c : ExecutionCapsule floats) : Checked Unit :=
  match c.outcomeKind with
  | .runtimeEvidence => do
    ensure (c.runtimeArtifactPaths ≠ [])
      "runtime evidence capsules require bounded artifact paths"
    ensure (c.runtimeArtifactMaxFiles.isSome ∧ c.runtimeArtifactMaxBytes.isSome)
      "runtime evidence capsules require artifact limits"
    ensure (c.runtimeArtifactMaxFiles.all (0 < ·))
      "runtime artifact max files must be a positive integer"
    ensure (c.runtimeArtifactMaxBytes.all (0 < ·))
      "runtime artifact max bytes must be a positive integer"
  | .commit =>
    ensure (c.runtimeArtifactPaths = [] ∧ c.runtimeArtifactMaxFiles = none ∧
        c.runtimeArtifactMaxBytes = none)
      "commit capsules cannot carry runtime artifact limits or paths"

/-- The checks of `__post_init__` after the roots are resolved. -/
def check (host : Host) (c : ExecutionCapsule host.floats) : Checked Unit := do
  c.checkPlace
  ensure (strip c.model ≠ [] ∧ strip c.prompt ≠ []) "model and prompt must be explicit"
  ensure (interoperable (.obj c.outputSchema.val))
    "JSON strings must not contain unpaired Unicode surrogates"
  ensure (host.validateOutputSchema c.outputSchema) "output schema is not supported"
  ensure (c.acceptanceModes ≠ [] ∧ c.acceptanceModes.Nodup)
    "execution capsule acceptance modes must be non-empty and unique"
  ensure (¬ (c.capsuleVersion = 2 ∧ c.localImagePaths ≠ []))
    "execution capsule version 2 cannot carry local images"
  ensure (¬ (c.capsuleVersion = 3 ∧ c.localImagePaths = []))
    "execution capsule version 3 requires local images"
  relativePaths c.localImagePaths "execution local image paths"
  ensure ((c.outcomeKind, c.integrationMode) ∈ outcomePairs)
    "program outcome and integration mode are incompatible"
  c.checkArtifacts
  relativePaths c.runtimeArtifactPaths "execution runtime artifact paths"
  ensure (c.approvalGates.length ≤ 32) "execution approval gates are invalid"
  ensure (c.approvalGates.map (·.gateId)).Nodup "execution approval gates must be unique"
  ensure (c.acceptanceCriteriaSha256.all (isHex 64))
    "acceptance criteria digest must be a lowercase SHA-256"

/-- `ExecutionCapsule(...)`: the fields with the roots resolved, checked. -/
def construct (host : Host) (c : ExecutionCapsule host.floats) :
    Checked (ExecutionCapsule host.floats) := do
  ensure (c.capsuleVersion = 2 ∨ c.capsuleVersion = 3) "unsupported execution capsule version"
  let roots := "repository and workspace paths must have a canonical physical identity"
  let repositoryRoot ← expect (host.resolve c.repositoryRoot) roots
  let workspacePath ← expect (host.resolve c.workspacePath) roots
  let resolved := { c with repositoryRoot, workspacePath }
  resolved.check host
  pure resolved

/-- `canonicalize_execution_capsule` -/
def canonicalize (host : Host) (c : ExecutionCapsule host.floats) :
    Checked (ExecutionCapsule host.floats) :=
  construct host c

end ExecutionCapsule

end CodexFlow.Capsule
