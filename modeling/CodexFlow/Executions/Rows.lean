import CodexFlow.Lib.Table
import CodexFlow.Lib.Checked
import CodexFlow.Capsule.Types

/-!
# Rows of an execution

The tables that one controller execution owns: the execution itself with its checkpoint, the
authority of its SDK route, the dispatch of its App-native route, and the lease of its workspace.
A row keeps what the checks of the ledger read; its times are left out.
-/

namespace CodexFlow.Executions

open Ledger (isSha256 isGitSha)
open Programs (WorkflowState TypedBlocker)
open Capsule (WorkspaceMode NativePermissionMode)

/-- What a `LedgerError` says, by its class. -/
inductive ExecutionError where
  | recordNotFound (message : String)
  | keyError (message : String)
  | staleWriter (message : String)
  | dispatchConflict (message : String)
  | invalidTransition (message : String)
  | workspaceLeaseConflict (message : String)
  | nativeCompatibilityConflict (message : String)
  | nativePermissionConflict (message : String)
  | corruptSchema (message : String)
  | valueError (message : String)
deriving DecidableEq

abbrev Checked (α : Type) := Except ExecutionError α

abbrev Sha256 := { text : String // isSha256 text }

abbrev GitSha := { text : String // isGitSha text }

/-- The primary key of `executions`; it determines the dispatch id of executor generation one. -/
structure ExecutionKey where
  runId : String
  milestoneId : String
deriving DecidableEq

/-- The fields of an execution capsule that the ledger compares. -/
structure ExecutionCapsule where
  runId : String
  milestoneId : String
  repositoryRoot : String
  workspaceMode : WorkspaceMode
  workspacePath : String
  branch : String
  baseSha : GitSha
  lane : String
  model : String
  reasoningEffort : String
deriving DecidableEq

def ExecutionCapsule.key (c : ExecutionCapsule) : ExecutionKey := ⟨c.runId, c.milestoneId⟩

/-! ### Statuses -/

inductive ExecutionStatus where
  | planned
  | threadStarted
  | completed
  | failed
  | cancelled
  | uncertainPreIdentity
deriving DecidableEq

/-- `_TERMINAL_EXECUTION_STATUSES` -/
def ExecutionStatus.isTerminal : ExecutionStatus → Bool
  | completed | failed | cancelled => true
  | planned | threadStarted | uncertainPreIdentity => false

inductive ControllerCheckpoint where
  | capsulePlanned
  | workspaceLeased
  | workspaceBaselineDurable
  | threadStarting
  | threadIdentityDurable
  | turnDurable
  | validationDurable
  | resultDurable
deriving DecidableEq

inductive AppNativeState where
  | prepared
  | bound
  | completed
  | failed
  | cancelled
deriving DecidableEq

/-! ### Results -/

/-- A JSON object as its `status`, when that is a text, and its other members in canonical form. -/
structure JsonObject where
  status : Option String
  members : String
deriving DecidableEq

/-- `_TURN_STARTING_MARKER` -/
def turnStartingMarker : JsonObject :=
  ⟨none, "\"__controller_checkpoint\":\"turn_starting\""⟩

def JsonObject.empty : JsonObject := ⟨none, ""⟩

inductive ValidationFailureCode where
  | executableUnavailable
  | timeout
  | nonzeroExit
  | integrityFailure
deriving DecidableEq

structure ValidationObservation where
  argv : List String
  exitCode : ℤ
  stdoutSha256 : Sha256
  stderrSha256 : Sha256
  timedOut : Bool
  durationSeconds : ℚ
  errorCode : Option ValidationFailureCode
  success : exitCode = 0 → errorCode = none
  timeout : timedOut = true → errorCode ∈ [none, some .timeout, some .integrityFailure]
deriving DecidableEq

inductive ModelResultStatus where
  | completed
  | failed
  | needsDecision
  | externalBlocked
deriving DecidableEq

def ModelResultStatus.value : ModelResultStatus → String
  | completed => "completed"
  | failed => "failed"
  | needsDecision => "needs_decision"
  | externalBlocked => "external_blocked"

structure ModelValidation where
  name : String
  passed : Bool
  evidence : String
deriving DecidableEq

structure ModelFacingResult where
  schemaVersion : ℕ
  status : ModelResultStatus
  summary : String
  changedSurfaces : List String
  validations : List ModelValidation
  durableStatus : String
  nextAction : Option String
  blocker : Option TypedBlocker
  runtimeArtifactPaths : Option (List String)
deriving DecidableEq

/-! ### Native authority -/

inductive SandboxMode where
  | readOnly
  | workspaceWrite
  | dangerFullAccess
deriving DecidableEq

def SandboxMode.rank : SandboxMode → ℕ
  | readOnly => 0
  | workspaceWrite => 1
  | dangerFullAccess => 2

inductive ApprovalPolicy where
  | untrusted
  | onRequest
  | never
deriving DecidableEq

structure NativePermissionAuthority where
  mode : NativePermissionMode
  sandboxMode : SandboxMode
  approvalPolicy : ApprovalPolicy
  retained : mode = .readOnly → sandboxMode = .readOnly
deriving DecidableEq

/-- `min(..., key=sandbox_rank.__getitem__)` keeps the first of equal ones. -/
def SandboxMode.narrower (a b : SandboxMode) : SandboxMode := if a.rank ≤ b.rank then a else b

theorem SandboxMode.narrower_readOnly {a b : SandboxMode} (h : a = readOnly ∨ b = readOnly) :
    a.narrower b = readOnly := by
  obtain rfl | rfl := h
  · rfl
  · cases a <;> rfl

namespace NativePermissionAuthority

variable (current candidate : NativePermissionAuthority)

def meetApproval : Option ApprovalPolicy :=
  if current.approvalPolicy = candidate.approvalPolicy then some current.approvalPolicy
  else if current.approvalPolicy = .never ∨ candidate.approvalPolicy = .never then some .never
  else none

/-- The no-broader authority of two; `none` for incomparable approvals. -/
def meet : Option NativePermissionAuthority :=
  (meetApproval current candidate).map fun approval =>
    { mode :=
        if current.mode = .readOnly ∨ candidate.mode = .readOnly then .readOnly else .inheritNative
      sandboxMode := current.sandboxMode.narrower candidate.sandboxMode
      approvalPolicy := approval
      retained := by
        intro h
        split_ifs at h with readOnly
        exact SandboxMode.narrower_readOnly (readOnly.imp current.retained candidate.retained) }

end NativePermissionAuthority

/-! ### Rows -/

/-- A workspace authority: the digest of each path. -/
abbrev WorkspaceBaseline := List (String × String)

/-- A row of `executions`. -/
structure Execution where
  capsulePath : String
  capsuleSha256 : Sha256
  workspacePath : String
  model : String
  reasoningEffort : String
  status : ExecutionStatus
  checkpoint : ControllerCheckpoint
  threadId : Option String
  turnId : Option String
  turnOutput : Option JsonObject
  result : Option JsonObject
  validation : Option ValidationObservation
  protectedBefore : Sha256
  protectedAfter : Option Sha256
deriving DecidableEq

/-- A row of `execution_integrity` that the controller wrote. -/
structure ExecutionIntegrity where
  nativeProfileSha256 : Sha256
  nativeCompatibilitySha256 : Sha256
  effectivePermission : NativePermissionAuthority
  baselineHead : GitSha
  baseline : WorkspaceBaseline
  gitBefore : Sha256
  /-- `turn_started_at` is set. -/
  turnStarted : Bool
  gitAfter : Option Sha256
  terminal : Option (GitSha × WorkspaceBaseline)
deriving DecidableEq

/-- `AppNativeTaskAction`, without the dispatch id, which the key of its row gives. -/
structure AppNativeTaskAction where
  claimToken : String
  bindChallenge : String
  model : String
  reasoningEffort : String
  workspacePath : String
  prompt : String
  outputSchema : String
deriving DecidableEq

structure HostIdentity where
  hostId : String
  threadId : String
deriving DecidableEq

/-- A row of `app_native_dispatches`. -/
structure AppNativeDispatch where
  action : AppNativeTaskAction
  state : AppNativeState
  identity : Option HostIdentity
  result : Option ModelFacingResult
  baselineHead : GitSha
  baseline : WorkspaceBaseline
  gitBefore : Sha256
  gitAfter : Option Sha256
  controllerState : Sha256
  terminal : Option (GitSha × WorkspaceBaseline)
deriving DecidableEq

/-- A row of `sdk_lifecycle_events` of the durable turn. -/
structure LifecycleEvent where
  sequence : ℕ
  method : String
  turnId : Option String
deriving DecidableEq

structure MilestoneRows where
  state : WorkflowState := .planned
  /-- The dispatch of executor generation one is claimed. -/
  executor : Bool := false
  execution : Option Execution := none
  integrity : Option ExecutionIntegrity := none
  events : List LifecycleEvent := []
  appNative : Option AppNativeDispatch := none
deriving DecidableEq

/-- A row of `workspace_leases`, which its workspace path keys. -/
structure WorkspaceLease where
  workspacePath : String
  repositoryRoot : String
  mode : WorkspaceMode
  branch : String
  baseSha : GitSha
  lane : String
  ownerRunId : String
deriving DecidableEq

def ExecutionCapsule.lease (c : ExecutionCapsule) : WorkspaceLease where
  workspacePath := c.workspacePath
  repositoryRoot := c.repositoryRoot
  mode := c.workspaceMode
  branch := c.branch
  baseSha := c.baseSha
  lane := c.lane
  ownerRunId := c.runId

structure ExecutionLedger where
  milestones : Table ExecutionKey MilestoneRows := .empty
  leases : Table String WorkspaceLease := .empty

end CodexFlow.Executions
