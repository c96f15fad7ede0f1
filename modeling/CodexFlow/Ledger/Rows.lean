import CodexFlow.Ledger.Bundle
import CodexFlow.Lib.Table
import Mathlib

/-!
# The rows of one dispatch

Every queue, recovery and controller table is keyed by a dispatch, so the rows that belong to one
dispatch are one record. A pair of columns that a `CHECK` makes null together is one optional
value. The rows of `authorized_successors` are kept with their source.
-/

namespace CodexFlow.Ledger

/-- `claim_epoch` and `claim_nonce_sha256`. -/
structure Claim where
  epoch : ℕ
  nonceSha256 : String
deriving DecidableEq

/-- `raw_result_json` and `raw_result_sha256`. -/
structure RawResult where
  json : String
  sha256 : String
deriving DecidableEq

/-- A row of `dispatch_queue`. `inProgram` says that its run has a program digest. -/
structure DispatchQueue where
  runId : String
  milestoneId : String
  role : String
  generation : ℕ
  backend : Backend
  workspacePath : String
  resultContractSha256 : String
  inProgram : Bool
  state : QueueState
  sequence : ℕ
  availableAt : Time
  claim : Option Claim
  attempt : ℕ
  threadId : Option String
  raw : Option RawResult
  terminalStatus : Option String
  createdAt : Time
  updatedAt : Time
deriving DecidableEq

/-- A row of `queue_bindings`. The checkpoint is armed when it has a deadline. -/
structure QueueBinding where
  sourceThreadId : Option String
  nativeProfileSha256 : Option String
  nativeCompatibilitySha256 : Option String
  checkpointDeadline : Option Time
  updatedAt : Time
deriving DecidableEq

structure RecoveryState where
  providerEnvKey : Option String
  profileSha256 : Option String
  workerExitClassification : Option String
  exitCode : Option ℤ
  recoveryState : RecoveryKind
  inspection : Budget
  continuation : Budget
  freshThreadAfterIdle : Bool
  freshThread : Budget
  nextEligibleAt : Option Time
  inspectedThreadId : Option String
  inspectedTurnId : Option String
  inspectedKind : Option InspectionKind
  humanAttentionReason : Option String
  exitedAt : Option Time
  updatedAt : Time
deriving DecidableEq

structure RetryPolicy where
  revision : ℕ
  preIdentity : Budget
  invalidChain : Budget
  schemaEnvelope : Budget
  postIdentityLoss : Budget
  providerTransient : Budget
  providerTransientGrantUsed : ℕ
  lastFailure : Option RetryFailureClass
  strategy : RecoveryStrategy
  nextEligibleAt : Option Time
  priorThreadId : Option String
  priorTurnId : Option String
  humanAttentionReason : Option String
  updatedAt : Time
deriving DecidableEq

/-- A row of `attempt_capabilities`; its operation is always `submit_result`. -/
structure AttemptCapability where
  generation : ℕ
  attempt : ℕ
  schemaSha256 : String
  workspacePath : String
  backend : Backend
  issuedAt : Time
  expiresAt : Time
  consumedAt : Option Time
  tokenSha256 : String
  acceptedResultSha256 : Option String
deriving DecidableEq

structure WorkerLiveness where
  generation : ℕ
  attempt : ℕ
  pid : ℕ
  processBirthIdentity : String
  leaseTokenSha256 : String
  leaseExpiresAt : Time
  lastSeenAt : Time
  exitedAt : Option Time
deriving DecidableEq

/-- The workspace facts captured when a control repair completes. -/
structure TerminalCapture where
  workspaceTerminalHeadSha : String
  workspaceTerminal : List (String × String)
  gitAuthoritySha256 : String
  protectedPathsSha256 : String
  capturedAt : Time
deriving DecidableEq

/-- A row of `dispatch_terminal_integrity`. -/
structure TerminalIntegrity where
  capture : TerminalCapture
  resultSha256 : Option String
deriving DecidableEq

structure AuthorizedSuccessor where
  successorDispatchId : DispatchId
  authorizedAt : Time
  releasedAt : Option Time
deriving DecidableEq

inductive SuccessorOutcome where
  | pending
  | enqueued
  | notRequired
deriving DecidableEq

/-- A row of `successor_outbox`, with the payload it encodes. -/
structure SuccessorOutbox where
  successorDispatchId : Option DispatchId
  authorizedSuccessorDispatchIds : List DispatchId
  releasedAt : Time
  outcome : SuccessorOutcome
  createdAt : Time
  completedAt : Option Time
deriving DecidableEq

inductive NotificationOutcome where
  | notApplicable
  | unavailable
  | attemptedOk
  | attemptedFailed
deriving DecidableEq

/-- The payload whose digest a row of `notification_outbox` keeps. -/
structure TerminalNotice where
  runId : String
  milestoneId : String
  state : QueueState
  resultSha256 : Option String
deriving DecidableEq

structure NotificationOutbox where
  sourceTask : Option String
  payload : TerminalNotice
  outcome : NotificationOutcome
  attemptedAt : Option Time
deriving DecidableEq

structure WorkerSnapshot where
  pid : ℕ
  processBirthIdentity : String
  lastSeenAt : Time
  leaseExpiresAt : Time
deriving DecidableEq

/-- The payload of a wake, by the four shapes the ledger accepts. -/
inductive WakePayload where
  | terminal (state : QueueState) (resultSha256 : Option String)
  | direct (state : QueueState)
  | rearmed (state : QueueState) (rearmedAt : Time)
  | snapshot (state : QueueState) (threadId : Option String) (worker : Option WorkerSnapshot)
      (startedAt : Time)
deriving DecidableEq

/-- A row of `wake_outbox`. Its delivery and decision identities are functions of the dispatch,
the kind and the cycle. -/
structure Wake where
  kind : WakeKind
  cycleSequence : ℕ
  sourceThreadId : Option String
  payload : WakePayload
  state : WakeState
  attemptCount : ℕ
  sourceTurnId : Option String
  createdAt : Time
  updatedAt : Time
deriving DecidableEq

structure Claimant where
  kind : ControllerClaimantKind
  claimantId : String
  claimTokenSha256 : String
  claimStartedAt : Time
deriving DecidableEq

structure CommittedAction where
  actionId : String
  bundle : ActionBundle
  bundleSha256 : String
  committedAt : Time
deriving DecidableEq

/-- The inspection columns of a generation, from the reservation on. -/
structure ControllerInspection where
  startedAt : Time
  tokenSha256 : Option String
  leaseExpiresAt : Option Time
  completedAt : Option Time
  outcome : Option ControllerGenerationState
  bundle : Option (ActionBundle × String)
deriving DecidableEq

/-- A row of `controller_decision_generations`. -/
structure ControllerGeneration where
  state : ControllerGenerationState
  promptSha256 : Option String
  controllerThreadId : Option String
  controllerTurnId : Option String
  inspection : Option ControllerInspection
  startedAt : Option Time
  terminalAt : Option Time
deriving DecidableEq

/-- A row of `controller_action_outbox`; it is acknowledged when it has an acknowledgement time. -/
structure ActionOutbox where
  actionId : String
  generation : ℕ
  expectedRevision : ℕ
  claimantKind : ControllerClaimantKind
  claimantId : String
  bundle : ActionBundle
  bundleSha256 : String
  committedAt : Time
  acknowledgedAt : Option Time
deriving DecidableEq

/-- A row of `controller_decisions` with its generations, of which the current one is kept apart
from the earlier ones, and its row of `controller_action_outbox`. -/
structure ControllerDecision where
  kind : WakeKind
  cycleSequence : ℕ
  sourceThreadId : Option String
  state : ControllerDecisionState
  revision : ℕ
  earlier : List ControllerGeneration
  generation : ControllerGeneration
  generationBudget : ℕ
  generationUsed : ℕ
  claimant : Option Claimant
  claimLeaseExpiresAt : Option Time
  action : Option CommittedAction
  outbox : Option ActionOutbox
  acknowledgedAt : Option Time
  supersededAt : Option Time
  deadline : Time
  humanAttentionReason : Option String
  createdAt : Time
  updatedAt : Time
deriving DecidableEq

namespace ControllerDecision

def currentGeneration (d : ControllerDecision) : ℕ := d.earlier.length + 1

def actionId (d : ControllerDecision) : Option String := d.action.map (·.actionId)

end ControllerDecision

/-- The decision of a program event, with the revision of the program it was made for. -/
structure ProgramDecision where
  programRevision : ℕ
  decision : ControllerDecision
deriving DecidableEq

/-- The installed runtime identity that a rebind expects and the one it proposes. -/
structure CompatibilityRebind where
  expectedProfileSha256 : Option String
  proposedProfileSha256 : Option String
  expectedCompatibilitySha256 : String
  proposedCompatibilitySha256 : String
  expectedGeneration : ℕ
  expectedAttempt : ℕ
deriving DecidableEq

def CompatibilityRebind.isWellFormed (c : CompatibilityRebind) : Bool :=
  isSha256 c.expectedCompatibilitySha256 && isSha256 c.proposedCompatibilitySha256 &&
    c.expectedProfileSha256.isSome = c.proposedProfileSha256.isSome &&
    c.expectedProfileSha256.all isSha256 && c.proposedProfileSha256.all isSha256 &&
    !(c.expectedProfileSha256 = c.proposedProfileSha256 &&
      c.expectedCompatibilitySha256 = c.proposedCompatibilitySha256) &&
    1 ≤ c.expectedGeneration && 1 ≤ c.expectedAttempt

/-- A row of `recovery_controls`. -/
structure RecoveryControl where
  actionId : String
  expectedRevision : ℕ
  actionKind : RecoveryActionKind
  reason : String
  requestedBudget : Option RetryBudgetChange
  compatibilityRebind : Option CompatibilityRebind
  appliedRevision : ℕ
  createdAt : Time
deriving DecidableEq

/-- A row of `diagnostic_ring`. -/
structure DiagnosticItem where
  sequence : ℕ
  kind : String
  occurredAt : Time
  text : Option String
  payloadSha256 : Option String
  payloadBytes : ℕ
deriving DecidableEq

/-- Everything the ledger keeps about one dispatch; the diagnostics are in the order of their
sequence. -/
structure DispatchRows where
  queue : DispatchQueue
  binding : QueueBinding
  recovery : RecoveryState
  policy : RetryPolicy
  capability : Option AttemptCapability := none
  liveness : Option WorkerLiveness := none
  integrity : Option TerminalIntegrity := none
  successors : List AuthorizedSuccessor := []
  successorOutbox : Option SuccessorOutbox := none
  notificationOutbox : Option NotificationOutbox := none
  wakes : List Wake := []
  decisions : List ControllerDecision := []
  controls : List RecoveryControl := []
  diagnostics : List DiagnosticItem := []
deriving DecidableEq

structure HarnessAuthority where
  epoch : ℕ
  ownerNonceSha256 : String
  expiresAt : Time
  requestedShutdown : Bool
deriving DecidableEq

end CodexFlow.Ledger

/-- The harness authority, the rows of every dispatch, in the order of their sequence, and the
decisions of the programs. -/
structure CodexFlow.Ledger where
  harness : Option CodexFlow.Ledger.HarnessAuthority := none
  dispatches : Table CodexFlow.Ledger.DispatchId CodexFlow.Ledger.DispatchRows := Table.empty
  programDecisions : Table CodexFlow.Ledger.ProgramEvent CodexFlow.Ledger.ProgramDecision :=
    Table.empty
