import CodexFlow.Lib.Checked
import Mathlib

/-!
# Values of the ledger

The enumerations, errors and bounded counters that the queue and recovery tables are made of. A
timestamp is its number of microseconds, and an identity or digest is the text of its column.
-/

namespace CodexFlow.Ledger

abbrev DispatchId := String

abbrev Time := ℕ

/-- What an operation raises, with the text of its message. -/
inductive LedgerError where
  | valueError (message : String)
  | recordNotFound (message : String)
  | staleWriter (message : String)
  | harnessRefreshBlocked (message : String)
  | dispatchConflict (message : String)
  | corruptSchema (message : String)
  | ledgerError (message : String)
  | typeError (message : String)
  | invalidTransition (message : String)
  | integrityError
  | programCapability
deriving DecidableEq

abbrev Checked (α : Type) := Except LedgerError α

inductive Backend where
  | sdkHeadless
  | appNative
deriving DecidableEq

/-- `dispatch_queue.state`. -/
inductive QueueState where
  | queued
  | claimed
  | starting
  | running
  | recoveryInspectionPending
  | recoveryRetryWait
  | recoveryContinuationPending
  | humanAttentionRequired
  | resultSubmitted
  | finalizing
  | completed
  | failed
  | cancelled
deriving DecidableEq

def QueueState.value : QueueState → String
  | queued => "queued"
  | claimed => "claimed"
  | starting => "starting"
  | running => "running"
  | recoveryInspectionPending => "recovery_inspection_pending"
  | recoveryRetryWait => "recovery_retry_wait"
  | recoveryContinuationPending => "recovery_continuation_pending"
  | humanAttentionRequired => "human_attention_required"
  | resultSubmitted => "result_submitted"
  | finalizing => "finalizing"
  | completed => "completed"
  | failed => "failed"
  | cancelled => "cancelled"

/-- `recovery_state.recovery_state`. -/
inductive RecoveryKind where
  | none
  | inspectionPending
  | retryWait
  | continuationPending
  | humanAttentionRequired
  | completed
  | failed
deriving DecidableEq

/-- The queue state that must stand beside a recovery state, where there is one. -/
def RecoveryKind.queueState : RecoveryKind → Option QueueState
  | none => Option.none
  | inspectionPending => some .recoveryInspectionPending
  | retryWait => some .recoveryRetryWait
  | continuationPending => some .recoveryContinuationPending
  | humanAttentionRequired => some .humanAttentionRequired
  | completed => some .completed
  | failed => some .failed

/-- `retry_policies.strategy`. -/
inductive RecoveryStrategy where
  | none
  | backoff
  | freshThread
  | sameThreadSchemaCorrection
  | sameThreadContinuation
  | humanAttention
deriving DecidableEq

inductive RetryFailureClass where
  | preIdentityTransport
  | invalidResponseChain
  | schemaEnvelope
  | postIdentityLoss
  | providerTransient
  | authentication
  | permission
  | capability
  | profile
  | integrity
  | malformedInput
  | resultTransportAfterIdentity
  | replay
  | unknown
deriving DecidableEq

def RetryFailureClass.value : RetryFailureClass → String
  | preIdentityTransport => "pre_identity_transport"
  | invalidResponseChain => "invalid_response_chain"
  | schemaEnvelope => "schema_envelope"
  | postIdentityLoss => "post_identity_loss"
  | providerTransient => "provider_transient"
  | authentication => "authentication"
  | permission => "permission"
  | capability => "capability"
  | profile => "profile"
  | integrity => "integrity"
  | malformedInput => "malformed_input"
  | resultTransportAfterIdentity => "result_transport_after_identity"
  | replay => "replay"
  | unknown => "unknown"

inductive RecoveryActionKind where
  | retry
  | cancel
  | budgetChange
  | compatibilityRebind
deriving DecidableEq

/-- What a read-only inspection of a persisted thread found. -/
inductive InspectionKind where
  | activeWriter
  | idleNoResult
  | transientFailedTurn
  | invalidChainEmptyHistory
  | invalidChainFailedTurn
  | ambiguous
  | malformed
  | terminalResult
deriving DecidableEq

def InspectionKind.value : InspectionKind → String
  | activeWriter => "active_writer"
  | idleNoResult => "idle_no_result"
  | transientFailedTurn => "transient_failed_turn"
  | invalidChainEmptyHistory => "invalid_chain_empty_history"
  | invalidChainFailedTurn => "invalid_chain_failed_turn"
  | ambiguous => "ambiguous"
  | malformed => "malformed"
  | terminalResult => "terminal_result"

inductive WakeKind where
  | checkpoint
  | terminal
deriving DecidableEq

inductive WakeState where
  | notApplicable
  | pending
  | starting
  | delivered
  | failed
  | ambiguous
  | suppressed
deriving DecidableEq

inductive ControllerDecisionState where
  | pendingDelivery
  | awaitingClaim
  | claimed
  | actionCommitted
  | acknowledged
  | superseded
  | humanAttentionRequired
  | legacyClosed
deriving DecidableEq

inductive ControllerClaimantKind where
  | model
  | human
deriving DecidableEq

inductive ControllerGenerationState where
  | prepared
  | deliveryStarting
  | active
  | completed
  | failed
  | interrupted
  | ambiguous
  | unavailable
  | superseded
deriving DecidableEq

def ControllerGenerationState.value : ControllerGenerationState → String
  | prepared => "prepared"
  | deliveryStarting => "delivery_starting"
  | active => "active"
  | completed => "completed"
  | failed => "failed"
  | interrupted => "interrupted"
  | ambiguous => "ambiguous"
  | unavailable => "unavailable"
  | superseded => "superseded"

inductive ControllerActionKind where
  | acknowledgeOnly
  | rearmCheckpoint
  | retryDispatch
  | cancelDispatch
  | changeRetryBudget
  | requireHumanAttention
deriving DecidableEq

inductive ProgramEventKind where
  | implementationCompleted
  | reviewCompleted
  | integrationCompleted
  | controllerAttention
  | checkpoint
deriving DecidableEq

/-! ### Counters -/

/-- A used column and its budget column; the table's `CHECK` keeps the first below the second. -/
structure Budget where
  budget : ℕ
  used : ℕ
  le : used ≤ budget
deriving DecidableEq

namespace Budget

def unused (budget : ℕ) : Budget := ⟨budget, 0, Nat.zero_le _⟩

def spend (b : Budget) (h : b.used < b.budget) : Budget := ⟨b.budget, b.used + 1, h⟩

/-- `min(used + 1, budget)`. -/
def spendCapped (b : Budget) : Budget := ⟨b.budget, min (b.used + 1) b.budget, Nat.min_le_right ..⟩

/-- `budget = MAX(budget, floor)`. -/
def raise (b : Budget) (floor : ℕ) : Budget :=
  ⟨max b.budget floor, b.used, Nat.le_trans b.le (Nat.le_max_left ..)⟩

def withBudget (b : Budget) (budget : ℕ) (h : b.used ≤ budget) : Budget := ⟨budget, b.used, h⟩

theorem le_spendCapped_used (b : Budget) : b.used ≤ b.spendCapped.used := by
  have := b.le
  show b.used ≤ min (b.used + 1) b.budget
  omega

end Budget

/-! ### Shapes of arguments -/

def isHexDigit (c : Char) : Bool := ('0' ≤ c && c ≤ '9') || ('a' ≤ c && c ≤ 'f')

/-- `[0-9a-f]{64}` -/
def isSha256 (text : String) : Bool := text.length = 64 && text.toList.all isHexDigit

/-- `[0-9a-f]{40}` -/
def isGitSha (text : String) : Bool := text.length = 40 && text.toList.all isHexDigit

/-- `[A-Z][A-Z0-9_]*` -/
def isEnvironmentKey (text : String) : Bool :=
  match text.toList with
  | [] => false
  | c :: rest =>
    ('A' ≤ c && c ≤ 'Z') &&
      rest.all fun d => ('A' ≤ d && d ≤ 'Z') || ('0' ≤ d && d ≤ '9') || d = '_'

/-- `text.encode("ascii")` succeeds. -/
def isAscii (text : String) : Bool := text.toList.all fun c => c.toNat < 128

def seconds (n : ℕ) : ℕ := n * 1000000

/-- The lifetime of a capability: the lease, kept between 30 and 300 seconds. -/
def capabilityLifetime (lease : ℕ) : ℕ := min (max lease (seconds 30)) (seconds 300)

end CodexFlow.Ledger
