import CodexFlow.Ledger.Wakes
import Mathlib

/-!
# Results

A result enters by submission, by a retained or a recovered copy, is bound to the integrity capture
of a control repair, and is made terminal together with its outboxes and its wake.
-/

namespace CodexFlow.Ledger

open Checked

/-- `_queue_result_terminal_status` values that end a dispatch as failed. -/
def isFailure (terminalStatus : String) : Bool :=
  terminalStatus ∈ ["failed", "external_blocked", "needs_decision"]

structure ParsedResult where
  raw : String
  terminalStatus : String
  digest : String
deriving DecidableEq

namespace ParsedResult

variable (p : ParsedResult)

def terminalState : QueueState := if isFailure p.terminalStatus then .failed else .completed

def recoveryKind : RecoveryKind := if isFailure p.terminalStatus then .failed else .completed

end ParsedResult

/-- `_parse_queue_result` against the contract of the dispatch, and the digest of the bytes. -/
def DispatchRows.parseResult (env : Env) (r : DispatchRows) (raw : String) :
    Checked ParsedResult := do
  let status ← env.parseQueueResult r.queue.resultContractSha256 raw
  pure ⟨raw, status, env.sha256 raw⟩

/-! ### Submission -/

/-- `_late_result_transport_recovery_allowed_in_transaction` -/
def DispatchRows.lateResultAllowed (r : DispatchRows) (generation attempt : ℕ) : Bool :=
  r.policy.lastFailure = some .resultTransportAfterIdentity &&
    r.policy.strategy = .humanAttention &&
    r.recovery.workerExitClassification = some "result-transport-after-identity" &&
    r.recovery.recoveryState = .humanAttentionRequired &&
    r.liveness.any fun l =>
      l.generation = generation && l.attempt = attempt && l.exitedAt.isSome

/-- What a worker presents with its result. -/
structure Submission where
  generation : ℕ
  attempt : ℕ
  token : String
  rawResult : String
deriving DecidableEq

/-- The result is taken and its capability consumed. -/
def DispatchRows.acceptResult (r : DispatchRows) (p : ParsedResult) (now : Time) : DispatchRows :=
  { r with
    capability := r.capability.map fun c =>
      { c with consumedAt := some now, acceptedResultSha256 := some p.digest }
    queue := { r.queue with
      state := .resultSubmitted, raw := some ⟨p.raw, p.digest⟩
      terminalStatus := some p.terminalStatus, updatedAt := now }
    recovery := { r.recovery with
      recoveryState := p.recoveryKind, nextEligibleAt := none, humanAttentionReason := none
      updatedAt := now } }

/-- The states from which a worker may still submit. -/
def DispatchRows.mayStillSubmit (r : DispatchRows) (generation attempt : ℕ) : Bool :=
  r.queue.state ∈ [.starting, .running, .recoveryInspectionPending, .recoveryRetryWait,
      .recoveryContinuationPending, .resultSubmitted] ||
    (r.queue.state = .humanAttentionRequired && r.lateResultAllowed generation attempt)

/-- `_submit_queue_result_in_transaction` -/
def DispatchRows.submit (env : Env) (s : Submission) (p : ParsedResult) (now : Time)
    (r : DispatchRows) : Checked DispatchRows := do
  requireWorkerIdentity s.generation s.attempt
  match r.capabilityAt s.generation s.attempt with
  | none => .error (.staleWriter "result capability does not exist")
  | some c => do
    ensure (c.generation = r.queue.generation ∧ c.attempt = r.queue.attempt ∧
        c.backend = r.queue.backend ∧ c.workspacePath = r.queue.workspacePath ∧
        c.schemaSha256 = r.queue.resultContractSha256)
      (.staleWriter "result capability binding is conflicting")
    ensure (isAscii s.token ∧ c.tokenSha256 = env.sha256 s.token)
      (.staleWriter "result capability token is invalid")
    ensure (!r.cancelPending) (.staleWriter "pending worker cancellation rejects a result")
    ensure (r.queue.state ≠ .cancelled) (.staleWriter "cancelled queue dispatch rejects a result")
    if r.queue.state.isTerminal then do
      ensure (r.rawSha256 = some p.digest) (.staleWriter "terminal queue result is immutable")
      pure r
    else if c.consumedAt.isSome then do
      ensure (c.acceptedResultSha256 = some p.digest)
        (.staleWriter "result capability has already been consumed")
      pure r
    else do
      ensure (now < c.expiresAt) (.staleWriter "result capability has expired")
      ensure (r.mayStillSubmit s.generation s.attempt)
        (.staleWriter s!"result submission is not allowed from queue state {r.queue.state.value}")
      pure (r.acceptResult p now)

def submitQueueResult (env : Env) (L : Ledger) (dispatchId : DispatchId) (s : Submission)
    (now : Time) : Checked Ledger :=
  L.onDispatch dispatchId (queueMissing dispatchId) fun r => do
    let p ← r.parseResult env s.rawResult
    r.submit env s p now

/-! ### Terminal integrity -/

def captureRejected : LedgerError :=
  .staleWriter "dispatch terminal integrity is not authorized for this worker event"

/-- The shapes of the digests in a capture. -/
def TerminalCapture.isWellFormed (c : TerminalCapture) : Bool :=
  isGitSha c.workspaceTerminalHeadSha && isSha256 c.gitAuthoritySha256 &&
    isSha256 c.protectedPathsSha256

/-- `_capture_dispatch_terminal_integrity_in_transaction`; `completed` says that the worker event
is `turn/completed`. -/
def DispatchRows.captureIntegrity (r : DispatchRows) (completed : Bool)
    (capture : Option TerminalCapture) (allowInsert : Bool) (now : Time) :
    Checked DispatchRows :=
  if !(r.isControlRepair && completed) then do
    ensure capture.isNone captureRejected
    pure r
  else
    match capture with
    | none =>
      .error (.staleWriter "completed control repair event lacks dispatch terminal integrity")
    | some c => do
      ensure c.isWellFormed (.valueError "dispatch terminal integrity has an unsupported shape")
      match r.integrity with
      | some existing => do
        ensure (existing.capture = c)
          (.staleWriter "dispatch terminal integrity capture conflicts with durable authority")
        pure r
      | none => do
        ensure (c.capturedAt ≤ now + seconds 1 ∧ now ≤ c.capturedAt + seconds 300)
          (.staleWriter "dispatch terminal integrity capture is stale")
        ensure allowInsert
          (.staleWriter "completed control repair event lacks its durable terminal capture")
        ensure r.queue.raw.isNone
          (.staleWriter "dispatch terminal integrity capture followed result ingress")
        pure { r with integrity := some ⟨c, none⟩ }

def captureDispatchTerminalIntegrity (L : Ledger) (dispatchId : DispatchId) (completed : Bool)
    (capture : Option TerminalCapture) (allowInsert : Bool) (now : Time) : Checked Ledger :=
  L.onDispatch dispatchId (queueMissing dispatchId) fun r =>
    r.captureIntegrity completed capture allowInsert now

/-- `_bind_dispatch_terminal_integrity_in_transaction` -/
def DispatchRows.bindIntegrity (digest : String) (r : DispatchRows) : Checked DispatchRows :=
  if !r.isControlRepair then do
    ensure r.integrity.isNone
      (.staleWriter "dispatch terminal integrity is not authorized for this result")
    pure r
  else
    match r.integrity with
    | none => .error (.staleWriter "completed control repair lacks pre-ingestion terminal integrity")
    | some i => do
      ensure (r.rawSha256 = some digest)
        (.staleWriter "dispatch terminal integrity result digest is stale")
      ensure (i.resultSha256.all (· = digest))
        (.staleWriter "dispatch terminal integrity conflicts with its result authority")
      pure { r with integrity := some { i with resultSha256 := some digest } }

/-! ### Finalization -/

/-- The successors of the dispatch that wait for it, in the order of their identities. -/
def DispatchRows.authorizedIds (r : DispatchRows) : List DispatchId :=
  ((r.successors.filter (·.releasedAt.isNone)).map (·.successorDispatchId)).insertionSort (· ≤ ·)

def AuthorizedSuccessor.release (now : Time) (a : AuthorizedSuccessor) : AuthorizedSuccessor :=
  if a.releasedAt.isNone then { a with releasedAt := some now } else a

/-- A checkpoint wake that was not delivered and whose decision took no action. -/
def DispatchRows.suppress (r : DispatchRows) (now : Time) (w : Wake) : Wake :=
  if w.kind = .checkpoint && w.state ≠ .delivered &&
      (r.decisions.any fun d =>
        d.kind = w.kind && d.cycleSequence = w.cycleSequence && d.actionId.isNone) then
    { w with state := .suppressed, sourceTurnId := none, updatedAt := now }
  else w

def DispatchRows.terminate (r : DispatchRows) (terminal : QueueState)
    (notifySourceTask : Option String) (now : Time) : DispatchRows :=
  { r with
    queue := r.queue.moveTo terminal now
    successors := r.successors.map (AuthorizedSuccessor.release now)
    successorOutbox := some
      { successorDispatchId := r.authorizedIds.head?
        authorizedSuccessorDispatchIds := r.authorizedIds
        releasedAt := now
        outcome := if r.authorizedIds.isEmpty then .notRequired else .enqueued
        createdAt := now
        completedAt := some now }
    notificationOutbox := some
      { sourceTask := (notifySourceTask.filter (· ≠ "")).or r.binding.sourceThreadId
        payload := ⟨r.queue.runId, r.queue.milestoneId, terminal, r.rawSha256⟩
        outcome := .unavailable
        attemptedAt := none }
    decisions := r.decisions.map (ControllerDecision.supersede true now)
    wakes := r.wakes.map (r.suppress now) }

def DispatchRows.terminalWake (r : DispatchRows) (terminal : QueueState) : NewWake where
  kind := .terminal
  cycleSequence := 1
  sourceThreadId := r.binding.sourceThreadId
  payload := .terminal terminal r.rawSha256
  queueState := terminal

/-- The optional arguments of `finalize_queue_result`. -/
structure FinalizeRequest where
  successorDispatchId : Option DispatchId := none
  notifySourceTask : Option String := none

/-- `_finalize_queue_result_in_transaction` -/
def DispatchRows.finalize (request : FinalizeRequest) (now : Time) (r : DispatchRows) :
    Checked DispatchRows :=
  if r.queue.state ∈ [.completed, .failed, .cancelled] then pure r
  else do
    ensure (r.queue.state = .resultSubmitted) (.staleWriter "queue result is not submitted")
    let terminal := if isFailure (r.queue.terminalStatus.getD "") then .failed else .completed
    ensure (request.successorDispatchId.all (· ∈ r.authorizedIds))
      (.staleWriter "successor dispatch is not pre-authorized")
    ensure (r.successorOutbox.isNone && r.notificationOutbox.isNone) .integrityError
    (r.terminate terminal request.notifySourceTask now).insertWake (r.terminalWake terminal) now now

def finalizeQueueResult (L : Ledger) (dispatchId : DispatchId) (request : FinalizeRequest)
    (now : Time) : Checked Ledger :=
  L.onDispatch dispatchId (queueMissing dispatchId) (DispatchRows.finalize request now)

/-! ### The three ways in -/

def withinRawBound (raw : String) : Bool := raw.utf8ByteSize ≤ 65536

/-- What follows a submission: the integrity binding, the settled policy and the finalization. -/
def DispatchRows.commitSubmitted (digest : String) (now : Time) (r : DispatchRows) :
    Checked DispatchRows := do
  let bound ← r.bindIntegrity digest
  DispatchRows.finalize {} now { bound with policy := bound.policy.settle none now }

/-- The rows that `commit_queue_result` leaves; it returns their queue row. -/
def DispatchRows.commit (env : Env) (s : Submission) (now : Time) (r : DispatchRows) :
    Checked DispatchRows := do
  let p ← r.parseResult env s.rawResult
  ensure (withinRawBound s.rawResult) (.valueError "worker raw result exceeds bounded limit")
  let submitted ← r.submit env s p now
  submitted.commitSubmitted p.digest now

def commitQueueResult (env : Env) (L : Ledger) (dispatchId : DispatchId) (s : Submission)
    (now : Time) : Checked Ledger :=
  L.onDispatch dispatchId (queueMissing dispatchId) (DispatchRows.commit env s now)

/-- `commit_retained_queue_result`: the exited attempt gets a short renewal first. -/
def DispatchRows.commitRetained (env : Env) (s : Submission) (now : Time) (r : DispatchRows) :
    Checked DispatchRows := do
  let p ← r.parseResult env s.rawResult
  ensure (withinRawBound s.rawResult) (.valueError "worker raw result exceeds bounded limit")
  ensure (r.lateResultAllowed s.generation s.attempt)
    (.staleWriter "retained result does not own an exact result-transport recovery")
  ensure ((r.capabilityAt s.generation s.attempt).any (·.consumedAt.isNone))
    (.staleWriter "retained result capability is unavailable")
  let submitted ← (r.renewCapability s.generation s.attempt (now + seconds 30)).submit env s p now
  submitted.commitSubmitted p.digest now

def commitRetainedQueueResult (env : Env) (L : Ledger) (dispatchId : DispatchId) (s : Submission)
    (now : Time) : Checked Ledger :=
  L.onDispatch dispatchId (queueMissing dispatchId) (DispatchRows.commitRetained env s now)

/-- The rows with a result that a persisted thread already held. -/
def DispatchRows.acceptRecovered (r : DispatchRows) (p : ParsedResult) (now : Time) :
    DispatchRows :=
  { r with
    queue := { r.queue with
      state := .resultSubmitted, raw := some ⟨p.raw, p.digest⟩
      terminalStatus := some p.terminalStatus, updatedAt := now }
    recovery := { r.recovery with
      recoveryState := p.recoveryKind, nextEligibleAt := none
      inspectedKind := some .terminalResult, updatedAt := now }
    policy := r.policy.settle none now }

/-- `ingest_recovered_result` -/
def DispatchRows.ingest (env : Env) (raw : String) (now : Time) (r : DispatchRows) :
    Checked DispatchRows := do
  let p ← r.parseResult env raw
  ensure (withinRawBound raw) (.valueError "recovered raw result exceeds bounded limit")
  if r.queue.state.isTerminal then do
    ensure (r.rawSha256 = some p.digest) (.staleWriter "terminal queue result is immutable")
    r.bindIntegrity p.digest
  else do
    ensure (r.queue.state = .recoveryInspectionPending)
      (.staleWriter "persisted-thread result requires a recovery inspection state")
    let bound ← (r.acceptRecovered p now).bindIntegrity p.digest
    bound.finalize {} now

def ingestRecoveredResult (env : Env) (L : Ledger) (dispatchId : DispatchId) (raw : String)
    (now : Time) : Checked Ledger :=
  L.onDispatch dispatchId (queueMissing dispatchId) (DispatchRows.ingest env raw now)

end CodexFlow.Ledger
