import CodexFlow.Ledger.Retry

/-!
# Workers

The capability and the liveness lease of an attempt, and what the exit of its worker does to the
queue, the recovery state and the retry policy.
-/

namespace CodexFlow.Ledger

open Checked

/-- `_require_exact_worker_process_identity` -/
def requireWorkerIdentity (generation attempt : ℕ) : Checked Unit :=
  ensure (1 ≤ generation ∧ 1 ≤ attempt) (.valueError "worker process identity is invalid")

/-- The row of `attempt_capabilities` under the given key. -/
def DispatchRows.capabilityAt (r : DispatchRows) (generation attempt : ℕ) :
    Option AttemptCapability :=
  r.capability.filter fun c => c.generation = generation && c.attempt = attempt

/-- `expires_at` moved where the capability under the key is not consumed. -/
def DispatchRows.renewCapability (r : DispatchRows) (generation attempt : ℕ) (expiresAt : Time) :
    DispatchRows :=
  { r with
    capability := r.capability.map fun c =>
      if c.generation = generation && c.attempt = attempt && c.consumedAt.isNone then
        { c with expiresAt := expiresAt }
      else c }

/-! ### Capabilities -/

/-- A requested expiry is repaired when it has passed and kept between the two bounds. -/
def capabilityExpiry (requested : Option Time) (lease : ℕ) (now : Time) : Time :=
  let minimum := now + capabilityLifetime lease
  let maximum := now + seconds 300
  match requested with
  | none => minimum
  | some at' =>
    if at' ≤ now then minimum
    else if maximum ≤ at' then maximum
    else if at' < minimum then minimum
    else at'

/-- What a caller of `issue_attempt_capability` binds. -/
structure CapabilityRequest where
  generation : ℕ
  attempt : ℕ
  schemaSha256 : String
  workspacePath : String
  backend : Backend
  tokenSha256 : String
  expiresAt : Option Time := none
  lease : ℕ := seconds 300

def issueAttemptCapability (L : Ledger) (dispatchId : DispatchId) (request : CapabilityRequest)
    (now : Time) : Checked Ledger := do
  ensure (isSha256 request.schemaSha256 ∧ isSha256 request.tokenSha256)
    (.valueError "capability digest is invalid")
  ensure (0 < request.lease) (.valueError "capability lease duration is invalid")
  L.onDispatch dispatchId (queueMissing dispatchId) fun r => do
    ensure (request.generation = r.queue.generation ∧ request.attempt = r.queue.attempt ∧
        request.backend = r.queue.backend ∧ request.workspacePath = r.queue.workspacePath ∧
        request.schemaSha256 = r.queue.resultContractSha256)
      (.staleWriter "attempt capability does not match queue binding")
    let expiry := capabilityExpiry request.expiresAt request.lease now
    match r.capabilityAt request.generation request.attempt with
    | some c => do
      ensure (c.schemaSha256 = request.schemaSha256 ∧ c.workspacePath = request.workspacePath ∧
          c.backend = request.backend ∧ c.tokenSha256 = request.tokenSha256)
        (.staleWriter "attempt capability facts conflict")
      pure (if c.consumedAt.isNone && c.expiresAt ≤ now then
        r.renewCapability request.generation request.attempt expiry else r)
    | none =>
      pure { r with
        capability := some
          { generation := request.generation, attempt := request.attempt,
            schemaSha256 := request.schemaSha256, workspacePath := request.workspacePath,
            backend := request.backend, issuedAt := now, expiresAt := expiry,
            consumedAt := none, tokenSha256 := request.tokenSha256,
            acceptedResultSha256 := none } }

/-! ### Liveness -/

/-- The claim a worker call must present. -/
def DispatchRows.holdsClaim (r : DispatchRows) (generation attempt epoch : ℕ) : Bool :=
  r.queue.generation = generation && r.queue.attempt = attempt &&
    r.queue.claim.map (·.epoch) = some epoch

structure WorkerProcess where
  pid : ℕ
  processBirthIdentity : String
deriving DecidableEq

def bindWorkerLiveness (L : Ledger) (dispatchId : DispatchId) (epoch generation attempt : ℕ)
    (process : WorkerProcess) (leaseTokenSha256 : String) (lease : ℕ) (now : Time) :
    Checked Ledger := do
  requireWorkerIdentity generation attempt
  ensure (0 < process.pid ∧ process.processBirthIdentity ≠ "" ∧ isSha256 leaseTokenSha256)
    (.valueError "worker liveness facts are invalid")
  ensure (0 < lease) (.valueError "lease/checkpoint duration must be positive")
  L.requireLiveHarness epoch now
  L.onDispatch dispatchId (queueMissing dispatchId) fun r => do
    ensure (r.holdsClaim generation attempt epoch) (.staleWriter "worker liveness claim is stale")
    ensure ((r.capabilityAt generation attempt).any (·.tokenSha256 = leaseTokenSha256))
      (.staleWriter "worker liveness token is not bound to the attempt capability")
    ensure (r.queue.state ∈ [.claimed, .starting, .running])
      (.staleWriter "worker liveness requires an active queue claim")
    ensure (r.liveness.all fun l =>
        l.generation = generation && l.attempt = attempt && l.pid = process.pid &&
          l.processBirthIdentity = process.processBirthIdentity &&
          l.leaseTokenSha256 = leaseTokenSha256)
      (.staleWriter "worker liveness identity is conflicting")
    let renewed := r.renewCapability generation attempt (now + capabilityLifetime lease)
    pure { renewed with
      liveness := some (r.liveness.getD
        { generation := generation, attempt := attempt, pid := process.pid,
          processBirthIdentity := process.processBirthIdentity,
          leaseTokenSha256 := leaseTokenSha256, leaseExpiresAt := now + lease,
          lastSeenAt := now, exitedAt := none })
      queue := if r.queue.state = .claimed then r.queue.moveTo .starting now else r.queue }

def bindWorkerThread (env : Env) (L : Ledger) (dispatchId : DispatchId)
    (epoch generation attempt : ℕ) (token threadId : String) (now : Time) : Checked Ledger := do
  requireWorkerIdentity generation attempt
  ensure (env.isThreadIdentity threadId) (.valueError "worker thread identity is invalid")
  ensure (isAscii token) (.staleWriter "worker capability token is invalid")
  L.requireLiveHarness epoch now
  L.onDispatch dispatchId (queueMissing dispatchId) fun r => do
    ensure (r.holdsClaim generation attempt epoch) (.staleWriter "worker thread claim is stale")
    ensure ((r.capabilityAt generation attempt).any (·.tokenSha256 = env.sha256 token))
      (.staleWriter "worker capability does not match thread binding")
    ensure (r.queue.threadId.all (· = threadId))
      (.staleWriter "worker thread identity is conflicting")
    pure (if r.queue.state ∈ [.claimed, .starting, .running] then
      { r with queue := { r.queue with
          state := .running, threadId := some threadId, updatedAt := now } }
      else r)

def renewWorkerLiveness (env : Env) (L : Ledger) (dispatchId : DispatchId)
    (generation attempt : ℕ) (token : String) (lease : ℕ) (epoch : Option ℕ) (now : Time) :
    Checked Ledger := do
  requireWorkerIdentity generation attempt
  ensure (isAscii token) (.staleWriter "worker lease token is invalid")
  ensure (epoch.all fun e => L.harnessLive e now)
    (.staleWriter "operation requires a live harness lease")
  L.onDispatch dispatchId (.staleWriter "worker liveness lease does not exist") fun r =>
    match r.liveness with
    | none => .error (.staleWriter "worker liveness lease does not exist")
    | some l => do
      ensure (l.generation = generation ∧ l.attempt = attempt ∧
          l.leaseTokenSha256 = env.sha256 token)
        (.staleWriter "worker liveness lease is stale")
      ensure (r.queue.state ∈ [.starting, .running])
        (.staleWriter "worker liveness lease is no longer active")
      ensure (0 < lease) (.valueError "lease/checkpoint duration must be positive")
      let renewed := r.renewCapability generation attempt (now + capabilityLifetime lease)
      pure { renewed with
        liveness := some { l with leaseExpiresAt := now + lease, lastSeenAt := now } }

/-- A worker that is still alive moves to a replacement harness epoch. -/
def adoptLiveWorker (L : Ledger) (dispatchId : DispatchId) (newEpoch : ℕ)
    (process : WorkerProcess) (claimNonceSha256 : String) (now : Time) : Checked Ledger := do
  ensure (0 < newEpoch ∧ 0 < process.pid ∧ process.processBirthIdentity ≠ "")
    (.valueError "live worker adoption facts are invalid")
  ensure (isSha256 claimNonceSha256) (.valueError "worker adoption claim nonce is invalid")
  L.requireLiveHarness newEpoch now
  let missing := LedgerError.recordNotFound s!"live worker does not exist: {dispatchId}"
  L.onDispatch dispatchId missing fun r =>
    match r.liveness with
    | none => .error missing
    | some l => do
      ensure (l.pid = process.pid ∧ l.processBirthIdentity = process.processBirthIdentity ∧
          l.exitedAt.isNone)
        (.staleWriter "worker adoption identity is stale")
      ensure (r.queue.state ∈ [.claimed, .starting, .running])
        (.staleWriter "only an active worker may be adopted")
      pure { r with queue := { r.queue with
        claim := some ⟨newEpoch, claimNonceSha256⟩, updatedAt := now } }

end CodexFlow.Ledger
