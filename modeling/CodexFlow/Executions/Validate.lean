import CodexFlow.Executions.Rows

/-!
# What the ledger asks of its execution rows

The part of `_validate_rows` that pairs an execution with its milestone, its lease and the rows of
its two routes. Every transaction checks it before its first write and before its commit.
-/

namespace CodexFlow.Executions

open Programs (WorkflowState)

/-- Code outside the ledger: its digests, its codecs, and the durable capsule files. -/
structure Host where
  /-- `claim_token_sha256` -/
  claimTokenSha256 : String → String
  /-- The members of `result.to_json()` beside its status, in canonical form. -/
  resultMembers : ModelFacingResult → String
  actionSha256 : ExecutionKey → AppNativeTaskAction → String
  /-- The proof of a host receipt, for the capability, the action digest, the challenge and the
  identity. -/
  receiptProof : String → String → String → HostIdentity → String
  /-- `load_capsule`: the capsule in the file with that digest. -/
  capsuleOf : Sha256 → Option ExecutionCapsule

/-- `ModelFacingResult.to_json` -/
def ModelFacingResult.toJson (host : Host) (r : ModelFacingResult) : JsonObject :=
  ⟨some r.status.value, host.resultMembers r⟩

def ownsWorkspace (leases : Table String WorkspaceLease) (runId path : String) : Bool :=
  (leases.get? path).any fun lease => lease.ownerRunId = runId

namespace MilestoneRows

variable (host : Host) (leases : Table String WorkspaceLease) (key : ExecutionKey)
  (m : MilestoneRows) (e : Execution)

def appNativeMatches (a : AppNativeDispatch) : Bool :=
  m.executor && a.action.workspacePath = e.workspacePath &&
    ownsWorkspace leases key.runId a.action.workspacePath &&
    a.identity.map (·.threadId) = e.threadId

def plannedValid : Bool :=
  e.checkpoint ∈ [.capsulePlanned, .workspaceLeased, .workspaceBaselineDurable, .threadStarting] &&
    e.threadId.isNone

def startedValid : Bool :=
  e.threadId.isSome && e.checkpoint ∈ [.threadIdentityDurable, .turnDurable] &&
    m.state = .running && m.appNative.all fun a => a.state = .bound && a.identity.isSome

def postExecutionStates : List WorkflowState :=
  [.starting, .running, .completed, .reviewing, .repairRequired, .accepted, .blocked,
    .needsDecision, .failed]

def completedValid : Bool :=
  e.checkpoint = .resultDurable && e.threadId.isSome && (e.turnId.isSome || m.appNative.isSome) &&
    e.result.isSome && e.validation.isSome && e.protectedAfter.isSome &&
    m.state ∈ postExecutionStates &&
    m.appNative.all fun a => a.state = .completed && a.result.map (·.toJson host) = e.result

def failedValid : Bool :=
  e.checkpoint = .resultDurable && e.result.isSome && e.protectedAfter.isSome &&
    m.state = .failed &&
    m.appNative.all fun a => a.state = .failed && a.result.map (·.toJson host) = e.result

def cancelledValid : Bool :=
  m.state = .cancelled && m.appNative.all fun a => a.state = .cancelled && a.result.isNone

def uncertainValid : Bool := e.threadId.isNone && m.state = .starting

def statusValid : Bool :=
  match e.status with
  | .planned => plannedValid e
  | .threadStarted => m.startedValid e
  | .completed => m.completedValid host e
  | .failed => m.failedValid host e
  | .cancelled => m.cancelledValid
  | .uncertainPreIdentity => m.uncertainValid e

/-- The turn marker, the turn identity and the time of the turn's start agree. -/
def integrityValid (i : ExecutionIntegrity) : Bool :=
  (e.status != .completed || i.terminal.isSome) && (e.turnId.isNone || i.turnStarted) &&
    (e.turnId.isSome || !i.turnStarted || e.turnOutput = some turnStartingMarker) &&
    (e.turnOutput != some turnStartingMarker || i.turnStarted)

/-- An execution that has begun has a route and the lease of its workspace. -/
def begunValid : Bool :=
  e.status ∈ [.planned, .cancelled] ||
    (m.integrity.isSome || m.appNative.isSome) && ownsWorkspace leases key.runId e.workspacePath

/-- The lifecycle events of a durable turn are numbered from zero. -/
def eventsValid : Bool :=
  e.turnId.isNone || m.events.map (·.sequence) = List.range m.events.length

def executionValid : Bool :=
  m.appNative.all (m.appNativeMatches leases key e) && m.begunValid leases key e &&
    m.statusValid host e && m.eventsValid e && m.integrity.all (integrityValid e)

def valid : Bool :=
  match m.execution with
  | none => m.integrity.isNone && m.appNative.isNone
  | some e => m.executionValid host leases key e

end MilestoneRows

/-- `_validate_rows` -/
def ExecutionLedger.valid (host : Host) (L : ExecutionLedger) : Bool :=
  L.milestones.entries.all fun entry => entry.2.valid host L.leases entry.1

end CodexFlow.Executions
