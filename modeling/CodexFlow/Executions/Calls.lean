import CodexFlow.Executions.Validate

/-!
# Calls on executions

The ledger calls of the two routes of an execution. A call reads its milestone's rows, and the
lease table where the source does, and writes the rows back; a checkpoint is advanced by the calls
in the order of the controller.
-/

namespace CodexFlow.Executions

open Checked
open Programs (WorkflowState)

namespace ExecutionLedger

variable (L : ExecutionLedger)

/-- `get_milestone`; a milestone that does not exist has none of the other rows. -/
def getMilestone (key : ExecutionKey) : Checked MilestoneRows :=
  match L.milestones.get? key with
  | none => .error (.recordNotFound s!"milestone {key.runId}/{key.milestoneId} does not exist")
  | some m => .ok m

def execution? (key : ExecutionKey) : Option Execution :=
  (L.milestones.get? key).bind (·.execution)

def put (key : ExecutionKey) (m : MilestoneRows) : ExecutionLedger :=
  { L with milestones := L.milestones.set key m }

/-- `create_milestone`; a row that is there stays. -/
def createMilestone (key : ExecutionKey) : ExecutionLedger :=
  { L with milestones := L.milestones.insert key {} }

def onRows (key : ExecutionKey) (call : MilestoneRows → Checked MilestoneRows) :
    Checked ExecutionLedger := do
  let m ← L.getMilestone key
  let m ← call m
  pure (L.put key m)

end ExecutionLedger

/-! ### Checks -/

namespace MilestoneRows

variable (m : MilestoneRows)

/-- `get_execution` -/
def getExecution (key : ExecutionKey) : Checked Execution :=
  match m.execution with
  | none => .error (.recordNotFound s!"execution {key.runId}/{key.milestoneId} does not exist")
  | some e => .ok e

/-- `get_execution_integrity` -/
def getIntegrity (key : ExecutionKey) : Checked ExecutionIntegrity :=
  match m.integrity with
  | none => .error (.keyError s!"unknown execution integrity: {key.runId}/{key.milestoneId}")
  | some i => .ok i

/-- `get_app_native_dispatch` -/
def getAppNative (key : ExecutionKey) : Checked AppNativeDispatch :=
  match m.appNative with
  | none => .error (.recordNotFound
      s!"App-native dispatch {key.runId}/{key.milestoneId}/executor/1 does not exist")
  | some a => .ok a

end MilestoneRows

/-- `_reject_terminal_execution` -/
def Execution.rejectTerminal (e : Execution) : Checked Unit :=
  ensure (¬ e.status.isTerminal) (.staleWriter "terminal execution rejects further mutation")

/-- `get_execution` and `_reject_terminal_execution`, as most calls begin. -/
def MilestoneRows.openExecution (key : ExecutionKey) (m : MilestoneRows) : Checked Execution := do
  let e ← m.getExecution key
  e.rejectTerminal
  pure e

/-! ### Plan and lease -/

/-- The arguments of `plan_execution`. -/
structure ExecutionPlan where
  capsule : ExecutionCapsule
  capsulePath : String
  capsuleSha256 : Sha256
  protectedBefore : Sha256
deriving DecidableEq

/-- The row that a plan inserts. -/
def ExecutionPlan.execution (p : ExecutionPlan) : Execution where
  capsulePath := p.capsulePath
  capsuleSha256 := p.capsuleSha256
  workspacePath := p.capsule.workspacePath
  model := p.capsule.model
  reasoningEffort := p.capsule.reasoningEffort
  status := .planned
  checkpoint := .capsulePlanned
  threadId := none
  turnId := none
  turnOutput := none
  result := none
  validation := none
  protectedBefore := p.protectedBefore
  protectedAfter := none

/-- The durable row names the same plan. -/
def Execution.follows (e : Execution) (p : ExecutionPlan) : Bool :=
  e.capsulePath = p.capsulePath && e.capsuleSha256 = p.capsuleSha256 &&
    e.workspacePath = p.capsule.workspacePath && e.model = p.capsule.model &&
    e.reasoningEffort = p.capsule.reasoningEffort && e.protectedBefore = p.protectedBefore

def MilestoneRows.planExecution (p : ExecutionPlan) (m : MilestoneRows) : Checked MilestoneRows :=
  match m.execution with
  | some e => do
    e.rejectTerminal
    ensure (e.follows p)
      (.workspaceLeaseConflict "execution capsule conflicts with its durable plan")
    pure m
  | none => pure { m with execution := some p.execution }

/-- An execution that is neither ended nor merely planned. -/
def Execution.holdsWorkspace (e : Execution) : Bool :=
  !e.status.isTerminal && e.checkpoint != .capsulePlanned

namespace ExecutionLedger

variable (L : ExecutionLedger)

def laneOwner (runId lane : String) : Option WorkspaceLease :=
  (L.leases.entries.find? fun entry => entry.2.ownerRunId = runId && entry.2.lane = lane).map (·.2)

/-- Another execution works in the workspace. -/
def occupied (key : ExecutionKey) (path : String) : Bool :=
  L.milestones.entries.any fun entry => entry.1 != key &&
    entry.2.execution.any fun e => e.workspacePath = path && e.holdsWorkspace

def leasesFor (c : ExecutionCapsule) : Checked (Table String WorkspaceLease) :=
  let owner := L.laneOwner c.runId c.lane
  let pathOwner := L.leases.get? c.workspacePath
  match owner <|> pathOwner with
  | none => pure (L.leases.insert c.workspacePath c.lease)
  | some candidate => do
    ensure (∀ a ∈ owner, ∀ b ∈ pathOwner, a.workspacePath = b.workspacePath)
      (.workspaceLeaseConflict "run lane and workspace are leased by different owners")
    ensure (candidate = c.lease)
      (.workspaceLeaseConflict "workspace is already leased under different facts")
    ensure (¬ L.occupied c.key c.workspacePath)
      (.workspaceLeaseConflict "workspace already has a nonterminal execution owner")
    pure L.leases

end ExecutionLedger

/-- The checkpoint that a lease brings to an execution that was only planned. -/
def Execution.leased (e : Execution) : Execution :=
  if e.status = .planned ∧ e.checkpoint = .capsulePlanned then
    { e with checkpoint := .workspaceLeased }
  else e

def ExecutionLedger.acquireWorkspaceLease (L : ExecutionLedger) (c : ExecutionCapsule) :
    Checked ExecutionLedger := do
  let m ← L.getMilestone c.key
  let e ← m.openExecution c.key
  ensure (e.workspacePath = c.workspacePath)
    (.workspaceLeaseConflict "durable execution selected a different workspace")
  let leases ← L.leasesFor c
  pure ({ L with leases }.put c.key { m with execution := some e.leased })

/-! ### The direct SDK route -/

/-- The arguments of `record_native_profile`. -/
structure NativeProfile where
  nativeProfileSha256 : Sha256
  nativeCompatibilitySha256 : Sha256
  effectivePermission : NativePermissionAuthority
  baselineHead : GitSha
  baseline : WorkspaceBaseline
  gitBefore : Sha256
deriving DecidableEq

def NativeProfile.integrity (p : NativeProfile) : ExecutionIntegrity where
  nativeProfileSha256 := p.nativeProfileSha256
  nativeCompatibilitySha256 := p.nativeCompatibilitySha256
  effectivePermission := p.effectivePermission
  baselineHead := p.baselineHead
  baseline := p.baseline
  gitBefore := p.gitBefore
  turnStarted := false
  gitAfter := none
  terminal := none

/-- The durable row is bound to the same profile. -/
def ExecutionIntegrity.follows (i : ExecutionIntegrity) (p : NativeProfile) : Bool :=
  i.nativeProfileSha256 = p.nativeProfileSha256 &&
    i.nativeCompatibilitySha256 = p.nativeCompatibilitySha256 &&
    i.effectivePermission = p.effectivePermission && i.baselineHead = p.baselineHead &&
    i.baseline = p.baseline && i.gitBefore = p.gitBefore

/-- What a worker's turn brings back. -/
structure TurnObservation where
  threadId : String
  turnId : String
  structuredOutput : Option JsonObject
  events : List LifecycleEvent
deriving DecidableEq

/-- The events in the order in which they are read back. -/
def TurnObservation.rows (o : TurnObservation) : List LifecycleEvent :=
  o.events.mergeSort fun a b => a.sequence ≤ b.sequence

/-- `observation.structured_output or {}` -/
def TurnObservation.output (o : TurnObservation) : JsonObject := o.structuredOutput.getD .empty

structure TerminalFacts where
  result : JsonObject
  validation : ValidationObservation
  protectedAfter : Sha256
  gitAfter : Sha256
  terminal : Option (GitSha × WorkspaceBaseline)
deriving DecidableEq

/-- `str.lower` of one code point, where that is written in ASCII; 0x212A is the Kelvin sign. -/
def lower (c : Hook.CodePoint) : Hook.CodePoint :=
  if c = 0x212A then Hook.codePoint 'k'
  else if Hook.codePoint 'A' ≤ c ∧ c ≤ Hook.codePoint 'Z' then c + 32
  else c

/-- The status of a JSON result, stripped and in lower case, is one of the words of failure. -/
def JsonObject.outcomeFailed (result : JsonObject) : Bool :=
  result.status.any fun status => (Git.strip (Hook.lit status)).map lower ∈
    ["failed", "failure", "blocked", "cancelled", "error"].map Hook.lit

def ValidationObservation.passed (v : ValidationObservation) : Bool :=
  v.exitCode = 0 && !v.timedOut

/-- `record_terminal_execution` records a completed execution. -/
def TerminalFacts.completes (f : TerminalFacts) : Bool :=
  f.validation.passed && !f.result.outcomeFailed

/-- `record_app_native_result` records a completed execution. -/
def ModelFacingResult.passes (r : ModelFacingResult) (v : ValidationObservation) : Bool :=
  v.passed && r.status = .completed && r.validations.all (·.passed)

/-- The row that a terminal write leaves. -/
def Execution.ended (e : Execution) (completes : Bool) (result : JsonObject)
    (validation : ValidationObservation) (protectedAfter : Sha256) : Execution :=
  { e with
    status := if completes then .completed else .failed
    checkpoint := .resultDurable
    result := some result
    validation := some validation
    protectedAfter := some protectedAfter }

namespace MilestoneRows

variable (key : ExecutionKey)

/-- A planned execution at a checkpoint from which it may be prepared for either route. -/
def awaitsRoute (e : Execution) : Bool :=
  e.status = .planned && e.checkpoint ∈ [.workspaceLeased, .workspaceBaselineDurable]

def recordNativeProfile (p : NativeProfile) (m : MilestoneRows) : Checked MilestoneRows := do
  let e ← m.openExecution key
  ensure (awaitsRoute e) (.staleWriter "native profile binding requires a planned leased execution")
  match m.integrity with
  | some i => do
    ensure (i.follows p) (.staleWriter "execution is already bound to a different native profile")
    pure m
  | none =>
    pure { m with
      integrity := some p.integrity
      execution := some { e with checkpoint := .workspaceBaselineDurable } }

def hasThread (e : Execution) : Bool := e.status = .threadStarted && e.threadId.isSome

def rebindNativeProfileForResume (profile compatibility : Sha256)
    (candidate : NativePermissionAuthority) (m : MilestoneRows) : Checked MilestoneRows := do
  let e ← m.openExecution key
  ensure (hasThread e)
    (.staleWriter "native profile resume rebind requires a durable active SDK thread")
  let i ← m.getIntegrity key
  ensure (i.nativeCompatibilitySha256 = compatibility)
    (.nativeCompatibilityConflict "native provider/routing/discovery compatibility changed")
  match i.effectivePermission.meet candidate with
  | none =>
    .error (.nativePermissionConflict "native permission authority changed incompatibly")
  | some effective =>
    pure { m with
      integrity := some { i with nativeProfileSha256 := profile, effectivePermission := effective } }

/-- `claim_dispatch` of executor generation one. -/
def claimExecutor (m : MilestoneRows) : Checked MilestoneRows :=
  if m.executor then pure m
  else do
    ensure (m.state = .planned)
      (.invalidTransition s!"dispatch claim requires PLANNED, found {m.state.value}")
    pure { m with executor := true, state := .starting }

def recordThreadStarting (m : MilestoneRows) : Checked MilestoneRows := do
  let e ← m.openExecution key
  ensure (e.status = .planned) (.staleWriter "SDK thread start requires a planned execution")
  if e.checkpoint = .threadStarting then pure m
  else do
    ensure (e.checkpoint = .workspaceBaselineDurable)
      (.staleWriter "SDK thread start requires a durable per-milestone workspace baseline")
    pure { m with execution := some { e with checkpoint := .threadStarting } }

def atThreadStart (e : Execution) : Bool :=
  e.status = .planned && e.checkpoint = .threadStarting && e.threadId.isNone

def recordPreIdentityUncertainty (m : MilestoneRows) : Checked MilestoneRows := do
  let e ← m.openExecution key
  ensure (atThreadStart e)
    (.staleWriter "pre-identity uncertainty requires the active thread-start boundary")
  pure { m with execution := some { e with status := .uncertainPreIdentity } }

/-- `_reject_thread_start_authorization` -/
def rejectThreadStartAuthorization (m : MilestoneRows) : Checked MilestoneRows := do
  let e ← m.openExecution key
  ensure (atThreadStart e)
    (.staleWriter "thread-start authorization rejection requires the uncalled external boundary")
  pure { m with execution := some { e with checkpoint := .workspaceBaselineDurable } }

def recordThreadIdentity (threadId : String) (m : MilestoneRows) : Checked MilestoneRows := do
  let e ← m.openExecution key
  match e.threadId with
  | some durable => do
    ensure (durable = threadId)
      (.staleWriter "execution already owns a different SDK thread identity")
    pure m
  | none => do
    ensure (e.status = .planned ∧ e.checkpoint = .threadStarting)
      (.staleWriter "thread identity requires a planned leased execution")
    ensure (m.state = .starting)
      (.staleWriter "thread identity requires a STARTING workflow state")
    pure { m with
      state := .running
      execution := some { e with
        status := .threadStarted, checkpoint := .threadIdentityDurable, threadId := some threadId } }

def recordGitAuthorityBefore (authority : Sha256) (m : MilestoneRows) : Checked MilestoneRows := do
  let e ← m.openExecution key
  ensure (hasThread e) (.staleWriter "Git authority binding requires a durable active SDK thread")
  let i ← m.getIntegrity key
  ensure (i.gitBefore = authority)
    (.staleWriter "execution Git authority changed before its SDK turn")
  pure m

def recordTurnStarting (m : MilestoneRows) : Checked MilestoneRows := do
  let e ← m.openExecution key
  ensure (hasThread e) (.staleWriter "turn start requires a durable SDK thread")
  if e.turnId.isSome ∨ e.turnOutput = some turnStartingMarker then pure m
  else do
    let i ← m.getIntegrity key
    pure { m with
      execution := some { e with turnOutput := some turnStartingMarker }
      integrity := some { i with turnStarted := true } }

/-- `_reject_turn_authorization` -/
def rejectTurnAuthorization (m : MilestoneRows) : Checked MilestoneRows := do
  let e ← m.openExecution key
  let i ← m.getIntegrity key
  ensure (hasThread e ∧ e.turnId = none ∧ e.turnOutput = some turnStartingMarker ∧ i.turnStarted)
    (.staleWriter "turn authorization rejection requires the uncalled external boundary")
  pure { m with
    execution := some { e with turnOutput := none }
    integrity := some { i with turnStarted := false } }

def recordTurn (o : TurnObservation) (m : MilestoneRows) : Checked MilestoneRows := do
  let e ← m.openExecution key
  ensure (hasThread e) (.staleWriter "turn observation requires a durable active SDK thread")
  ensure (e.threadId = some o.threadId)
    (.staleWriter "turn observation belongs to a different SDK thread")
  let i ← m.getIntegrity key
  match e.turnId with
  | some durable => do
    ensure (durable = o.turnId) (.staleWriter "execution already owns a different SDK turn")
    ensure i.turnStarted (.corruptSchema "durable SDK turn lacks causal turn-start authority")
    ensure (e.turnOutput = some o.output ∧ m.events = o.events)
      (.staleWriter "execution already owns different durable SDK turn facts")
    pure m
  | none => do
    ensure (i.turnStarted ∧ e.turnOutput = some turnStartingMarker)
      (.staleWriter "turn observation requires prior durable turn-start authority")
    pure { m with
      events := o.rows
      execution := some { e with
        checkpoint := .turnDurable, turnId := some o.turnId, turnOutput := some o.output } }

def recordTerminalExecution (f : TerminalFacts) (m : MilestoneRows) : Checked MilestoneRows := do
  ensure (f.completes → f.terminal.isSome)
    (.staleWriter "completed execution requires accepted terminal workspace authority")
  let e ← m.openExecution key
  ensure (e.status = .threadStarted ∧ e.turnId.isSome)
    (.staleWriter "terminal result requires a durable SDK turn")
  let i ← m.getIntegrity key
  ensure (m.state = .running)
    (.staleWriter "terminal result requires a RUNNING workflow state")
  pure { m with
    state := if f.completes then .completed else .failed
    execution := some (e.ended f.completes f.result f.validation f.protectedAfter)
    integrity := some { i with
      gitAfter := some f.gitAfter
      terminal := if f.completes then f.terminal else none } }

end MilestoneRows

/-! ### The App-native route -/

/-- The arguments of `prepare_app_native_dispatch`. -/
structure AppNativePreparation where
  action : AppNativeTaskAction
  baselineHead : GitSha
  baseline : WorkspaceBaseline
  gitBefore : Sha256
  controllerState : Sha256
deriving DecidableEq

/-- `_same_native_action`: the capabilities of the two actions are not compared. -/
def AppNativeTaskAction.same (a b : AppNativeTaskAction) : Bool :=
  a.model = b.model && a.reasoningEffort = b.reasoningEffort &&
    a.workspacePath = b.workspacePath && a.prompt = b.prompt && a.outputSchema = b.outputSchema

def AppNativeDispatch.follows (a : AppNativeDispatch) (p : AppNativePreparation) : Bool :=
  a.action.same p.action && a.baselineHead = p.baselineHead && a.baseline = p.baseline &&
    a.gitBefore = p.gitBefore && a.controllerState = p.controllerState

def AppNativePreparation.dispatch (p : AppNativePreparation) : AppNativeDispatch where
  action := p.action
  state := .prepared
  identity := none
  result := none
  baselineHead := p.baselineHead
  baseline := p.baseline
  gitBefore := p.gitBefore
  gitAfter := none
  controllerState := p.controllerState
  terminal := none

/-- `HostReceipt` -/
structure HostReceipt where
  key : ExecutionKey
  actionSha256 : String
  bindChallenge : String
  identity : HostIdentity
  proof : String
deriving DecidableEq

/-- `HostReceipt.verify` -/
def HostReceipt.verify (host : Host) (r : HostReceipt) (key : ExecutionKey)
    (action : AppNativeTaskAction) (claimToken : String) : Checked Unit := do
  ensure (r.key = key ∧ r.actionSha256 = host.actionSha256 key action ∧
      r.bindChallenge = action.bindChallenge)
    (.staleWriter "host receipt does not match the prepared action")
  ensure (r.proof = host.receiptProof claimToken r.actionSha256 r.bindChallenge r.identity)
    (.staleWriter "host receipt proof is invalid")

structure AppNativeFacts where
  result : ModelFacingResult
  validation : ValidationObservation
  protectedAfter : Sha256
  gitAfter : Sha256
  terminal : Option (GitSha × WorkspaceBaseline)
deriving DecidableEq

def AppNativeFacts.passes (f : AppNativeFacts) : Bool := f.result.passes f.validation

namespace MilestoneRows

variable (host : Host) (leases : Table String WorkspaceLease) (key : ExecutionKey)

def prepareAppNative (p : AppNativePreparation) (m : MilestoneRows) : Checked MilestoneRows := do
  let e ← m.getExecution key
  ensure (e.workspacePath = p.action.workspacePath)
    (.staleWriter "App-native action workspace does not match its durable execution")
  ensure (leases.get? p.action.workspacePath).isSome
    (.staleWriter "App-native prepare requires its durable workspace lease")
  ensure (ownsWorkspace leases key.runId p.action.workspacePath)
    (.staleWriter "App-native action workspace does not match its durable lease")
  match m.appNative with
  | some a => do
    ensure (a.follows p)
      (.staleWriter "App-native execution is already prepared with different facts")
    pure m
  | none => do
    e.rejectTerminal
    ensure (awaitsRoute e) (.staleWriter "App-native prepare requires one planned leased execution")
    ensure (m.state = .planned)
      (.invalidTransition s!"App-native prepare requires PLANNED, found {m.state.value}")
    ensure (¬ m.executor)
      (.dispatchConflict
        s!"App-native executor is already owned by {key.runId}/{key.milestoneId}/executor/1")
    pure { m with
      executor := true
      state := .starting
      appNative := some p.dispatch
      execution := some { e with checkpoint := .workspaceBaselineDurable } }

def bindAppNative (claimToken : String) (receipt : HostReceipt) (m : MilestoneRows) :
    Checked MilestoneRows := do
  let a ← m.getAppNative key
  ensure (host.claimTokenSha256 a.action.claimToken = host.claimTokenSha256 claimToken)
    (.staleWriter "App-native bind capability does not match its prepared action")
  receipt.verify host key a.action claimToken
  ensure (a.state ≠ .cancelled)
    (.staleWriter "cancelled App-native dispatch rejects late bind receipt replay")
  match a.identity with
  | some identity => do
    ensure (identity = receipt.identity)
      (.staleWriter "App-native dispatch is already bound to a different host identity")
    pure m
  | none => do
    ensure (a.state = .prepared)
      (.staleWriter "only a prepared App-native dispatch can be bound")
    let e ← m.getExecution key
    ensure (e.status = .planned) (.staleWriter "App-native bind requires a planned execution")
    ensure (m.state = .starting)
      (.staleWriter "App-native bind requires a STARTING workflow state")
    pure { m with
      state := .running
      appNative := some { a with state := .bound, identity := some receipt.identity }
      execution := some { e with
        status := .threadStarted, checkpoint := .threadIdentityDurable
        threadId := some receipt.identity.threadId } }

def repeatsResult (f : AppNativeFacts) (a : AppNativeDispatch) (e : Execution) : Bool :=
  a.result = some f.result && a.gitAfter = some f.gitAfter && a.terminal = f.terminal &&
    a.state = (if f.passes then .completed else .failed) && e.validation = some f.validation &&
    e.protectedAfter = some f.protectedAfter

def recordAppNativeResult (claimToken : String) (identity : HostIdentity) (f : AppNativeFacts)
    (m : MilestoneRows) : Checked MilestoneRows := do
  ensure (f.passes → f.terminal.isSome)
    (.staleWriter "completed App-native execution requires terminal workspace authority")
  let a ← m.getAppNative key
  ensure (host.claimTokenSha256 a.action.claimToken = host.claimTokenSha256 claimToken)
    (.staleWriter "App-native result capability does not match its prepared action")
  ensure (a.identity = some identity)
    (.staleWriter "App-native result identity does not match the exact bound host thread")
  let e ← m.getExecution key
  if a.result.isSome then do
    ensure (repeatsResult f a e)
      (.staleWriter "App-native dispatch already owns different terminal facts")
    pure m
  else do
    ensure (a.state = .bound) (.staleWriter "App-native result requires a bound dispatch")
    ensure (e.status = .threadStarted ∧ e.threadId = some identity.threadId)
      (.staleWriter "App-native result requires its durable bound execution identity")
    ensure (m.state = .running)
      (.staleWriter "App-native result requires a RUNNING workflow state")
    pure { m with
      state := if f.passes then .completed else .failed
      appNative := some { a with
        state := if f.passes then .completed else .failed
        result := some f.result
        gitAfter := some f.gitAfter
        terminal := if f.passes then f.terminal else none }
      execution :=
        some (e.ended f.passes (f.result.toJson host) f.validation f.protectedAfter) }

/-! ### Cancellation and transitions -/

/-- `TERMINAL_STATES` -/
def terminalStates : List WorkflowState := [.accepted, .blocked, .failed, .cancelled]

/-- `cancel_execution`; `queueRefuses` says that the queue row of the milestone that the ledger
finds first can not be cancelled. -/
def cancelExecution (queueRefuses : Bool) (m : MilestoneRows) : Checked MilestoneRows := do
  let e ← m.openExecution key
  if m.state ∈ terminalStates then pure m
  else do
    ensure (¬ queueRefuses) (.staleWriter "queue dispatch cannot be cancelled")
    pure { m with
      state := .cancelled
      execution := some { e with status := .cancelled, checkpoint := .resultDurable }
      appNative := m.appNative.map fun a => { a with state := .cancelled } }

/-- `transition` -/
def transition (target expected : WorkflowState) (m : MilestoneRows) : Checked MilestoneRows := do
  ensure (m.state = expected) (.staleWriter "stale milestone writer")
  ensure (¬ (m.state = .planned ∧ target = .starting))
    (.invalidTransition "PLANNED -> STARTING is reserved for claim_dispatch")
  ensure (m.state.isTransitionAllowed target)
    (.invalidTransition s!"{m.state.value} -> {target.value} is not allowed")
  pure { m with state := target }

end MilestoneRows

end CodexFlow.Executions
