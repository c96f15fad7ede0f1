import CodexFlow.Executions.Crashes
import CodexFlow.Lib.Scripted

/-!
# The controller and its external calls

The public calls of `Controller`, command by command, over the ledger and the SDK. An event says
whether the code outside the ledger returns or raises where the call meets it, and the call dies
where its script ends. The mutation lock lets one call run at a time, so the record that a call has
in hand is the durable one.
-/

namespace CodexFlow.Executions

open Scripted

/-! ### The world of a call -/

inductive SdkCall where
  | startThread
  | runTurn
deriving DecidableEq

/-- A call of the SDK, with the rows that are committed when it is made. -/
structure Crossing where
  key : ExecutionKey
  call : SdkCall
  rows : Option MilestoneRows
deriving DecidableEq

structure World where
  ledger : ExecutionLedger := {}
  /-- The calls of the SDK, oldest first. -/
  crossings : List Crossing := []

inductive ControllerFailure where
  | ledger (error : ExecutionError)
  /-- Code outside the ledger raises. -/
  | raised
  | controllerError (message : String)
  | resumeRequired (message : String)
  | uncertainPreIdentity (message : String)
  | uncertainTurn (message : String)
  | unsafeResumeCompatibilityChange (message : String)
  | unsafeResumePermissionChange (message : String)
deriving DecidableEq

abbrev Controller (α : Type) := Scripted World Bool ControllerFailure α

def ExecutionStatus.value : ExecutionStatus → String
  | planned => "planned"
  | threadStarted => "thread_started"
  | completed => "completed"
  | failed => "failed"
  | cancelled => "cancelled"
  | uncertainPreIdentity => "uncertain_pre_identity"

/-- What one call finds outside the ledger. -/
structure Surroundings where
  /-- The native profile and the workspace baseline. -/
  native : NativeProfile
  /-- The identity that `start_thread` returns. -/
  threadId : String
  /-- The Git authority before the turn. -/
  gitBefore : Sha256
  turn : Turn
deriving DecidableEq

namespace Controller

variable (host : Host) (key : ExecutionKey)

/-- Code outside the ledger returns or raises. -/
def check : Controller Unit := do
  if ← next then pure () else fail .raised

def require (holds : Prop) [Decidable holds] (failure : ControllerFailure) : Controller Unit :=
  if holds then pure () else fail failure

def read {α : Type} (query : ExecutionLedger → Checked α) : Controller α := do
  let w ← world
  lift ((query w.ledger).mapError .ledger)

def getMilestone : Controller MilestoneRows := read (·.getMilestone key)

def getExecution : Controller Execution := do
  let m ← getMilestone key
  lift ((m.getExecution key).mapError .ledger)

def getIntegrity : Controller ExecutionIntegrity := do
  let m ← getMilestone key
  lift ((m.getIntegrity key).mapError .ledger)

def getAppNative : Controller AppNativeDispatch := do
  let m ← getMilestone key
  lift ((m.getAppNative key).mapError .ledger)

def transact (op : Op) : Controller Unit := do
  check
  let L ← read (·.perform host op)
  update fun w => { w with ledger := L }

/-- A call of the SDK. It is made whether or not it returns. -/
def cross (call : SdkCall) : Controller Unit := do
  update fun w =>
    { w with crossings := w.crossings ++ [⟨key, call, w.ledger.milestones.get? key⟩] }
  check

/-! ### Parts of the calls -/

/-- `_load_durable_capsule` -/
def loadDurableCapsule (e : Execution) : Controller ExecutionCapsule := do
  check
  match host.capsuleOf e.capsuleSha256 with
  | none => fail (.controllerError "durable capsule identity or digest changed")
  | some c => do
    require (c.key = key) (.controllerError "durable capsule identity or digest changed")
    pure c

/-- `_authorize_external_call` -/
def authorizeExternalCall (c : ExecutionCapsule) : Controller Unit := do
  -- the plugins
  check
  let e ← getExecution key
  require (e.workspacePath = c.workspacePath)
    (.controllerError "durable execution workspace changed before external call")
  let w ← world
  require (w.ledger.leases.get? c.workspacePath = some c.lease)
    (.controllerError "durable workspace lease authority changed before external call")
  let _ ← getIntegrity key
  -- the predecessors, and the workspace against its durable baseline
  check

/-- `_finish_terminal` -/
def finishTerminal (e : Execution) : Controller Unit := do
  let m ← getMilestone key
  let target := if e.status = .completed then .completed else .failed
  if m.state = .running then transact host (.call key (.transition target .running))
  else require (m.state = target) (.controllerError
    (s!"terminal execution status {e.status.value} conflicts with milestone state "
      ++ m.state.value))
  check

/-- `_execute_turn_and_finish` from the durable turn on. -/
def finishExecution (state : ControllerStateOutcome) (o : Observations) : Controller Unit := do
  check
  let e ← getExecution key
  let i ← getIntegrity key
  transact host (.call key (.recordTerminalExecution (finish e i state o)))
  check

def rejectTurn (failure : ControllerFailure) : Controller Unit := do
  transact host (.call key .rejectTurnAuthorization)
  fail failure

/-- The part of `_execute_turn_and_finish` that calls the SDK. -/
def callTurn (c : ExecutionCapsule) (env : Surroundings) : Controller Unit := do
  authorizeExternalCall key c
  check
  transact host (.call key (.recordGitAuthorityBefore env.gitBefore))
  transact host (.call key .recordTurnStarting)
  -- the snapshot of the controller's files: the marker stays when it raises
  check
  rescue (authorizeExternalCall key c) (rejectTurn host key)
  check
  cross key .runTurn
  transact host (.call key (.recordTurn env.turn.turn))
  check

/-- `_execute_turn_and_finish` -/
def executeTurnAndFinish (c : ExecutionCapsule) (env : Surroundings) : Controller Unit := do
  let e ← getExecution key
  require e.threadId.isSome (.controllerError "cannot execute without a durable SDK identity")
  require (¬ (e.turnId = none ∧ e.turnOutput = some turnStartingMarker)) (.uncertainTurn
    "SDK turn crossed the external-call boundary without a durable response")
  let _ ← getIntegrity key
  if e.turnId.isSome then finishExecution host key .unchanged env.turn.observations
  else do
    callTurn host key c env
    finishExecution host key env.turn.state env.turn.observations

/-! ### Start -/

def startUncertain : Controller Unit := do
  transact host (.call key .recordPreIdentityUncertainty)
  fail (.uncertainPreIdentity
    "SDK start failed before durable identity; automatic retry is forbidden")

def rejectThreadStart (failure : ControllerFailure) : Controller Unit := do
  transact host (.call key .rejectThreadStartAuthorization)
  fail failure

/-- The part of `_start` between the dispatch claim and the thread identity. -/
def callThreadStart (c : ExecutionCapsule) (threadId : String) : Controller Unit := do
  transact host (.call key .claimExecutor)
  transact host (.call key .recordThreadStarting)
  rescue check fun _ => startUncertain host key
  rescue (do
    check
    authorizeExternalCall key c) (rejectThreadStart host key)
  -- the bundled skill input
  rescue check (rejectThreadStart host key)
  rescue (cross key .startThread) fun _ => startUncertain host key
  transact host (.call key (.recordThreadIdentity threadId))

/-- The native profile with the baseline that is durable, or captured now. -/
def bindBaseline (c : ExecutionCapsule) (e : Execution) (env : Surroundings) :
    Controller NativeProfile :=
  if e.checkpoint = .workspaceBaselineDurable then do
    let i ← getIntegrity key
    authorizeExternalCall key c
    pure { env.native with
      baselineHead := i.baselineHead, baseline := i.baseline, gitBefore := i.gitBefore }
  else do
    check
    transact host (.acquireWorkspaceLease c)
    check
    pure env.native

/-- `_start` of a planned execution whose thread start is not marked. -/
def startThread (c : ExecutionCapsule) (e : Execution) (env : Surroundings) :
    Controller Unit := do
  check
  let native ← bindBaseline host key c e env
  check
  transact host (.acquireWorkspaceLease c)
  check
  transact host (.call key (.recordNativeProfile native))
  check
  authorizeExternalCall key c
  check
  callThreadStart host key c env.threadId
  check
  executeTurnAndFinish host key c env

/-- `_start` -/
def start (env : Surroundings) : Controller Unit := do
  let e ← getExecution key
  let c ← loadDurableCapsule host key e
  match e.status with
  | .threadStarted =>
    fail (.resumeRequired "execution already has a durable SDK identity; use resume")
  | .completed | .failed => finishTerminal host key e
  | .cancelled | .uncertainPreIdentity => pure ()
  | .planned =>
    if e.checkpoint = .threadStarting then do
      transact host (.call key .recordPreIdentityUncertainty)
      fail (.uncertainPreIdentity "prior SDK start crossed the durable external-call boundary")
    else startThread host key c e env

/-! ### Resume -/

/-- The conflicts of the rebind that `_resume` names. -/
def unsafeResume : ControllerFailure → ControllerFailure
  | .ledger (.nativeCompatibilityConflict message) => .unsafeResumeCompatibilityChange message
  | .ledger (.nativePermissionConflict message) => .unsafeResumePermissionChange message
  | failure => failure

/-- The call of `rebind_native_profile_for_resume`. -/
def rebindNative (native : NativeProfile) : Call :=
  .rebindNativeProfileForResume native.nativeProfileSha256 native.nativeCompatibilitySha256
    native.effectivePermission

/-- `_resume` of an execution with a thread identity. -/
def resumeThread (e : Execution) (env : Surroundings) : Controller Unit := do
  let c ← loadDurableCapsule host key e
  check
  let _ ← getIntegrity key
  check
  rescue (transact host (.call key (rebindNative env.native)))
    fun failure => fail (unsafeResume failure)
  check
  if e.turnId.isSome then executeTurnAndFinish host key c env
  else if e.turnOutput = some turnStartingMarker then
    fail (.uncertainTurn "SDK turn crossed the external-call boundary without a durable response")
  else do
    check
    authorizeExternalCall key c
    check
    authorizeExternalCall key c
    -- the skill input, and the thread that the SDK resumes
    check
    executeTurnAndFinish host key c env

/-- `_resume` -/
def resume (env : Surroundings) : Controller Unit := do
  let e ← getExecution key
  match e.status with
  | .completed | .failed => finishTerminal host key e
  | .cancelled => pure ()
  | .uncertainPreIdentity =>
    fail (.uncertainPreIdentity "execution has uncertain pre-identity transport state")
  | .planned | .threadStarted => do
    require e.threadId.isSome
      (.controllerError "execution has no durable SDK identity; use start")
    resumeThread host key e env

/-! ### The other calls -/

/-- `_plan`; a milestone's row is created before its capsule is written. -/
def plan (p : ExecutionPlan) : Controller Unit := do
  check
  let w ← world
  match w.ledger.execution? p.capsule.key with
  | some e => do
    require (e.capsulePath = p.capsulePath ∧ e.capsuleSha256 = p.capsuleSha256 ∧
        e.protectedBefore = p.protectedBefore)
      (.controllerError "execution is already planned with different durable facts")
    check
  | none => do
    transact host (.createMilestone p.capsule.key)
    check
    transact host (.planExecution p)

/-- `_cancel` -/
def cancel (queueRefuses : Bool) : Controller Unit := do
  let e ← getExecution key
  if e.status.isTerminal then pure ()
  else transact host (.call key (.cancelExecution queueRefuses))

/-- What `prepare_app_native` draws and captures. -/
structure AppNativeCapture where
  claimToken : String
  bindChallenge : String
  prompt : String
  outputSchema : String
  baselineHead : GitSha
  baseline : WorkspaceBaseline
  gitBefore : Sha256
  controllerState : Sha256
deriving DecidableEq

def AppNativeCapture.preparation (capture : AppNativeCapture) (c : ExecutionCapsule) :
    AppNativePreparation where
  action :=
    { claimToken := capture.claimToken
      bindChallenge := capture.bindChallenge
      model := c.model
      reasoningEffort := c.reasoningEffort
      workspacePath := c.workspacePath
      prompt := capture.prompt
      outputSchema := capture.outputSchema }
  baselineHead := capture.baselineHead
  baseline := capture.baseline
  gitBefore := capture.gitBefore
  controllerState := capture.controllerState

/-- `prepare_app_native` -/
def prepareAppNative (capture : AppNativeCapture) : Controller Unit := do
  let m ← getMilestone key
  let e ← getExecution key
  if m.appNative.isSome then pure ()
  else do
    require (e.status = .planned)
      (.controllerError "App-native prepare cannot replace an SDK-headless execution")
    let c ← loadDurableCapsule host key e
    check
    require (c.workspaceMode ≠ .managedWorktree)
      (.controllerError "App-native dispatch requires an already selected existing checkout")
    -- the output contract, the worktree, its history and its scope
    check
    transact host (.acquireWorkspaceLease c)
    check
    transact host (.call key (.prepareAppNative (capture.preparation c)))

/-- `bind_app_native` -/
def bindAppNative (claimToken : String) (receipt : HostReceipt) : Controller Unit :=
  transact host (.call key (.bindAppNative claimToken receipt))

/-- `complete_app_native` -/
def completeAppNative (claimToken : String) (identity : HostIdentity)
    (state : ControllerStateOutcome) (o : Observations) (result : ModelFacingResult) :
    Controller Unit := do
  let a ← getAppNative key
  require (a.action.claimToken = claimToken)
    (.controllerError "App-native result capability does not match its prepared action")
  require (a.state ≠ .cancelled)
    (.controllerError "cancelled App-native dispatch rejects late native results")
  require (a.identity = some identity)
    (.controllerError "App-native result does not match the bound host identity")
  match a.result with
  | some durable =>
    require (durable = result)
      (.controllerError "App-native dispatch already owns a different terminal result")
  | none => do
    let e ← getExecution key
    let _ ← loadDurableCapsule host key e
    check
    match a.finish e state o result with
    | none => fail .raised
    | some f => do
      transact host (.call key (.recordAppNativeResult claimToken identity f))
      check

end Controller

/-! ### Runs -/

inductive Request where
  | plan (p : ExecutionPlan)
  | start (key : ExecutionKey) (env : Surroundings)
  | resume (key : ExecutionKey) (env : Surroundings)
  | cancel (key : ExecutionKey) (queueRefuses : Bool)
  | prepareAppNative (key : ExecutionKey) (capture : Controller.AppNativeCapture)
  | bindAppNative (key : ExecutionKey) (claimToken : String) (receipt : HostReceipt)
  | completeAppNative (key : ExecutionKey) (claimToken : String) (identity : HostIdentity)
    (state : ControllerStateOutcome) (o : Observations) (result : ModelFacingResult)
deriving DecidableEq

def Request.perform (host : Host) : Request → Controller Unit
  | .plan p => Controller.plan host p
  | .start key env => Controller.start host key env
  | .resume key env => Controller.resume host key env
  | .cancel key queueRefuses => Controller.cancel host key queueRefuses
  | .prepareAppNative key capture => Controller.prepareAppNative host key capture
  | .bindAppNative key claimToken receipt => Controller.bindAppNative host key claimToken receipt
  | .completeAppNative key claimToken identity state o result =>
    Controller.completeAppNative host key claimToken identity state o result

namespace World

variable (host : Host)

/-- One call with the script of its course. -/
def next (w : World) (step : Request × List Bool) : World :=
  ((step.1.perform host).run w step.2).2

def after (steps : List (Request × List Bool)) : World := Machine.run (next host) {} steps

def crossed (w : World) (key : ExecutionKey) (call : SdkCall) : ℕ :=
  w.crossings.countP fun crossing => crossing.key = key && crossing.call = call

end World

end CodexFlow.Executions
