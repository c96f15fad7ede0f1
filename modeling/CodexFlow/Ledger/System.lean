import CodexFlow.Ledger.Controller
import CodexFlow.Ledger.ProgramDecisions
import CodexFlow.Lib.Run

/-!
# The ledger as a machine

Every operation runs in one transaction: the rows are validated, the body runs, and the rows are
validated again. Whatever raises rolls the transaction back.
-/

namespace CodexFlow.Ledger

open Checked

/-- A call of the ledger. The clock readings and what other tables say of a dispatch are inputs. -/
inductive Op where
  | enqueue (dispatchId : DispatchId) (request : DispatchRequest) (now : Time)
  | acquireHarness (ownerNonceSha256 : String) (lease : ℕ) (now : Time)
  | renewHarness (epoch : ℕ) (ownerNonceSha256 : String) (lease : ℕ) (now : Time)
  | requestHarnessShutdown (epoch : ℕ) (ownerNonceSha256 : String)
  | claim (epoch : ℕ) (claimNonceSha256 : String)
      (program executionCancelled : DispatchId → Bool) (now : Time)
  | setState (dispatchId : DispatchId) (state : QueueState) (epoch : Option ℕ) (now : Time)
  | cancel (dispatchId : DispatchId) (epoch : Option ℕ) (now : Time)
  | acknowledgeCancellationExit (dispatchId : DispatchId) (actionId : String) (pid : ℕ)
      (processBirthIdentity : String) (exitCode : Option ℤ) (now : Time)
  | recover (dispatchId : DispatchId) (newEpoch : ℕ) (preserveThreadId : Bool) (now : Time)
  | issueCapability (dispatchId : DispatchId) (request : CapabilityRequest) (now : Time)
  | bindLiveness (dispatchId : DispatchId) (epoch generation attempt : ℕ) (process : WorkerProcess)
      (leaseTokenSha256 : String) (lease : ℕ) (now : Time)
  | bindThread (dispatchId : DispatchId) (epoch generation attempt : ℕ) (token threadId : String)
      (now : Time)
  | renewLiveness (dispatchId : DispatchId) (generation attempt : ℕ) (token : String) (lease : ℕ)
      (epoch : Option ℕ) (now : Time)
  | adopt (dispatchId : DispatchId) (newEpoch : ℕ) (process : WorkerProcess)
      (claimNonceSha256 : String) (now : Time)
  | exit (dispatchId : DispatchId) (process : WorkerProcess) (exit : WorkerExit) (now : Time)
  | retryFailure (dispatchId : DispatchId) (failure : RetryFailureClass) (evidence : RetryEvidence)
      (now : Time)
  | retryDispatch (dispatchId : DispatchId) (expectedStrategy : RecoveryStrategy)
      (expectedState : QueueState) (reason : String) (now : Time)
  | configureRecovery (dispatchId : DispatchId) (config : RecoveryConfiguration) (now : Time)
  | inspection (dispatchId : DispatchId) (inspection : Inspection) (now : Time)
  | beginInspection (dispatchId : DispatchId) (epoch : ℕ) (current now : Time)
  | requireAttention (dispatchId : DispatchId) (reason : String)
      (failure : Option RetryFailureClass) (now : Time)
  | beginContinuation (dispatchId : DispatchId) (epoch : ℕ) (claimNonceSha256 : String)
      (program : DispatchId → Bool) (current now : Time)
  | action (dispatchId : DispatchId) (action : RecoveryAction) (activeTurn : Bool) (now : Time)
  | submit (dispatchId : DispatchId) (submission : Submission) (now : Time)
  | captureIntegrity (dispatchId : DispatchId) (completed : Bool)
      (capture : Option TerminalCapture) (allowInsert : Bool) (now : Time)
  | finalize (dispatchId : DispatchId) (request : FinalizeRequest) (now : Time)
  | commit (dispatchId : DispatchId) (submission : Submission) (now : Time)
  | commitRetained (dispatchId : DispatchId) (submission : Submission) (now : Time)
  | ingest (dispatchId : DispatchId) (rawResult : String) (now : Time)
  | authorizeSuccessor (source successor : DispatchId) (now : Time)
  | claimCheckpoint (epoch : ℕ) (current now : Time)
  | rearmCheckpoint (dispatchId : DispatchId) (duration : ℕ) (now : Time)
  | decision (dispatchId : DispatchId) (kind : WakeKind) (cycle : ℕ) (op : DecisionOp) (now : Time)
  | programDecision (event : ProgramEvent) (capable : Bool) (op : DecisionOp) (now : Time)
  | controllerActions (request : SubmitRequest) (now : Time)
  | openDecision (dispatchId : DispatchId) (request : OpenRequest) (now : Time)
  | replan (dispatchId : DispatchId) (kind : WakeKind) (cycle expectedRevision : ℕ)
      (reason : String) (now : Time)
  | reconcileInflightWakes (now : Time)
  | reconcileExhaustedWakes (now : Time)
  | refreshProfile (request : ProfileRefresh) (now : Time)
  | programEvent (event : ProgramEvent) (facts : ProgramFacts) (deadline : Option Time)
      (now : Time)
  | reconcileStaleDecisions (facts : String → ProgramFacts) (isOpen : String → Bool) (now : Time)
  | claimProgramDecision (event : ProgramEvent) (request : ClaimRequest) (facts : ProgramFacts)
      (minted : String) (now : Time)
  | programActions (event : ProgramEvent) (request : ProgramSubmitRequest) (facts : ProgramFacts)
      (effects : Checked Unit) (now : Time)
  | programEffect (event : ProgramEvent) (outcome : EffectOutcome) (facts : ProgramFacts)
      (now : Time)
  | armRefreshFence (starts : Checked Unit) (now : Time)
  | notificationAttempt (dispatchId : DispatchId) (sourceTask : Option String)
      (outcome : NotificationOutcome) (now : Time)

/-- The checks of an operation's arguments and the body of its transaction. -/
def body (env : Env) (L : Ledger) : Op → Checked Ledger
  | .enqueue d request now => L.enqueueDispatch env d request now
  | .acquireHarness nonce lease now => L.acquireHarness nonce lease now
  | .renewHarness epoch nonce lease now => L.renewHarness epoch nonce lease now
  | .requestHarnessShutdown epoch nonce => L.requestHarnessShutdown epoch nonce
  | .claim epoch nonce program cancelled now => L.claimQueueDispatch epoch nonce program cancelled now
  | .setState d state epoch now => L.setQueueState d state epoch now
  | .cancel d epoch now => L.cancelQueueDispatch d epoch now
  | .acknowledgeCancellationExit d actionId pid birth code now =>
    L.acknowledgeWorkerCancellationExit env d actionId pid birth code now
  | .recover d epoch preserve now => L.recoverQueueDispatch d epoch preserve now
  | .issueCapability d request now => L.issueAttemptCapability d request now
  | .bindLiveness d epoch generation attempt process token lease now =>
    L.bindWorkerLiveness d epoch generation attempt process token lease now
  | .bindThread d epoch generation attempt token thread now =>
    L.bindWorkerThread env d epoch generation attempt token thread now
  | .renewLiveness d generation attempt token lease epoch now =>
    L.renewWorkerLiveness env d generation attempt token lease epoch now
  | .adopt d epoch process nonce now => L.adoptLiveWorker d epoch process nonce now
  | .exit d process exit now => L.markWorkerExit env d process exit now
  | .retryFailure d failure evidence now => L.recordRetryFailure env d failure evidence now
  | .retryDispatch d strategy state reason now => L.retryDispatch env d strategy state reason now
  | .configureRecovery d config now => L.configureRecovery d config now
  | .inspection d inspection now => L.recordRecoveryInspection env d inspection now
  | .beginInspection d epoch current now => L.beginRecoveryInspection d epoch current now
  | .requireAttention d reason failure now => L.markHumanAttentionRequired env d reason failure now
  | .beginContinuation d epoch nonce program current now =>
    L.beginRecoveryContinuation d epoch nonce program current now
  | .action d action activeTurn now => L.applyRecoveryAction env d action activeTurn now
  | .submit d submission now => L.submitQueueResult env d submission now
  | .captureIntegrity d completed capture allowInsert now =>
    L.captureDispatchTerminalIntegrity d completed capture allowInsert now
  | .finalize d request now => L.finalizeQueueResult d request now
  | .commit d submission now => L.commitQueueResult env d submission now
  | .commitRetained d submission now => L.commitRetainedQueueResult env d submission now
  | .ingest d raw now => L.ingestRecoveredResult env d raw now
  | .authorizeSuccessor source successor now => L.authorizeSuccessor source successor now
  | .claimCheckpoint epoch current now => (L.claimDueCheckpoint epoch current now).map Prod.fst
  | .rearmCheckpoint d duration now => L.rearmCheckpoint d duration now
  | .decision d kind cycle op now => L.onDispatchDecision env d kind cycle op now
  | .programDecision event capable op now => L.onProgramDecision env event capable op now
  | .controllerActions request now => L.submitControllerActions env request now
  | .openDecision d request now => L.createControllerDecision d request now
  | .replan d kind cycle revision reason now =>
    L.authorizeReplan env d kind cycle revision reason now
  | .reconcileInflightWakes now => pure (L.reconcileInflightWakes now)
  | .reconcileExhaustedWakes now => pure (L.reconcileExhaustedWakes now)
  | .refreshProfile request now => L.authorizeProfileRefresh request now
  | .programEvent event facts deadline now => L.recordProgramEvent event facts deadline now
  | .reconcileStaleDecisions facts isOpen now => L.reconcileStaleDecisions facts isOpen now
  | .claimProgramDecision event request facts minted now =>
    L.claimProgramDecision env event request facts minted now
  | .programActions event request facts effects now =>
    L.submitProgramActions env event request facts effects now
  | .programEffect event outcome facts now => L.recordProgramEffect event outcome facts now
  | .armRefreshFence starts now => L.armHarnessRefreshFence starts now
  | .notificationAttempt d task outcome now => L.recordNotificationAttempt d task outcome now

def rowsRejected : LedgerError := .corruptSchema "the rows fail validation"

/-- `_transaction`: what the body writes is kept when the rows are valid before and after. -/
def transaction {α : Type} (env : Env) (L : Ledger) (ledgerOf : α → Ledger) (run : Checked α) :
    Checked α := do
  ensure (L.Valid env) rowsRejected
  let result ← run
  ensure ((ledgerOf result).Valid env) rowsRejected
  pure result

def perform (env : Env) (L : Ledger) (op : Op) : Checked Ledger :=
  L.transaction env id (L.body env op)

/-- The ledger after a call: a call that raises leaves it as it was. -/
def next (env : Env) (L : Ledger) (op : Op) : Ledger := (L.perform env op).toOption.getD L

/-- The ledgers that some run of calls builds. -/
def Reachable (env : Env) (L : Ledger) : Prop := ∃ ops, L = Machine.run (next env) {} ops

end CodexFlow.Ledger
