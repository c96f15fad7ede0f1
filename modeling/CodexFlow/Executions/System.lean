import CodexFlow.Executions.Calls
import CodexFlow.Lib.Run

/-!
# Executions as a machine

The calls of both routes as the steps of one ledger. A transaction checks the rows before its body
and before its commit, and a refused call leaves the ledger as it is.
-/

namespace CodexFlow.Executions

open Checked
open Programs (WorkflowState)

/-- A call on the rows of one milestone. -/
inductive Call where
  | recordNativeProfile (p : NativeProfile)
  | rebindNativeProfileForResume (profile compatibility : Sha256)
    (candidate : NativePermissionAuthority)
  | claimExecutor
  | recordThreadStarting
  | recordPreIdentityUncertainty
  | rejectThreadStartAuthorization
  | recordThreadIdentity (threadId : String)
  | recordGitAuthorityBefore (authority : Sha256)
  | recordTurnStarting
  | rejectTurnAuthorization
  | recordTurn (o : TurnObservation)
  | recordTerminalExecution (f : TerminalFacts)
  | prepareAppNative (p : AppNativePreparation)
  | bindAppNative (claimToken : String) (receipt : HostReceipt)
  | recordAppNativeResult (claimToken : String) (identity : HostIdentity) (f : AppNativeFacts)
  | cancelExecution (queueRefuses : Bool)
  | transition (target expected : WorkflowState)
deriving DecidableEq

def MilestoneRows.call (host : Host) (leases : Table String WorkspaceLease) (key : ExecutionKey)
    (m : MilestoneRows) : Call → Checked MilestoneRows
  | .recordNativeProfile p => m.recordNativeProfile key p
  | .rebindNativeProfileForResume profile compatibility candidate =>
    m.rebindNativeProfileForResume key profile compatibility candidate
  | .claimExecutor => m.claimExecutor
  | .recordThreadStarting => m.recordThreadStarting key
  | .recordPreIdentityUncertainty => m.recordPreIdentityUncertainty key
  | .rejectThreadStartAuthorization => m.rejectThreadStartAuthorization key
  | .recordThreadIdentity threadId => m.recordThreadIdentity key threadId
  | .recordGitAuthorityBefore authority => m.recordGitAuthorityBefore key authority
  | .recordTurnStarting => m.recordTurnStarting key
  | .rejectTurnAuthorization => m.rejectTurnAuthorization key
  | .recordTurn o => m.recordTurn key o
  | .recordTerminalExecution f => m.recordTerminalExecution key f
  | .prepareAppNative p => m.prepareAppNative leases key p
  | .bindAppNative claimToken receipt => m.bindAppNative host key claimToken receipt
  | .recordAppNativeResult claimToken identity f =>
    m.recordAppNativeResult host key claimToken identity f
  | .cancelExecution queueRefuses => m.cancelExecution key queueRefuses
  | .transition target expected => m.transition target expected

inductive Op where
  | createMilestone (key : ExecutionKey)
  | planExecution (p : ExecutionPlan)
  | acquireWorkspaceLease (c : ExecutionCapsule)
  | call (key : ExecutionKey) (c : Call)
deriving DecidableEq

namespace ExecutionLedger

variable (host : Host) (L : ExecutionLedger)

def body : Op → Checked ExecutionLedger
  | .createMilestone key => pure (L.createMilestone key)
  | .planExecution p => L.onRows p.capsule.key (·.planExecution p)
  | .acquireWorkspaceLease c => L.acquireWorkspaceLease c
  | .call key c => L.onRows key (·.call host L.leases key c)

/-- `with self._transaction()` -/
def perform (op : Op) : Checked ExecutionLedger := do
  ensure (L.valid host) (.corruptSchema "execution rows are inconsistent")
  let L' ← L.body host op
  ensure (L'.valid host) (.corruptSchema "execution rows are inconsistent")
  pure L'

def next (op : Op) : ExecutionLedger :=
  match L.perform host op with
  | .ok L' => L'
  | .error _ => L

def after (ops : List Op) : ExecutionLedger := Machine.run (next host) {} ops

end ExecutionLedger

end CodexFlow.Executions
