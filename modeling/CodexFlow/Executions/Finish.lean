import CodexFlow.Executions.Steps

/-!
# From a result to a verdict

What the controller makes of a worker's result: the direct route reads the durable turn, observes
the workspace and records a terminal execution; the App-native route takes a typed result, observes
the same workspace and records it. Both observe once, and a failed observation fails the execution.
-/

namespace CodexFlow.Executions

open Checked

/-! ### Observations -/

/-- What `_assert_workspace_history` and `_assert_mutation_scope` come to. -/
inductive ScopeOutcome where
  | accepted
  /-- A `ControllerError` with its text. -/
  | refused (message : String)
  | raised
deriving DecidableEq

/-- The comparison of the controller's own files before and after the turn. -/
inductive ControllerStateOutcome where
  | unchanged
  | mutated
  | unreadable
deriving DecidableEq

/-- What the controller observes in the workspace once the worker has ended. -/
structure Observations where
  /-- `_run_validation` -/
  validation : ValidationObservation
  /-- `protected_paths_digest`; `none` raises. -/
  protectedAfter : Option Sha256
  scope : ScopeOutcome
  /-- `git_authority_snapshot`; `none` raises. -/
  gitAfter : Option Sha256
  /-- The head and the owned snapshot under the same Git authority; `none` raises. -/
  capture : Option (GitSha × WorkspaceBaseline)
deriving DecidableEq

/-- Every check of the workspace accepts. -/
def Observations.accepts (o : Observations) (protectedBefore gitBefore : Sha256)
    (state : ControllerStateOutcome) : Bool :=
  o.validation.passed && o.protectedAfter = some protectedBefore && o.scope = .accepted &&
    state = .unchanged && o.gitAfter = some gitBefore && o.capture.isSome

/-- A validation that an integrity check overrules: exit 125 where it had passed. -/
def ValidationObservation.overruled (v : ValidationObservation)
    (code : Option ValidationFailureCode)
    (h : v.timedOut = true → code ∈ [none, some .timeout, some .integrityFailure]) :
    ValidationObservation :=
  { v with
    exitCode := if v.exitCode ≠ 0 then v.exitCode else 125
    errorCode := code
    success := by
      intro zero
      split_ifs at zero with failed
      · exact absurd zero failed
      · cases zero
    timeout := h }

def ValidationObservation.integrityFailed (v : ValidationObservation) : ValidationObservation :=
  v.overruled (some .integrityFailure) fun _ => by decide

/-- A validation under which no terminal workspace could be captured. -/
def ValidationObservation.captureFailed (v : ValidationObservation) : ValidationObservation :=
  { v with
    exitCode := 125
    errorCode := some .integrityFailure
    success := nofun
    timeout := fun _ => by decide }

/-! ### The direct route -/

/-- `{"status": "failed", "reason": reason}` -/
def failedResult (reason : String) : JsonObject :=
  ⟨some "failed", "\"reason\":\"" ++ reason ++ "\""⟩

/-- The result before the integrity checks. -/
def turnResult (turnOutput : JsonObject) (v : ValidationObservation) : JsonObject :=
  match v.errorCode with
  | some .executableUnavailable => failedResult "validation_executable_unavailable"
  | some .nonzeroExit => failedResult "validation_failed"
  | some .timeout => failedResult "validation_timeout"
  | some .integrityFailure | none =>
    if turnOutput.outcomeFailed then failedResult "sdk_terminal_outcome_failed" else turnOutput

/-- The texts of a refused scope that name the branch or the history. -/
def historyPrefixes : List String :=
  ["workspace branch", "workspace history", "unable to inspect Git workspace: symbolic-ref"]

def scopeReason : ScopeOutcome → String
  | .raised => "workspace_integrity_failure"
  | .refused message =>
    if message = "workspace_integrity_failure" then "workspace_integrity_failure"
    else if historyPrefixes.any (message.startsWith ·) then "branch_or_history_changed"
    else "mutation_outside_owned_paths"
  | .accepted => "mutation_outside_owned_paths"

section Direct

variable (e : Execution) (i : ExecutionIntegrity) (state : ControllerStateOutcome)
  (o : Observations)

/-- `protected_after`, with the digest of the plan where it could not be read. -/
def protectedAfter : Sha256 := o.protectedAfter.getD e.protectedBefore

/-- `git_after_sha256` -/
def gitAfter : Sha256 := o.gitAfter.getD i.gitBefore

/-- An integrity check fails, besides one that could not read the protected paths. -/
def integrityBroken : Bool :=
  protectedAfter e o ≠ e.protectedBefore || o.scope ≠ .accepted || state ≠ .unchanged ||
    o.gitAfter.isNone || gitAfter i o ≠ i.gitBefore

def scopeOnly : Bool :=
  state = .unchanged && protectedAfter e o = e.protectedBefore && o.gitAfter.isSome &&
    gitAfter i o = i.gitBefore

/-- The reason of a failed integrity check, the first that applies. -/
def integrityReason : String :=
  if protectedAfter e o ≠ e.protectedBefore then "protected_paths_changed"
  else if state ≠ .unchanged then "controller_state_mutated"
  else if o.scope ≠ .accepted then scopeReason o.scope
  else if o.gitAfter.isNone then "git_authority_integrity_failure"
  else "git_authority_changed"

def checkedResult : ValidationObservation × JsonObject :=
  if o.protectedAfter.isNone then
    (o.validation.integrityFailed, failedResult "protected_paths_integrity_failure")
  else if integrityBroken e i state o then
    (if scopeOnly e i state o then o.validation.overruled o.validation.errorCode o.validation.timeout
      else o.validation.integrityFailed,
      failedResult (integrityReason e state o))
  else (o.validation, turnResult (e.turnOutput.getD .empty) o.validation)

/-- `_execute_turn_and_finish` from the durable turn to the terminal write. -/
def finish : TerminalFacts :=
  let (validation, result) := checkedResult e i state o
  let facts := fun validation result terminal =>
    { result, validation, protectedAfter := protectedAfter e o, gitAfter := gitAfter i o, terminal }
  if validation.passed && !result.outcomeFailed then
    match o.capture with
    | some captured => facts validation result (some captured)
    | none => facts validation.captureFailed (failedResult "workspace_integrity_failure") none
  else facts validation result none

end Direct

/-- The terminal write of the direct route, from the rows of the ledger. -/
def ExecutionLedger.finishTurn (host : Host) (L : ExecutionLedger) (key : ExecutionKey)
    (state : ControllerStateOutcome) (o : Observations) : ExecutionLedger :=
  match L.execution? key, (L.milestones.get? key).bind (·.integrity) with
  | some e, some i => L.next host (.call key (.recordTerminalExecution (finish e i state o)))
  | _, _ => L

/-! ### The App-native route -/

/-- The integrity checks of `complete_app_native`, in one `try`. -/
def AppNativeDispatch.intact (a : AppNativeDispatch) (e : Execution)
    (state : ControllerStateOutcome) (o : Observations) : Bool :=
  o.protectedAfter = some e.protectedBefore && o.scope = .accepted &&
    o.gitAfter = some a.gitBefore && state = .unchanged

/-- The facts of a host result; `none` when the capture of the terminal workspace raises. -/
def AppNativeDispatch.finish (a : AppNativeDispatch) (e : Execution)
    (state : ControllerStateOutcome) (o : Observations) (result : ModelFacingResult) :
    Option AppNativeFacts :=
  let validation := if a.intact e state o then o.validation else o.validation.integrityFailed
  let facts := fun terminal =>
    { result, validation, protectedAfter := e.protectedBefore, gitAfter := a.gitBefore, terminal }
  if result.passes validation then o.capture.map fun captured => facts (some captured)
  else some (facts none)

/-- `complete_app_native`; a call that raises leaves the ledger as it is. -/
def ExecutionLedger.completeAppNative (host : Host) (L : ExecutionLedger) (key : ExecutionKey)
    (claimToken : String) (identity : HostIdentity) (state : ControllerStateOutcome)
    (o : Observations) (result : ModelFacingResult) : ExecutionLedger :=
  match L.execution? key, (L.milestones.get? key).bind (·.appNative) with
  | some e, some a =>
    if a.action.claimToken = claimToken ∧ a.state ≠ .cancelled ∧ a.identity = some identity ∧
        a.result = none then
      match a.finish e state o result with
      | some f => L.next host (.call key (.recordAppNativeResult claimToken identity f))
      | none => L
    else L
  | _, _ => L

end CodexFlow.Executions
