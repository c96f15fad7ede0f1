import CodexFlow.Ledger.Types

/-!
# Controller decisions and their action bundles

What a controller may ask for: the identity of a decision, the closed set of actions, and the
bundles that carry them, together with the code that the ledger calls. Of a program bundle the
actions are kept as their text, because their effects are those of the program tables.
-/

namespace CodexFlow.Ledger

structure ProgramEvent where
  programId : String
  eventKind : ProgramEventKind
  eventKey : String
deriving DecidableEq

/-- A decision identity: `decision/wake/...` of a dispatch or `decision/program/...`. -/
inductive DecisionKey where
  | dispatch (dispatchId : DispatchId) (kind : WakeKind) (cycleSequence : ℕ)
  | program (event : ProgramEvent)
deriving DecidableEq

/-! ### Actions -/

/-- Absolute retry ceilings requested by an authorized action. -/
structure RetryBudgetChange where
  preIdentityBudget : ℕ
  invalidChainBudget : ℕ
  schemaEnvelopeBudget : ℕ
  postIdentityLossBudget : ℕ
  providerTransientBudget : Option ℕ := none
deriving DecidableEq

def RetryBudgetChange.isWithinCeilings (b : RetryBudgetChange) : Bool :=
  b.preIdentityBudget ≤ 5 && b.invalidChainBudget ≤ 1 && b.schemaEnvelopeBudget ≤ 2 &&
    b.postIdentityLossBudget ≤ 1 && b.providerTransientBudget.all (· ≤ 4)

/-- The recovery facts of a controller action. -/
structure ControllerControl where
  dispatchId : DispatchId
  actionId : String
  expectedRetryRevision : ℕ
  reason : Option String := none
deriving DecidableEq

inductive ControllerAction where
  | acknowledgeOnly
  | requireHumanAttention (reason : String)
  | rearmCheckpoint (checkpointSeconds : ℕ)
  | changeRetryBudget (control : ControllerControl) (change : RetryBudgetChange)
  | retryDispatch (control : ControllerControl)
  | cancelDispatch (control : ControllerControl)
deriving DecidableEq

namespace ControllerAction

def kind : ControllerAction → ControllerActionKind
  | acknowledgeOnly => .acknowledgeOnly
  | requireHumanAttention _ => .requireHumanAttention
  | rearmCheckpoint _ => .rearmCheckpoint
  | changeRetryBudget .. => .changeRetryBudget
  | retryDispatch _ => .retryDispatch
  | cancelDispatch _ => .cancelDispatch

/-- The recovery actions. -/
def control : ControllerAction → Option ControllerControl
  | changeRetryBudget control _ => some control
  | retryDispatch control => some control
  | cancelDispatch control => some control
  | _ => none

def isInert : ControllerAction → Bool
  | acknowledgeOnly => true
  | _ => false

/-- `from_json` reads the action back: no reason on a recovery action, and a budget of the four
classes. -/
def hasWireShape : ControllerAction → Bool
  | changeRetryBudget control change =>
    control.reason.isNone && change.providerTransientBudget.isNone
  | retryDispatch control => control.reason.isNone
  | cancelDispatch control => control.reason.isNone
  | _ => true

end ControllerAction

/-! ### Bundles -/

/-- `ModelFacingControllerActionBundle` -/
structure ControllerActionBundle where
  decisionId : DecisionKey
  generation : ℕ
  actionId : String
  expectedRevision : ℕ
  expectedSuccessorDispatchIds : List DispatchId
  actions : List ControllerAction
  rationale : String
deriving DecidableEq

/-- `ModelFacingProgramControllerActionBundle` -/
structure ProgramActionBundle where
  decisionId : DecisionKey
  programId : String
  planDigest : String
  generation : ℕ
  eventKind : ProgramEventKind
  eventKey : String
  expectedProgramRevision : ℕ
  expectedTrunkHead : String
  actionsJson : String
  rationale : String
deriving DecidableEq

inductive ActionBundle where
  | dispatch (bundle : ControllerActionBundle)
  | program (bundle : ProgramActionBundle)
deriving DecidableEq

namespace ActionBundle

def decisionId : ActionBundle → DecisionKey
  | dispatch b => b.decisionId
  | program b => b.decisionId

def generation : ActionBundle → ℕ
  | dispatch b => b.generation
  | program b => b.generation

/-- The revision a bundle was made for: of its decision, or of its program. -/
def revision : ActionBundle → ℕ
  | dispatch b => b.expectedRevision
  | program b => b.expectedProgramRevision

/-- A stored bundle of this kind is read back by `from_json_bytes`. -/
def hasWireShape : ActionBundle → Bool
  | dispatch b => b.actions.all (·.hasWireShape)
  | program _ => true

end ActionBundle

/-- The facts that bind a completed inspection to the model claim it was made under. -/
structure ClaimantAudit where
  decisionId : DecisionKey
  generation : ℕ
  revision : ℕ
  claimantKind : ControllerClaimantKind
  claimantId : String
  claimTokenSha256 : String
  claimStartedAt : Time
deriving DecidableEq

/-! ### Code outside the tables -/

/-- What the ledger calls and does not decide itself: the hash, the digest of the retired result
contract, the blanks of `str.isspace`, the result parsers with the terminal status they yield, the
redaction of reasons and of diagnostics, the jitter of a backoff, and the canonical JSON of a bundle
and of the facts that audit a claimant. -/
structure Env where
  sha256 : String → String
  legacyResultContract : String
  isSpace : Char → Bool
  parseQueueResult : String → String → Except LedgerError String
  redactControlText : String → String
  redactDiagnosticText : String → String
  jitter : DispatchId → ℕ → ℕ
  bundleJson : ActionBundle → String
  claimantAuditJson : ClaimantAudit → String

namespace Env

variable (env : Env) (text : String)

/-- Only blanks, so that `text.strip()` is empty. -/
def isBlank : Bool := text.toList.all env.isSpace

/-- A reason of at most 512 bytes that is not blank and has no NUL. -/
def isReason : Bool :=
  !env.isBlank text && text.utf8ByteSize ≤ 512 && !text.toList.contains '\x00'

/-- A command identity: at most 256 bytes without blanks and control characters. -/
def isCommandId : Bool :=
  !env.isBlank text && text.utf8ByteSize ≤ 256 &&
    text.toList.all fun c => !env.isSpace c && 0x20 ≤ c.toNat

def isThreadIdentity : Bool :=
  text ≠ "" && text.utf8ByteSize ≤ 512 && text.toList.all fun c => !env.isSpace c && c ≠ '\x00'

def isTurnIdentity : Bool :=
  text ≠ "" && text.length ≤ 512 && text.toList.all fun c => !env.isSpace c

/-- A text that is not blank, has at most `limit` characters and no NUL. -/
def isText (limit : ℕ) : Bool :=
  !env.isBlank text && text.length ≤ limit && !text.toList.contains '\x00'

/-- `bundle.sha256` -/
def bundleSha256 (bundle : ActionBundle) : String := env.sha256 (env.bundleJson bundle)

end Env

/-- `min(300, 2 ** (used - 1) + jitter)` seconds after `now`. -/
def Env.backoff (env : Env) (dispatchId : DispatchId) (now : Time) (used : ℕ) : Time :=
  now + min (seconds 300) (seconds (2 ^ (used - 1)) + env.jitter dispatchId used)

/-- `action_id`; that of a program bundle is its digest. -/
def ActionBundle.actionId (env : Env) : ActionBundle → String
  | dispatch b => b.actionId
  | program b => "program-action/" ++ env.bundleSha256 (.program b)

/-! ### What the constructors accept -/

open Checked

def ControllerControl.check (env : Env) (c : ControllerControl) : Checked Unit := do
  ensure (env.isText c.actionId 256) (.valueError "controller action id must be a bounded non-empty string")
  ensure (c.reason.all (env.isText · 512))
    (.valueError "controller action reason must be a bounded non-empty string")

def ControllerAction.check (env : Env) : ControllerAction → Checked Unit
  | acknowledgeOnly => pure ()
  | requireHumanAttention reason =>
    ensure (env.isText reason 512)
      (.valueError "controller action reason must be a bounded non-empty string")
  | rearmCheckpoint checkpointSeconds =>
    ensure (1 ≤ checkpointSeconds ∧ checkpointSeconds ≤ 86400)
      (.valueError "controller checkpoint duration is invalid")
  | changeRetryBudget control _ => control.check env
  | retryDispatch control => control.check env
  | cancelDispatch control => control.check env

def checkAll (env : Env) : List ControllerAction → Checked Unit
  | [] => pure ()
  | action :: actions => do
    action.check env
    checkAll env actions

/-- The recovery actions exclude one another. -/
def ControllerActionKind.isRecovery (kind : ControllerActionKind) : Bool :=
  kind ∈ [.retryDispatch, .cancelDispatch, .changeRetryBudget]

def ControllerActionBundle.check (env : Env) (b : ControllerActionBundle) : Checked Unit := do
  let kinds := b.actions.map (·.kind)
  checkAll env b.actions
  ensure (env.isText b.actionId 256)
    (.valueError "controller bundle action id must be a bounded non-empty string")
  ensure (b.expectedSuccessorDispatchIds.length ≤ 128 ∧ b.expectedSuccessorDispatchIds.Nodup)
    (.valueError "controller successor snapshot is invalid")
  ensure (1 ≤ b.actions.length ∧ b.actions.length ≤ 8)
    (.valueError "controller bundle must contain one to eight typed actions")
  ensure kinds.Nodup (.valueError "controller action kinds must be unique")
  ensure (.acknowledgeOnly ∈ kinds → b.actions.length = 1)
    (.valueError "acknowledge_only is exclusive")
  ensure (¬(.rearmCheckpoint ∈ kinds ∧ (.cancelDispatch ∈ kinds ∨ .requireHumanAttention ∈ kinds)))
    (.valueError "checkpoint re-arm conflicts with cancellation or attention")
  ensure (.requireHumanAttention ∈ kinds → b.actions.length = 1)
    (.valueError "human-attention action is exclusive")
  ensure ((kinds.filter (·.isRecovery)).length ≤ 1)
    (.valueError "controller recovery actions are mutually exclusive")
  ensure (env.isText b.rationale 4096)
    (.valueError "controller bundle rationale must be a bounded non-empty string")
  ensure ((env.bundleJson (.dispatch b)).utf8ByteSize ≤ 32 * 1024)
    (.valueError "controller action bundle exceeds its byte limit")

end CodexFlow.Ledger
