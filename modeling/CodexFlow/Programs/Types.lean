import CodexFlow.Ledger.Types

/-!
# Values of a program

The enumerations and records that the rows and the lifecycle facts of a program are made of, with
the transition policy of a milestone and the scope of a blocker.
-/

namespace CodexFlow.Programs

open Ledger (Time LedgerError isGitSha isSha256)
open Checked

abbrev Checked (α : Type) := Ledger.Checked α

/-! ### Workflow states -/

inductive WorkflowState where
  | planned
  | starting
  | running
  | needsDecision
  | completed
  | reviewing
  | repairRequired
  | blocked
  | accepted
  | failed
  | cancelled
deriving DecidableEq

namespace WorkflowState

def value : WorkflowState → String
  | planned => "PLANNED"
  | starting => "STARTING"
  | running => "RUNNING"
  | needsDecision => "NEEDS_DECISION"
  | completed => "COMPLETED"
  | reviewing => "REVIEWING"
  | repairRequired => "REPAIR_REQUIRED"
  | blocked => "BLOCKED"
  | accepted => "ACCEPTED"
  | failed => "FAILED"
  | cancelled => "CANCELLED"

/-- `is_transition_allowed` -/
def isTransitionAllowed : WorkflowState → WorkflowState → Bool
  | planned, target => target ∈ [starting, blocked, failed, cancelled]
  | starting, target => target ∈ [running, blocked, failed, cancelled]
  | repairRequired, target => target ∈ [starting, running, reviewing, blocked, failed, cancelled]
  | needsDecision, target => target ∈ [running, reviewing, blocked, failed, cancelled]
  | running, target =>
    target ∈ [needsDecision, completed, repairRequired, blocked, failed, cancelled]
  | completed, target => target ∈ [reviewing, blocked, failed, cancelled]
  | reviewing, target => target ∈ [repairRequired, accepted, blocked, failed, cancelled]
  | blocked, target => target ∈ [reviewing, repairRequired, failed, cancelled]
  | failed, target => target ∈ [repairRequired, reviewing, cancelled]
  | accepted, _ => false
  | cancelled, _ => false

end WorkflowState

/-- `_transition_program_state_in_transaction`, of the state the row has. -/
def transition (actual target expected : WorkflowState) : Checked WorkflowState :=
  if actual = expected ∧ actual ≠ target then do
    ensure (actual.isTransitionAllowed target)
      (.invalidTransition s!"{actual.value} -> {target.value} is not allowed")
    pure target
  else do
    ensure (actual = target) (.staleWriter
      s!"program milestone state is stale: expected {expected.value}, current {actual.value}")
    pure actual

/-- `runs.program_state` -/
inductive ProgramState where
  | registered
  | running
  | completed
  | needsDecision
  | externalBlocked
  | failed
deriving DecidableEq

/-! ### Outcomes -/

inductive ProgramOutcomeKind where
  | commit
  | runtimeEvidence
deriving DecidableEq

/-- How a node ends: the pairs of outcome and integration mode that are compatible, with the facts
that an adopted node declares. -/
inductive NodeOutcome where
  | git
  | alreadyIntegrated (reviewBaseSha adoptedCandidateSha : String)
  | noIntegration
deriving DecidableEq

namespace NodeOutcome

def kind : NodeOutcome → ProgramOutcomeKind
  | git => .commit
  | alreadyIntegrated .. => .commit
  | noIntegration => .runtimeEvidence

def isGit : NodeOutcome → Bool
  | git => true
  | _ => false

def isAlreadyIntegrated : NodeOutcome → Bool
  | alreadyIntegrated .. => true
  | _ => false

end NodeOutcome

/-- `ReviewSubject` -/
structure Subject where
  kind : ProgramOutcomeKind
  digest : String
deriving DecidableEq

namespace Subject

def commit (candidateSha : String) : Subject := ⟨.commit, candidateSha⟩

def evidence (digest : String) : Subject := ⟨.runtimeEvidence, digest⟩

def wireValue (s : Subject) : String :=
  match s.kind with
  | .commit => s.digest
  | .runtimeEvidence => "runtime_evidence:" ++ s.digest

def isWellFormed (s : Subject) : Bool :=
  match s.kind with
  | .commit => isGitSha s.digest
  | .runtimeEvidence => isSha256 s.digest

end Subject

/-! ### Reviewers -/

inductive AcceptanceMode where
  | objective
  | visual
  | architecture
deriving DecidableEq

def executor : String := "executor"

def architectureReviewer : String := "architecture-reviewer"

def AcceptanceMode.role : AcceptanceMode → String
  | objective => "code-reviewer"
  | visual => "visual-reviewer"
  | architecture => architectureReviewer

/-! ### Dispatches -/

/-- The parts of a dispatch identity `run/milestone/role/generation`. -/
structure DispatchParts where
  run : String
  milestone : String
  role : String
  generation : ℕ
deriving DecidableEq

def DispatchParts.text (d : DispatchParts) : String :=
  s!"{d.run}/{d.milestone}/{d.role}/{d.generation}"

/-- The text of a dispatch in a fact; one that is no dispatch identity has no parts. -/
inductive DispatchValue where
  | dispatch (parts : DispatchParts)
  | malformed (text : String)
deriving DecidableEq

namespace DispatchValue

def text : DispatchValue → String
  | dispatch parts => parts.text
  | malformed text => text

def parts? : DispatchValue → Option DispatchParts
  | dispatch parts => some parts
  | malformed _ => none

def executorGeneration? (d : DispatchValue) : Option ℕ :=
  (d.parts?.filter (·.role = executor)).map (·.generation)

end DispatchValue

/-! ### Blockers -/

inductive BlockerKind where
  | external
  | decision
  | execution
deriving DecidableEq

inductive BlockerScope where
  | currentPromotion
  | currentRepair
  | futureMilestone
  | wholeProgram
deriving DecidableEq

structure TypedBlocker where
  gateId : String
  kind : BlockerKind
  scope : BlockerScope
  promotionBlocking : Bool
  requiredAction : String
deriving DecidableEq

inductive BlockerOperation where
  | ready
  | start
  | promote
  | integrate
deriving DecidableEq

/-- `blocker_applies_to` -/
def blockerAppliesTo (blocker : TypedBlocker) (operation : BlockerOperation)
    (source target : String) (targetDependencies : List String) : Bool :=
  if ¬blocker.promotionBlocking then false
  else if blocker.scope = .wholeProgram then true
  else if operation ∈ [.promote, .integrate] then
    source = target && blocker.scope ∈ [.currentPromotion, .currentRepair]
  else blocker.scope = .futureMilestone && source ∈ targetDependencies

inductive TerminalStatus where
  | completed
  | failed
  | externalBlocked
  | needsDecision
deriving DecidableEq

def TerminalStatus.value : TerminalStatus → String
  | completed => "completed"
  | failed => "failed"
  | externalBlocked => "external_blocked"
  | needsDecision => "needs_decision"

/-- `_default_executor_blocker` -/
def defaultExecutorBlocker : TerminalStatus → TypedBlocker
  | .externalBlocked =>
    { gateId := "executor-terminal-facts"
      kind := .external
      scope := .currentPromotion
      promotionBlocking := true
      requiredAction :=
        "Resolve the external prerequisite before promoting the retained candidate." }
  | .needsDecision =>
    { gateId := "executor-terminal-facts"
      kind := .decision
      scope := .currentRepair
      promotionBlocking := true
      requiredAction :=
        "Resolve the controller decision before promoting or repairing the retained candidate." }
  | _ =>
    { gateId := "executor-terminal-facts"
      kind := .execution
      scope := .currentRepair
      promotionBlocking := true
      requiredAction := "Inspect the retained terminal workspace and choose repair or abandonment." }

/-- `_normalize_terminal_blocker` -/
def normalizeTerminalBlocker (status : TerminalStatus) (blocker : Option TypedBlocker) :
    Option TypedBlocker :=
  if status = .completed then blocker
  else
    match blocker with
    | none => some (defaultExecutorBlocker status)
    | some b =>
      let scope := if status = .externalBlocked then BlockerScope.currentPromotion else .currentRepair
      if b.gateId = "candidate-integrity" ∧ b.promotionBlocking then some b
      else if b.promotionBlocking ∧ b.scope = scope then some b
      else some { b with scope := scope, promotionBlocking := true }

inductive BlockerResolution where
  | resolve
  | supersede
deriving DecidableEq

/-! ### Candidates -/

inductive CandidateDisposition where
  | verifiedCommit
  | preservedDirtyWorkspace
  | noCandidate
deriving DecidableEq

/-- The columns of a candidate record beside its commit. -/
structure CandidateWorkspace where
  path : String
  head : Option String
  digest : Option String
  dirty : Bool
  reason : Option String
deriving DecidableEq

/-- `CandidateRecord`: only a verified candidate has a commit, and a workspace head with it. -/
structure CandidateRecord extends CandidateWorkspace where
  disposition : CandidateDisposition
  commitSha : Option String
  verified : disposition = .verifiedCommit ↔ commitSha.isSome
  head_isSome : disposition = .verifiedCommit → head.isSome
deriving DecidableEq

end CodexFlow.Programs
