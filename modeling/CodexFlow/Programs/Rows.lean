import CodexFlow.Programs.Facts
import CodexFlow.Lib.Table

/-!
# Rows of a program

The row of a registered program with the rows of its milestones: the node of the graph that a
milestone was registered from, its state, its journal, its outcomes, its integrations and its
dispatches.
-/

namespace CodexFlow.Programs

open Ledger (Time)
open Checked

/-- `ProgramNodeSpec`, with what its capsule says about the outcome of the node. -/
structure Node where
  outcome : NodeOutcome
  dependencies : List String
  mutableSurfaces : List String
  protectedPaths : List String
  acceptanceModes : List AcceptanceMode
  acceptanceCriteriaSha256 : Option String
  approvalGates : List String
  repositoryRoot : String
  workspacePath : String
  branch : String
  runtimeArtifactMaxFiles : Option ℕ
  runtimeArtifactMaxBytes : Option ℕ
deriving DecidableEq

/-! ### Outcomes -/

/-- `RuntimeEvidenceManifest` -/
structure RuntimeEvidenceManifest where
  programId : String
  milestoneId : String
  dispatchId : DispatchParts
  terminalOutcome : TerminalStatus
  files : List (String × ℕ)
  acceptanceCriteriaSha256 : Option String
  generation : ℕ
  attempt : ℕ
  capsuleSha256 : String
  planRevisionSha256 : String
deriving DecidableEq

/-- `manifest_json`: the receipt of an adoption or the manifest of a runtime dispatch. -/
inductive Manifest where
  | adoption (receipt : AdoptionReceipt)
  | evidence (manifest : RuntimeEvidenceManifest)
deriving DecidableEq

/-- A row of `program_outcomes`. -/
structure ProgramOutcome where
  subject : Subject
  manifest : Manifest
  acceptanceGeneration : ℕ
  closureGeneration : ℕ
  createdAt : Time
deriving DecidableEq

/-! ### Integrations -/

inductive IntegrationStrategy where
  | merge
  | fastForward
  | cherryPick
deriving DecidableEq

inductive IntegrationState where
  | applied
  | conflict
  | failed
deriving DecidableEq

/-- The receipt of a Git integration; `rest` is what no check reads. -/
structure IntegrationReceipt where
  programId : String
  milestoneId : String
  candidateSha : String
  expectedTrunkHead : String
  strategy : IntegrationStrategy
  beforeTrunkHead : String
  afterTrunkHead : Option String
  parents : Option (List String)
  tree : Option String
  logicalPromotion : Bool
  linearChain : Bool
  lineage : Option (List String)
  rest : String
deriving DecidableEq

structure IntegrationEnd where
  state : IntegrationState
  receipt : IntegrationReceipt
  completedAt : Time
deriving DecidableEq

/-- A row of `integration_outbox`; it is pending until it has an end. -/
structure Integration where
  candidateSha : String
  expectedTrunkHead : String
  strategy : IntegrationStrategy
  createdAt : Time
  ended : Option IntegrationEnd
deriving DecidableEq

namespace Integration

variable (i : Integration)

def isPending : Bool := i.ended.isNone

def isApplied : Bool := i.ended.any (·.state = .applied)

/-- The order of `created_at` and then of the identity, which ends in the candidate. -/
def isOlder (j : Integration) : Bool :=
  i.createdAt < j.createdAt || (i.createdAt = j.createdAt && i.candidateSha < j.candidateSha)

end Integration

/-! ### Milestones -/

/-- A row of `dispatches`. -/
structure DispatchRow where
  role : String
  generation : ℕ
deriving DecidableEq

structure Milestone where
  node : Node
  state : WorkflowState := .planned
  lifecycle : List Fact := []
  outcomes : List ProgramOutcome := []
  integrations : List Integration := []
  dispatches : List DispatchRow := []
deriving DecidableEq

namespace Milestone

variable (m : Milestone)

/-- `_record_program_fact_in_transaction` -/
def recordFact (fact : Fact) : Milestone := { m with lifecycle := Journal.record m.lifecycle fact }

def moveTo (state : WorkflowState) : Milestone := { m with state := state }

/-- `_transition_program_state_in_transaction` -/
def transition (target expected : WorkflowState) : Checked Milestone := do
  pure (m.moveTo (← Programs.transition m.state target expected))

def candidateSha : Option String := programCandidateSha m.lifecycle

def subject : Option Subject := programSubject m.lifecycle

/-- `_program_outcome_row` -/
def outcomeRow (subject : Subject) : Option ProgramOutcome :=
  m.outcomes.find? (·.subject = subject)

def setOutcome (outcome : ProgramOutcome) : Milestone :=
  { m with outcomes := m.outcomes.map fun o => if o.subject = outcome.subject then outcome else o }

def addOutcome (outcome : ProgramOutcome) : Milestone :=
  { m with outcomes := m.outcomes ++ [outcome] }

def integrationOf (candidateSha : String) : Option Integration :=
  m.integrations.find? (·.candidateSha = candidateSha)

def setIntegration (i : Integration) : Milestone :=
  { m with integrations :=
    m.integrations.map fun j => if j.candidateSha = i.candidateSha then i else j }

def addIntegration (i : Integration) : Milestone :=
  { m with integrations := m.integrations ++ [i] }

/-- The integration that `ORDER BY created_at DESC, integration_id DESC` puts first. -/
def newestIntegration : Option Integration :=
  m.integrations.foldl (fun newest i =>
    match newest with
    | none => some i
    | some j => if j.isOlder i then some i else some j) none

/-- `MAX(generation)` over the dispatches of the role. -/
def latestGeneration (role : String) : ℕ :=
  m.dispatches.foldl (fun latest d => if d.role = role then max latest d.generation else latest) 0

/-- `next_program_dispatch_generation` -/
def nextGeneration (role : String) : ℕ := m.latestGeneration role + 1

def hasDispatch (role : String) (generation : ℕ) : Bool :=
  m.dispatches.contains ⟨role, generation⟩

def ownsRole (role : String) : Bool := m.dispatches.any (·.role = role)

def addDispatch (role : String) (generation : ℕ) : Milestone :=
  { m with dispatches := m.dispatches ++ [⟨role, generation⟩] }

end Milestone

/-! ### Programs -/

/-- The row of `runs` of a registered program with its milestones. -/
structure Program where
  programId : String
  planDigest : String
  integrationStrategy : IntegrationStrategy
  registeredTrunkHead : String
  trunkHead : String
  state : ProgramState := .registered
  revision : ℕ := 0
  closedAt : Option Time := none
  milestones : Table String Milestone

namespace Program

variable (P : Program) (milestoneId : String)

/-- `_require_program_capability_in_transaction` -/
def requireCapability : Checked Unit :=
  ensure (P.milestones.entries.all fun entry => entry.2.node.approvalGates.isEmpty)
    (.staleWriter "approval_capability_unavailable")

def milestone (error : Ledger.LedgerError) : Checked Milestone :=
  match P.milestones.get? milestoneId with
  | none => .error error
  | some m => pure m

def setMilestone (m : Milestone) : Program :=
  { P with milestones := P.milestones.set milestoneId m }

def advance : Program := { P with revision := P.revision + 1 }

def inState (state : ProgramState) : Program := { P with state := state }

end Program

/-- The event that an operation opens a decision for. -/
structure NewEvent where
  kind : Ledger.ProgramEventKind
  key : String
deriving DecidableEq

end CodexFlow.Programs
