import CodexFlow.Programs.Rows

/-!
# The status of a program

The projection of a node from its rows, the closure of a node, the milestones that are ready, the
blocker that governs an operation, and the completion of the program.
-/

namespace CodexFlow.Programs

open Ledger (Time)
open Checked

/-- `ProgramNodeStatus` -/
structure NodeStatus where
  milestoneId : String
  state : WorkflowState
  dependencies : List String
  candidateSha : Option String
  reviewIds : List String
  findingIds : List String
  integrated : Bool
  candidateDisposition : Option CandidateDisposition
  blocker : Option TypedBlocker
  outcome : NodeOutcome
  evidenceSha256 : Option String
  closureSatisfied : Bool
  unsatisfiedGateIds : List String
deriving DecidableEq

/-! ### Closure -/

/-- `program_node_closure_satisfied` of the facts of a node. -/
def closureSatisfied (outcome : NodeOutcome) (candidateSha evidenceSha256 : Option String)
    (reviewsAccepted integrated adopted : Bool) (blocker : Option TypedBlocker) : Bool :=
  if blocker.isSome ∨ ¬reviewsAccepted then false
  else
    match outcome with
    | .noIntegration => evidenceSha256.isSome && !integrated
    | .git => candidateSha.isSome && integrated
    | .alreadyIntegrated .. => candidateSha.isSome && integrated && adopted

namespace NodeStatus

variable (s : NodeStatus)

/-- `program_node_closure_satisfied` of a status. -/
def isClosed : Bool :=
  match s.outcome with
  | .noIntegration =>
    s.evidenceSha256.isSome && !s.integrated && s.blocker.isNone && s.closureSatisfied
  | _ => s.candidateSha.isSome && s.blocker.isNone && s.closureSatisfied && s.integrated

def ready : Bool := s.state = .planned && !s.closureSatisfied && s.unsatisfiedGateIds.isEmpty

/-- What the constructor refuses about the subject of a node. -/
def check : Checked Unit := do
  ensure (s.outcome.kind = .runtimeEvidence → s.candidateSha.isNone)
    (.valueError "runtime evidence status cannot carry a commit candidate")
  ensure (s.outcome.kind = .runtimeEvidence → s.integrated = false)
    (.valueError "runtime evidence status cannot be integrated")
  ensure (s.outcome.kind = .commit → s.evidenceSha256.isNone)
    (.valueError "commit status cannot carry an evidence subject")

end NodeStatus

namespace Milestone

variable (m : Milestone) (n : NodeProjection)

/-- The candidate that the status shows: that of the facts, else that of the newest integration. -/
def statusCandidate : Option String :=
  n.candidate.or (m.newestIntegration.map (·.candidateSha))

def statusOutcome : Option ProgramOutcome :=
  match m.node.outcome.kind with
  | .commit => (m.statusCandidate n).bind fun c => m.outcomeRow (.commit c)
  | .runtimeEvidence => n.evidenceSha256.bind fun e => m.outcomeRow (.evidence e)

def outcomeClosed : Bool := (m.statusOutcome n).any (0 < ·.closureGeneration)

def integrated : Bool :=
  match m.node.outcome with
  | .noIntegration => false
  | .alreadyIntegrated .. => m.outcomeClosed n
  | .git => m.newestIntegration.any (·.isApplied)

def statusClosure : Bool :=
  closureSatisfied m.node.outcome (m.statusCandidate n) n.evidenceSha256 true (m.integrated n)
      (m.outcomeClosed n) n.blocker &&
    (m.outcomeClosed n || (m.node.outcome.isGit && m.integrated n))

def statusOf (milestoneId : String) : NodeStatus where
  milestoneId := milestoneId
  state := m.state
  dependencies := m.node.dependencies
  candidateSha := m.statusCandidate n
  reviewIds := n.reviews
  findingIds := n.findings
  integrated := m.integrated n
  candidateDisposition := n.candidateDisposition
  blocker := n.blocker
  outcome := m.node.outcome
  evidenceSha256 := n.evidenceSha256
  closureSatisfied := m.statusClosure n
  unsatisfiedGateIds := m.node.approvalGates

/-- The iteration of `_program_status_from_row` at one node. -/
def status (milestoneId : String) : Checked NodeStatus := do
  let n ← projectFacts m.lifecycle
  (m.statusOf n milestoneId).check
  pure (m.statusOf n milestoneId)

end Milestone

/-! ### The program -/

def nodeStatuses : List (String × Milestone) → Checked (List NodeStatus)
  | [] => pure []
  | entry :: entries => do
    let s ← entry.2.status entry.1
    let statuses ← nodeStatuses entries
    pure (s :: statuses)

/-- `ready_milestones` -/
def readyMilestones (nodes : List NodeStatus) : List String :=
  (nodes.filter fun node =>
    node.ready &&
      (node.dependencies.all fun d => nodes.any fun s => s.milestoneId = d && s.closureSatisfied) &&
      !nodes.any fun source => source.blocker.any fun b =>
        blockerAppliesTo b .ready source.milestoneId node.milestoneId node.dependencies).map
    (·.milestoneId)

namespace Program

variable (P : Program)

/-- `program_status` -/
def nodes : Checked (List NodeStatus) := nodeStatuses P.milestones.entries

/-- `_program_applicable_blocker` -/
def applicableBlocker (operation : BlockerOperation) (target : String) :
    Checked (Option TypedBlocker) := do
  let nodes ← P.nodes
  match nodes.find? (·.milestoneId = target) with
  | none => .error (.recordNotFound s!"program milestone does not exist: {P.programId}/{target}")
  | some t =>
    pure (nodes.findSome? fun source => source.blocker.filter fun b =>
      blockerAppliesTo b operation source.milestoneId target t.dependencies)

/-- `_refresh_program_completion_in_transaction` -/
def refreshCompletion (advanceRevision : Bool) (now : Time) : Checked Program := do
  P.requireCapability
  let nodes ← P.nodes
  if nodes.all (·.isClosed) then
    if P.state = .completed ∧ P.closedAt.isSome then pure P
    else
      pure { P with
        state := .completed
        revision := P.revision + if advanceRevision then 1 else 0
        closedAt := some (P.closedAt.getD now) }
  else do
    ensure (P.state ≠ .completed) (.corruptSchema "completed program has an unsatisfied node closure")
    let running := if P.state = .registered then P.inState .running else P
    pure (if advanceRevision then running.advance else running)

end Program

end CodexFlow.Programs
