import CodexFlow.Programs.Status
import CodexFlow.Ledger.Bundle

/-!
# Candidates and executor results

How the candidate of a milestone is recorded, adopted, reported by its executor and reconciled with
its terminal blocker. A function returns the program with the event it opens a decision for.
-/

namespace CodexFlow.Programs

open Ledger (Time isGitSha isSha256)
open Checked

/-- The digests of the texts that the program writes: the paths and the receipt of an adoption, a
runtime manifest, an integration receipt and a set of reviews. -/
structure Digests where
  sha256 : String → String
  paths : List String → String
  manifest : RuntimeEvidenceManifest → String
  integration : IntegrationReceipt → String
  reviews : List String → String

namespace Program

variable (P : Program) (milestoneId candidateSha : String)

/-- The status that an operation returns is read before its transaction ends. -/
def returning (event : Option NewEvent) : Checked (Program × Option NewEvent) := do
  let _ ← P.nodes
  pure (P, event)

def candidateMissing : Ledger.LedgerError :=
  .recordNotFound s!"program candidate does not exist: {P.programId}/{milestoneId}"

end Program

def candidateEvent (milestoneId candidateSha : String) : NewEvent :=
  ⟨.implementationCompleted, s!"milestone/{milestoneId}/candidate/{candidateSha}"⟩

/-! ### Recording -/

/-- `record_program_candidate`; the fact of a milestone outside the graph is about no node. -/
def Program.recordProgramCandidate (P : Program) (milestoneId candidateSha : String) :
    Checked (Program × Option NewEvent) := do
  ensure (isGitSha candidateSha) (.valueError "program candidate commit is invalid")
  P.requireCapability
  match P.milestones.get? milestoneId with
  | none => pure (P, some (candidateEvent milestoneId candidateSha))
  | some m =>
    if m.candidateSha = some candidateSha ∧
        m.lifecycle.any (·.recordedCandidate? = some candidateSha) then pure (P, none)
    else
      pure (P.setMilestone milestoneId (m.recordFact (.candidateRecorded candidateSha)),
        some (candidateEvent milestoneId candidateSha))

/-! ### Adoption -/

/-- The parts of a path of a receipt, when it is relative and canonical. -/
def relativePath (path : String) : Option (List String) :=
  let parts := path.splitOn "/"
  if path ≠ "" ∧ parts.all (fun part => part ≠ "" ∧ part ≠ "." ∧ part ≠ "..") then some parts
  else none

/-- The parts of a declared path; a lone dot has none. -/
def declaredPath (path : String) : List String :=
  (path.splitOn "/").filter fun part => part ≠ "" ∧ part ≠ "."

/-- A changed path lies on a mutable path and on no protected one. -/
def Node.authorizes (node : Node) (path : String) : Bool :=
  (relativePath path).any fun parts =>
    (node.mutableSurfaces.any fun surface => declaredPath surface <+: parts) &&
      !node.protectedPaths.any fun surface => declaredPath surface <+: parts

/-- `_validate_adoption_receipt_in_transaction` -/
def Program.validateAdoptionReceipt (digests : Digests) (P : Program) (milestoneId : String)
    (node : Node) (commitSha workspaceDigest : Option String) (r : AdoptionReceipt) :
    Checked Unit := do
  let stale := fun text => Ledger.LedgerError.staleWriter ("already-integrated adoption receipt " ++ text)
  match node.outcome with
  | .alreadyIntegrated reviewBaseSha _ => do
    ensure (r.schema = "codex-flow/already-integrated-adoption/v1") (stale "schema is unsupported")
    ensure (r.programId = P.programId ∧ r.milestoneId = milestoneId ∧
        r.repositoryRoot = node.repositoryRoot ∧ r.workspacePath = node.workspacePath ∧
        r.branch = node.branch ∧ r.graphDigest = P.planDigest ∧ r.reviewBaseSha = reviewBaseSha ∧
        some r.candidateSha = commitSha ∧ r.observedTrunkHead = P.trunkHead)
      (stale "identity is stale")
    ensure (isGitSha r.candidateTree) (stale "tree is invalid")
    ensure (r.candidateParents = [reviewBaseSha]) (stale "parents are invalid")
    ensure ((r.changedPaths.all fun path => (relativePath path).isSome) ∧
        r.changedPaths.Pairwise (· < ·)) (stale "paths are invalid")
    ensure (r.changedPaths.all node.authorizes) (stale "changes an unauthorized path")
    ensure (r.changedPathsSha256 = digests.paths r.changedPaths) (stale "path digest is invalid")
    ensure (isSha256 r.protectedPathsSha256) (stale "protected digest is invalid")
    ensure (workspaceDigest = some (digests.sha256 r.candidateTree))
      (stale "tree conflicts with the candidate")
  | _ => .error (stale "identity is stale")

structure Adoption where
  candidate : CandidateRecord
  dispatchId : Option DispatchValue
  terminalStatus : Option TerminalStatus
  blocker : Option TypedBlocker
  receipt : Option AdoptionReceipt
deriving DecidableEq

/-- An already-integrated node is adopted at its registered candidate with its exact receipt, any
other node without one. -/
def Program.checkAdoption (digests : Digests) (P : Program) (milestoneId : String) (node : Node)
    (q : Adoption) : Checked Unit :=
  match node.outcome with
  | .alreadyIntegrated _ adoptedCandidateSha => do
    ensure (q.candidate.commitSha = some adoptedCandidateSha)
      (.staleWriter "already-integrated adoption candidate is not the registered candidate")
    match q.receipt with
    | none => .error (.valueError "already-integrated adoption requires its exact receipt")
    | some r =>
      P.validateAdoptionReceipt digests milestoneId node q.candidate.commitSha q.candidate.digest r
  | _ => ensure q.receipt.isNone
      (.valueError "ordinary commit adoption cannot carry an already-integrated receipt")

namespace Adoption

variable (q : Adoption) (m : Milestone)

/-- The terminal status of the call, else that of the newest terminal fact. -/
def inheritedStatus : Option TerminalStatus :=
  q.terminalStatus.or
    (Journal.latest (fun fact => fact.executorTerminal?.map (·.terminalStatus)) m.lifecycle)

def terminalBlocker : Option TypedBlocker :=
  match q.inheritedStatus m with
  | none => q.blocker
  | some status => normalizeTerminalBlocker status q.blocker

def target : WorkflowState :=
  if m.node.outcome.isAlreadyIntegrated ∧
      (q.inheritedStatus m).all (· = .completed) then .completed
  else if q.inheritedStatus m = some .externalBlocked ∨
      (q.terminalBlocker m).any (fun b => b.kind = .external ∧ b.scope = .currentPromotion) then
    .blocked
  else .repairRequired

end Adoption

namespace Milestone

variable (m : Milestone)

def isPromoted (candidateSha : String) : Bool :=
  m.lifecycle.any fun fact =>
    match fact with
    | .promotionAccepted s _ => s = .commit candidateSha
    | .integrationCompleted c _ _ => c = candidateSha
    | _ => false

/-- The candidate that an adoption supersedes: it needs a newer executor dispatch. -/
def adoptionPredecessor (commit : String) (dispatchId : Option DispatchValue) :
    Checked (Option String) :=
  match m.candidateSha with
  | none => pure none
  | some existing =>
    if existing = commit then pure none
    else do
      ensure (m.state ∈ [.blocked, .needsDecision, .repairRequired] ∧ dispatchId.isSome)
        (.staleWriter "program candidate commit changed before adoption")
      ensure ((dispatchId.bind (·.parts?)).isSome)
        (.staleWriter "program candidate adoption dispatch identity is invalid")
      ensure ((dispatchId.bind (·.executorGeneration?)).any
          (candidateDispatchGeneration m.lifecycle existing < ·))
        (.staleWriter "program candidate adoption is not a successor generation")
      pure (some existing)

def claimAdopted : Checked Milestone :=
  if m.state = .planned then do
    ensure (!m.ownsRole executor)
      (.staleWriter "already-integrated adoption has a conflicting executor dispatch")
    pure ((m.addDispatch executor 1).moveTo .starting)
  else pure m

def runStarting : Checked Milestone :=
  if m.state = .starting then m.transition .running .starting else pure m

def completeRunning : Checked Milestone :=
  if m.state = .running then m.transition .completed .running
  else do
    ensure (m.state = .completed)
      (.staleWriter "already-integrated adoption requires a launchable milestone")
    pure m

/-- The moves of a milestone that adopts an integrated candidate. -/
def launchAdopted : Checked Milestone := do
  let claimed ← m.claimAdopted
  let running ← claimed.runStarting
  running.completeRunning

/-- The move of a milestone that ended without a candidate of its own. -/
def leaveFor (target : WorkflowState) : Checked Milestone :=
  if m.state ∈ [.failed, .blocked, .needsDecision, .repairRequired] ∧ m.state ≠ target then
    m.transition target m.state
  else pure m

def adopt (q : Adoption) (commit : String) (dispatchId : Option DispatchValue)
    (status : Option TerminalStatus) (blocker : Option TypedBlocker) : Milestone :=
  m.recordFact (.candidateAdopted
    { candidateSha := commit
      candidateDisposition := q.candidate.disposition
      candidateWorkspace := q.candidate.toCandidateWorkspace
      dispatchId := dispatchId
      terminalStatus := status
      blocker := blocker
      adoptionReceipt := q.receipt })

def adoptOutcome (receipt : Option AdoptionReceipt) (commit : String) (now : Time) :
    Checked Milestone :=
  match receipt with
  | none => pure m
  | some r =>
    match m.outcomeRow (.commit commit) with
    | none => pure (m.addOutcome ⟨.commit commit, .adoption r, 0, 0, now⟩)
    | some outcome => do
      ensure (outcome.manifest = .adoption r)
        (.staleWriter "already-integrated adoption receipt conflicts with its durable outcome")
      pure m

def supersede (predecessor : Option String) (commit : String) (dispatchId : Option DispatchValue) :
    Milestone :=
  match predecessor with
  | none => m
  | some p => m.recordFact (.candidateSuperseded p commit dispatchId)

end Milestone

/-- The executor dispatch that an already-integrated candidate is adopted under. -/
def Program.initialExecutor (P : Program) (milestoneId : String) : DispatchValue :=
  .dispatch ⟨P.programId, milestoneId, executor, 1⟩

def Program.recordAdoption (P : Program) (milestoneId : String) (m moved : Milestone) (q : Adoption)
    (commit : String) (dispatchId : Option DispatchValue) (predecessor : Option String)
    (now : Time) : Checked (Program × Option NewEvent) := do
  let adopted ←
    (moved.adopt q commit dispatchId (q.inheritedStatus m) (q.terminalBlocker m)).adoptOutcome
      q.receipt commit now
  let P' := P.setMilestone milestoneId (adopted.supersede predecessor commit dispatchId)
  P'.returning (some (candidateEvent milestoneId commit))

/-- The candidate that is current already was adopted by this very call. -/
def Program.replayAdoption (P : Program) (milestoneId : String) (m : Milestone) (q : Adoption)
    (commit : String) : Checked (Program × Option NewEvent) :=
  match m.lifecycle.findSome? (fun fact =>
      match fact with
      | .candidateAdopted a => if a.candidateSha = commit then some a else none
      | _ => none) with
  | none => .error (.corruptSchema "already-integrated adoption is missing its durable receipt")
  | some prior => do
    ensure (prior.adoptionReceipt = q.receipt ∧
        prior.dispatchId = some (P.initialExecutor milestoneId))
      (.staleWriter "already-integrated adoption replay conflicts with its durable receipt")
    P.returning none

/-- `adopt_program_candidate` -/
def Program.adoptProgramCandidate (digests : Digests) (P : Program) (milestoneId : String)
    (q : Adoption) (now : Time) : Checked (Program × Option NewEvent) :=
  match q.candidate.commitSha with
  | none => .error (.valueError "program adoption requires a verified commit candidate")
  | some commit => do
    let m ← P.milestone milestoneId (P.candidateMissing milestoneId)
    P.requireCapability
    P.checkAdoption digests milestoneId m.node q
    ensure (m.isPromoted commit →
        m.node.outcome.isAlreadyIntegrated ∧ m.candidateSha = some commit)
      (.staleWriter "program candidate is already promoted or integrated")
    let predecessor ← m.adoptionPredecessor commit q.dispatchId
    if q.target m = .completed then do
      let dispatch := P.initialExecutor milestoneId
      ensure (q.dispatchId.all (· = dispatch))
        (.staleWriter "already-integrated adoption dispatch identity is not the initial executor")
      if m.candidateSha = some commit then P.replayAdoption milestoneId m q commit
      else do
        let moved ← m.launchAdopted
        P.recordAdoption milestoneId m moved q commit (some dispatch) predecessor now
    else do
      let moved ← m.leaveFor (q.target m)
      P.recordAdoption milestoneId m moved q commit q.dispatchId predecessor now

/-! ### Executor results -/

structure ExecutorResult where
  candidateSha : Option String
  terminalStatus : TerminalStatus
  dispatchId : Option DispatchValue
  resultSha256 : Option String
  record : Option CandidateRecord
  blocker : Option TypedBlocker
deriving DecidableEq

namespace ExecutorResult

variable (q : ExecutorResult)

def check : Checked Unit := do
  ensure (q.candidateSha.all isGitSha) (.valueError "program candidate commit is invalid")
  ensure (q.resultSha256.all isSha256) (.valueError "program executor result digest is invalid")
  ensure (q.record.all (·.commitSha = q.candidateSha))
    (.staleWriter "program candidate record does not match candidate commit")

def disposition : CandidateDisposition :=
  match q.record with
  | some record => record.disposition
  | none => if q.candidateSha.isSome then .verifiedCommit else .noCandidate

def terminalFact : TerminalFact where
  dispatchId := q.dispatchId
  terminalStatus := q.terminalStatus
  candidateSha := q.candidateSha
  candidateDisposition := q.disposition
  candidateWorkspace := q.record.map (·.toCandidateWorkspace)
  resultSha256 := q.resultSha256
  evidenceSha256 := none
  blocker := normalizeTerminalBlocker q.terminalStatus q.blocker

def target : WorkflowState :=
  if q.candidateSha.isNone then .failed
  else
    match q.terminalStatus with
    | .completed => .completed
    | .externalBlocked => .blocked
    | .needsDecision => .needsDecision
    | .failed => .repairRequired

/-- The program state that a result without a completed candidate leaves. -/
def programState : ProgramState :=
  if q.candidateSha.isSome then .running
  else
    match q.terminalStatus with
    | .needsDecision => .needsDecision
    | .externalBlocked => .externalBlocked
    | _ => .failed

/-- The event of a result without a completed candidate. -/
def attention (milestoneId : String) : NewEvent :=
  ⟨.controllerAttention, s!"executor/{milestoneId}/" ++
    (q.dispatchId.elim "unbound" (·.text)) ++ "/" ++ q.terminalStatus.value⟩

end ExecutorResult

namespace Milestone

variable (m : Milestone)

def terminalOf (dispatchId : Option DispatchValue) : Option TerminalFact :=
  Journal.latest (fun fact => fact.executorTerminal?.filter (·.dispatchId = dispatchId)) m.lifecycle

/-- The update of the state by an executor result, which reads no transition policy. -/
def closeExecution (target : WorkflowState) : Checked Milestone :=
  if m.state ∈ [.starting, .running] then pure (m.moveTo target)
  else do
    ensure (m.state = target ∨ target = .completed ∨ (m.state = .planned ∧ target = .failed))
      (.staleWriter
        s!"program executor result requires a launchable milestone, found {m.state.value}")
    pure m

/-- The candidate that an executor result supersedes: it needs a newer executor dispatch. -/
def resultPredecessor (q : ExecutorResult) : Checked (Option String) :=
  match m.candidateSha with
  | none => pure none
  | some existing =>
    if q.candidateSha = some existing then pure none
    else do
      ensure (q.candidateSha.isSome ∧
          m.state ∈ [.starting, .running, .repairRequired, .blocked, .needsDecision])
        (.staleWriter "program candidate commit changed after executor completion")
      ensure q.dispatchId.isSome
        (.staleWriter "program candidate successor requires a bound dispatch")
      ensure (q.dispatchId.bind (·.parts?)).isSome
        (.staleWriter "program candidate successor dispatch identity is invalid")
      ensure ((q.dispatchId.bind (·.executorGeneration?)).any
          (candidateDispatchGeneration m.lifecycle existing < ·))
        (.staleWriter "program candidate successor is not a newer executor generation")
      pure (some existing)

def recordResult (q : ExecutorResult) (predecessor : Option String) : Milestone :=
  ((m.recordFact (.executorCandidate q.terminalFact)).supersede predecessor
    (q.candidateSha.getD "") q.dispatchId).recordFact (.executorTerminal q.terminalFact)

end Milestone

/-- `record_program_executor_result` -/
def Program.recordProgramExecutorResult (P : Program) (milestoneId : String) (q : ExecutorResult) :
    Checked (Program × Option NewEvent) := do
  q.check
  let m ← P.milestone milestoneId
    (.recordNotFound s!"program executor result does not exist: {P.programId}/{milestoneId}")
  P.requireCapability
  match m.terminalOf q.dispatchId with
  | some terminal => do
    ensure (terminal = q.terminalFact)
      (.staleWriter "program executor terminal replay conflicts with its durable result")
    P.returning none
  | none => do
    let closed ← m.closeExecution q.target
    let predecessor ← m.resultPredecessor q
    let P' := P.setMilestone milestoneId (closed.recordResult q predecessor)
    match q.target, q.candidateSha with
    | .completed, some c => P'.returning (some (candidateEvent milestoneId c))
    | _, _ => (P'.inState q.programState).advance.returning (some (q.attention milestoneId))

/-! ### Reconciliation -/

structure Reconciliation where
  candidateSha : String
  terminalStatus : TerminalStatus
  blocker : TypedBlocker
  dispatchId : Option DispatchValue
deriving DecidableEq

namespace Reconciliation

variable (q : Reconciliation)

def check : Checked Unit := do
  ensure (isGitSha q.candidateSha) (.valueError "program candidate commit is invalid")
  ensure (q.terminalStatus ≠ .completed)
    (.valueError "candidate reconciliation terminal status is unsupported")
  ensure (q.terminalStatus = .externalBlocked →
      q.blocker.kind = .external ∧ q.blocker.scope = .currentPromotion)
    (.valueError
      "external candidate reconciliation requires a current-promotion external blocker")

def fact : ReconciledFact := ⟨q.candidateSha, q.terminalStatus, q.blocker, q.dispatchId⟩

def target : WorkflowState :=
  if q.terminalStatus = .externalBlocked then .blocked else .repairRequired

end Reconciliation

namespace Milestone

variable (m : Milestone) (candidateSha : String)

/-- The candidate was adopted, recorded or reconciled. -/
def retains : Bool :=
  m.lifecycle.any fun fact =>
    match fact with
    | .candidateRecorded c => c = candidateSha
    | .executorCandidate t => t.candidateSha = some candidateSha
    | .candidateAdopted a => a.candidateSha = candidateSha
    | .candidateReconciled r => r.candidateSha = candidateSha
    | _ => false

def reconciledOf : Option ReconciledFact :=
  Journal.latest (fun fact => fact.reconciled?.filter (·.candidateSha = candidateSha)) m.lifecycle

end Milestone

/-- `reconcile_program_candidate` -/
def Program.reconcileProgramCandidate (P : Program) (milestoneId : String) (q : Reconciliation) :
    Checked (Program × Option NewEvent) := do
  q.check
  let m ← P.milestone milestoneId (P.candidateMissing milestoneId)
  P.requireCapability
  ensure (m.retains q.candidateSha) (.recordNotFound
    s!"program candidate is not adopted: {P.programId}/{milestoneId}/{q.candidateSha}")
  match m.reconciledOf q.candidateSha with
  | some reconciled => do
    ensure (reconciled = q.fact)
      (.staleWriter "candidate reconciliation conflicts with its durable blocker")
    P.returning none
  | none => do
    let moved ← m.transition q.target m.state
    (P.setMilestone milestoneId (moved.recordFact (.candidateReconciled q.fact))).returning
      (some ⟨.controllerAttention,
        s!"milestone/{milestoneId}/candidate/{q.candidateSha}/reconciled"⟩)

/-! ### Results of an ordinary run -/

/-- `record_control_executor_result`, at the run of a registered program. -/
def Program.recordControlExecutorResult (P : Program) (milestoneId : String) :
    Checked (Program × Option NewEvent) := do
  let _ ← P.milestone milestoneId
    (.recordNotFound s!"control execution does not exist: {P.programId}/{milestoneId}")
  .error (.staleWriter "program executor results use the program lifecycle authority")

end CodexFlow.Programs
