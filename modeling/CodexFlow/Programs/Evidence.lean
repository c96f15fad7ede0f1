import CodexFlow.Programs.Reviews

/-!
# Runtime evidence and closure

A runtime dispatch leaves a manifest instead of a commit. Its subject, and that of a node that was
integrated already, are closed once every declared reviewer accepted them.
-/

namespace CodexFlow.Programs

open Ledger (Time isSha256)
open Checked

/-! ### Recording -/

/-- What the queue says of a dispatch: its attempt, its raw result, and the digests of its capsule
and of its plan. -/
structure QueueFacts where
  generation : ℕ
  attempt : ℕ
  rawResultSha256 : Option String
  capsuleSha256 : String
  planRevisionSha256 : Option String
deriving DecidableEq

structure EvidenceResult where
  manifest : RuntimeEvidenceManifest
  terminalStatus : TerminalStatus
  dispatchId : DispatchParts
  resultSha256 : Option String
  blocker : Option TypedBlocker
deriving DecidableEq

namespace EvidenceResult

variable (digests : Digests) (q : EvidenceResult)

def check (programId milestoneId : String) : Checked Unit := do
  ensure (q.dispatchId.run = programId ∧ q.dispatchId.milestone = milestoneId ∧
      q.dispatchId.role = executor)
    (.staleWriter "runtime evidence dispatch does not match its program node")
  ensure (q.manifest.programId = programId ∧ q.manifest.milestoneId = milestoneId ∧
      q.manifest.dispatchId = q.dispatchId)
    (.staleWriter "runtime evidence manifest identity is not bound to its dispatch")
  ensure (q.manifest.terminalOutcome = q.terminalStatus)
    (.staleWriter "runtime evidence terminal outcome does not match its dispatch")
  ensure (q.resultSha256.all isSha256) (.valueError "runtime evidence result digest")

def subject : Subject := .evidence (digests.manifest q.manifest)

def terminalFact : TerminalFact where
  dispatchId := some (.dispatch q.dispatchId)
  terminalStatus := q.terminalStatus
  candidateSha := none
  candidateDisposition := .noCandidate
  candidateWorkspace := none
  resultSha256 := q.resultSha256
  evidenceSha256 := some (digests.manifest q.manifest)
  blocker := normalizeTerminalBlocker q.terminalStatus q.blocker

def checkNode (node : Node) : Checked Unit := do
  ensure (node.outcome = .noIntegration)
    (.staleWriter "runtime evidence does not match the program node outcome mode")
  ensure (node.runtimeArtifactMaxFiles.all (q.manifest.files.length ≤ ·))
    (.staleWriter "runtime evidence exceeds its registered file limit")
  ensure (node.runtimeArtifactMaxBytes.all ((q.manifest.files.map (·.2)).sum ≤ ·))
    (.staleWriter "runtime evidence exceeds its registered byte limit")
  ensure (node.acceptanceCriteriaSha256.isSome →
      q.manifest.acceptanceCriteriaSha256 = node.acceptanceCriteriaSha256)
    (.staleWriter "runtime evidence acceptance criteria identity is stale")

def checkQueue (queue : QueueFacts) : Checked Unit := do
  ensure (queue.generation = q.manifest.generation ∧ queue.attempt = q.manifest.attempt)
    (.staleWriter "runtime evidence attempt identity is stale")
  ensure (queue.rawResultSha256.all (q.resultSha256 = some ·))
    (.staleWriter "runtime evidence result identity is stale")
  ensure (queue.capsuleSha256 = q.manifest.capsuleSha256)
    (.staleWriter "runtime evidence capsule identity is stale")
  ensure (queue.planRevisionSha256.all (· = q.manifest.planRevisionSha256))
    (.staleWriter "runtime evidence plan identity is stale")

def target : WorkflowState :=
  match q.terminalStatus with
  | .completed => .completed
  | .externalBlocked => .blocked
  | .needsDecision => .needsDecision
  | .failed => .failed

def programState : ProgramState :=
  match q.terminalStatus with
  | .needsDecision => .needsDecision
  | .externalBlocked => .externalBlocked
  | _ => .failed

end EvidenceResult

namespace Milestone

variable (digests : Digests) (m : Milestone)

def recordManifest (q : EvidenceResult) (now : Time) : Checked Milestone :=
  match m.outcomeRow (q.subject digests) with
  | none => pure (m.addOutcome ⟨q.subject digests, .evidence q.manifest, 0, 0, now⟩)
  | some outcome => do
    ensure (outcome.manifest = .evidence q.manifest)
      (.staleWriter "runtime evidence subject already names different bytes")
    pure m

def closeRuntime (target : WorkflowState) : Checked Milestone := do
  let begun ← m.runStarting
  let resumed ←
    if begun.state = .repairRequired ∧ target = .completed then
      begun.transition .running .repairRequired
    else pure begun
  if resumed.state = .running then resumed.transition target .running
  else do
    ensure (resumed.state = target) (.staleWriter
      s!"runtime evidence result conflicts with milestone state {resumed.state.value}")
    pure resumed

end Milestone

/-- `record_runtime_evidence`; `queue` is the queue row of the dispatch, where there is one. -/
def Program.recordRuntimeEvidence (digests : Digests) (P : Program) (milestoneId : String)
    (q : EvidenceResult) (queue : Option QueueFacts) (now : Time) :
    Checked (Program × Option NewEvent) := do
  q.check P.programId milestoneId
  let m ← P.milestone milestoneId
    (.recordNotFound s!"runtime evidence program node does not exist: {P.programId}/{milestoneId}")
  P.requireCapability
  q.checkNode m.node
  queue.forM q.checkQueue
  let recorded ← m.recordManifest digests q now
  match m.lifecycle.findSome? (fun fact => fact.executorTerminal?.filter
      (·.dispatchId = some (.dispatch q.dispatchId))) with
  | some terminal => do
    ensure (terminal = q.terminalFact digests)
      (.staleWriter "runtime evidence terminal replay conflicts with its durable result")
    (P.setMilestone milestoneId recorded).returning none
  | none => do
    let closed ← recorded.closeRuntime q.target
    let digest := digests.manifest q.manifest
    let P' := P.setMilestone milestoneId
      ((closed.recordFact (.evidenceRecorded digest)).recordFact
        (.executorTerminal (q.terminalFact digests)))
    if q.terminalStatus = .completed then
      P'.returning (some
        ⟨.implementationCompleted, s!"milestone/{milestoneId}/evidence/" ++ digest⟩)
    else
      (P'.inState q.programState).advance.returning (some ⟨.controllerAttention,
        s!"executor/{milestoneId}/{q.dispatchId.text}/{q.terminalStatus.value}"⟩)

/-! ### Invalidation -/

def integrityBlocker (reason : String) : TypedBlocker where
  gateId := "runtime-evidence-integrity"
  kind := .execution
  scope := .wholeProgram
  promotionBlocking := true
  requiredAction := reason

/-- `invalidate_runtime_evidence` -/
def Program.invalidateRuntimeEvidence (P : Program) (milestoneId evidenceSha256 reason : String) :
    Checked (Program × Option NewEvent) := do
  ensure (isSha256 evidenceSha256) (.valueError "review subject digest")
  let m ← P.milestone milestoneId
    (.recordNotFound s!"runtime evidence program node does not exist: {P.programId}/{milestoneId}")
  P.requireCapability
  ensure (m.outcomeRow (.evidence evidenceSha256)).isSome
    (.recordNotFound "runtime evidence outcome does not exist")
  match m.lifecycle.findSome? (fun fact =>
      match fact with
      | .evidenceInvalidated e b => if e = evidenceSha256 then some b else none
      | _ => none) with
  | some blocker => do
    ensure (blocker = integrityBlocker reason)
      (.staleWriter "runtime evidence invalidation conflicts with its durable blocker")
    P.returning none
  | none => do
    let moved ←
      if m.state ∈ [.running, .completed, .reviewing] then m.transition .blocked m.state else pure m
    let P' := P.setMilestone milestoneId
      (moved.recordFact (.evidenceInvalidated evidenceSha256 (integrityBlocker reason)))
    (if P.state = .completed then (P'.inState .needsDecision).advance else P').returning
      (some ⟨.controllerAttention,
        s!"milestone/{milestoneId}/evidence/{evidenceSha256}/invalidated"⟩)

/-! ### Closure -/

/-- A closure that a call asks for; the harness sends the revision it fences runtime evidence by. -/
structure Closure where
  subject : Subject
  reviewIds : List String
  receipt : Option AdoptionReceipt := none
  expectedProgramRevision : Option ℕ := none
deriving DecidableEq

namespace Milestone

variable (m : Milestone)

/-- The outcome row of a closed subject; one that an adoption left out is made of its receipt. -/
def closeOutcome (digests : Digests) (P : Program) (milestoneId : String) (q : Closure)
    (now : Time) : Checked Milestone :=
  let digest := fun r : AdoptionReceipt => some (digests.sha256 r.candidateTree)
  match m.outcomeRow q.subject with
  | none => do
    ensure m.node.outcome.isAlreadyIntegrated
      (.staleWriter "runtime evidence subject is not recorded")
    match q.receipt.or (Journal.latest (fun fact =>
        if fact.subject? = some q.subject then fact.adoptionReceipt? else none) m.lifecycle) with
    | none => .error (.valueError "already-integrated closure requires its adoption receipt")
    | some r => do
      P.validateAdoptionReceipt digests milestoneId m.node (some q.subject.digest) (digest r) r
      pure (m.addOutcome ⟨q.subject, .adoption r, 1, 1, now⟩)
  | some outcome => do
    match outcome.manifest with
    | .evidence _ => pure ()
    | .adoption r => do
      P.validateAdoptionReceipt digests milestoneId m.node (some q.subject.digest) (digest r) r
      ensure (q.receipt.all (· = r))
        (.staleWriter "already-integrated closure receipt conflicts with adoption")
    ensure (outcome.closureGeneration ≤ 1)
      (.corruptSchema "program outcome closure generation is invalid")
    pure (m.setOutcome { outcome with
      acceptanceGeneration :=
        if outcome.closureGeneration = 0 then 1 else outcome.acceptanceGeneration
      closureGeneration := 1 })

def promotedAlready (subject : Subject) : Bool := m.lifecycle.any (·.isPromotionOf subject)

def promote (subject : Subject) (reviewIds : List String) : Milestone :=
  if m.promotedAlready subject then m else m.recordFact (.promotionAccepted subject reviewIds)

def accept (error : Ledger.LedgerError) : Checked Milestone :=
  if m.state = .reviewing then m.transition .accepted .reviewing
  else do
    ensure (m.state = .accepted) error
    pure m

end Milestone

/-- `_close_program_node_in_transaction` -/
def Program.closeNode (digests : Digests) (P : Program) (milestoneId : String) (q : Closure)
    (advanceRevision : Bool) (now : Time) : Checked Program := do
  P.requireCapability
  let m ← P.milestone milestoneId
    (.recordNotFound s!"program does not exist: {P.programId}")
  ensure (q.subject.kind = m.node.outcome.kind)
    (.staleWriter "program closure subject kind does not match the node")
  ensure (!m.node.outcome.isGit)
    (.staleWriter "Git-integrated nodes close through their integration receipt")
  ensure (m.node.outcome = .noIntegration → q.expectedProgramRevision = some P.revision)
    (.staleWriter "runtime evidence closure program revision is stale")
  m.validateReviewSet q.subject q.reviewIds
  if m.promotedAlready q.subject ∧ (m.outcomeRow q.subject).any (·.closureGeneration = 1) then do
    ensure (m.state = .accepted)
      (.corruptSchema "closed program outcome does not have an accepted milestone")
    pure P
  else do
    let closed ← m.closeOutcome digests P milestoneId q now
    let accepted ← (closed.promote q.subject q.reviewIds).accept (.staleWriter
      s!"program closure requires a reviewing milestone, found {m.state.value}")
    (P.setMilestone milestoneId accepted).refreshCompletion advanceRevision now

/-- `close_program_node` -/
def Program.closeProgramNode (digests : Digests) (P : Program) (milestoneId : String) (q : Closure)
    (now : Time) : Checked (Program × Option NewEvent) := do
  ensure q.subject.isWellFormed (.valueError "review subject digest")
  let closed ← P.closeNode digests milestoneId q true now
  closed.returning none

end CodexFlow.Programs
