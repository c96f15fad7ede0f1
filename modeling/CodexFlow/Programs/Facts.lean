import CodexFlow.Programs.Types
import CodexFlow.Lib.Journal

/-!
# Lifecycle facts

The journal of a milestone and what is read from it: the current candidate and subject, the
generation that recorded a candidate, and the blocker of a candidate. Two facts are one when their
kind and their data are the same.
-/

namespace CodexFlow.Programs

open Checked

/-- What an executor left behind; only a runtime dispatch leaves evidence. -/
structure TerminalFact where
  dispatchId : Option DispatchValue
  terminalStatus : TerminalStatus
  candidateSha : Option String
  candidateDisposition : CandidateDisposition
  candidateWorkspace : Option CandidateWorkspace
  resultSha256 : Option String
  evidenceSha256 : Option String
  blocker : Option TypedBlocker
deriving DecidableEq

/-- `codex-flow/already-integrated-adoption/v1` -/
structure AdoptionReceipt where
  schema : String
  programId : String
  milestoneId : String
  repositoryRoot : String
  workspacePath : String
  branch : String
  graphDigest : String
  reviewBaseSha : String
  candidateSha : String
  candidateTree : String
  candidateParents : List String
  changedPaths : List String
  changedPathsSha256 : String
  protectedPathsSha256 : String
  observedTrunkHead : String
deriving DecidableEq

structure AdoptedFact where
  candidateSha : String
  candidateDisposition : CandidateDisposition
  candidateWorkspace : CandidateWorkspace
  dispatchId : Option DispatchValue
  terminalStatus : Option TerminalStatus
  blocker : Option TypedBlocker
  adoptionReceipt : Option AdoptionReceipt
deriving DecidableEq

structure ReconciledFact where
  candidateSha : String
  terminalStatus : TerminalStatus
  blocker : TypedBlocker
  dispatchId : Option DispatchValue
deriving DecidableEq

structure ReviewFact where
  reviewId : String
  reviewerRole : String
  acceptanceMode : AcceptanceMode
  accepted : Bool
  findingIds : List String
  promotionBlocking : Bool
  acceptanceCriteriaSha256 : Option String
  subject : Subject
deriving DecidableEq

inductive EffectState where
  | applied
  | failed (errorCode : String)
deriving DecidableEq

/-- A lifecycle fact, by its kind; `candidate_recorded` has two forms of data. -/
inductive Fact where
  | candidateRecorded (candidateSha : String)
  | executorCandidate (terminal : TerminalFact)
  | executorTerminal (terminal : TerminalFact)
  | candidateAdopted (adopted : AdoptedFact)
  | candidateSuperseded (predecessorSha candidateSha : String) (dispatchId : Option DispatchValue)
  | candidateReconciled (reconciled : ReconciledFact)
  | reviewCompleted (review : ReviewFact)
  | repairRequested (candidateSha : Option String) (findingIds : List String)
  | candidateBlockerResolved (candidateSha blockerGateId : String)
      (blockerResolution : BlockerResolution)
  | promotionAccepted (subject : Subject) (reviewIds : List String)
  | integrationCompleted (candidateSha receiptSha256 afterTrunkHead : String)
  | evidenceRecorded (evidenceSha256 : String)
  | evidenceInvalidated (evidenceSha256 : String) (blocker : TypedBlocker)
  | programEffect (actionId effectId : String) (state : EffectState)
deriving DecidableEq

namespace Subject

def candidateSha? (s : Subject) : Option String :=
  if s.kind = .commit then some s.digest else none

def evidenceSha256? (s : Subject) : Option String :=
  if s.kind = .runtimeEvidence then some s.digest else none

end Subject

namespace Fact

/-- `data.get("candidate_sha")`, when it is a text. -/
def candidateSha? : Fact → Option String
  | candidateRecorded c => some c
  | executorCandidate t => t.candidateSha
  | executorTerminal t => t.candidateSha
  | candidateAdopted a => some a.candidateSha
  | candidateSuperseded _ c _ => some c
  | candidateReconciled r => some r.candidateSha
  | reviewCompleted r => r.subject.candidateSha?
  | repairRequested c _ => c
  | candidateBlockerResolved c _ _ => some c
  | promotionAccepted s _ => s.candidateSha?
  | integrationCompleted c _ _ => some c
  | evidenceRecorded _ => none
  | evidenceInvalidated _ _ => none
  | programEffect .. => none

def evidenceSha256? : Fact → Option String
  | executorCandidate t => t.evidenceSha256
  | executorTerminal t => t.evidenceSha256
  | reviewCompleted r => r.subject.evidenceSha256?
  | promotionAccepted s _ => s.evidenceSha256?
  | evidenceRecorded e => some e
  | evidenceInvalidated e _ => some e
  | _ => none

def blocker? : Fact → Option TypedBlocker
  | executorCandidate t => t.blocker
  | executorTerminal t => t.blocker
  | candidateAdopted a => a.blocker
  | candidateReconciled r => some r.blocker
  | evidenceInvalidated _ b => some b
  | _ => none

def candidateDisposition? : Fact → Option CandidateDisposition
  | executorCandidate t => some t.candidateDisposition
  | executorTerminal t => some t.candidateDisposition
  | candidateAdopted a => some a.candidateDisposition
  | _ => none

def dispatchId? : Fact → Option DispatchValue
  | executorCandidate t => t.dispatchId
  | executorTerminal t => t.dispatchId
  | candidateAdopted a => a.dispatchId
  | candidateSuperseded _ _ d => d
  | candidateReconciled r => r.dispatchId
  | _ => none

def review? : Fact → Option ReviewFact
  | reviewCompleted r => some r
  | _ => none

def findingIds : Fact → List String
  | reviewCompleted r => r.findingIds
  | repairRequested _ findings => findings
  | _ => []

def adoptionReceipt? : Fact → Option AdoptionReceipt
  | candidateAdopted a => a.adoptionReceipt
  | _ => none

/-- The terminal fact of an `executor_terminal`. -/
def executorTerminal? : Fact → Option TerminalFact
  | executorTerminal t => some t
  | _ => none

/-- The candidate of a `candidate_recorded`. -/
def recordedCandidate? : Fact → Option String
  | candidateRecorded c => some c
  | executorCandidate t => t.candidateSha
  | _ => none

def reconciled? : Fact → Option ReconciledFact
  | candidateReconciled r => some r
  | _ => none

def effect? : Fact → Option (String × String × EffectState)
  | programEffect actionId effectId state => some (actionId, effectId, state)
  | _ => none

def isPromotionOf (subject : Subject) : Fact → Bool
  | promotionAccepted s _ => s = subject
  | _ => false

/-- `_fact_subject_wire` -/
def subject? (fact : Fact) : Option Subject :=
  (fact.candidateSha?.map .commit).or (fact.evidenceSha256?.map .evidence)

end Fact

/-! ### What a journal says of the milestone -/

/-- `_program_candidate_sha` -/
def programCandidateSha (facts : List Fact) : Option String :=
  Journal.latest Fact.candidateSha? facts

/-- `_program_subject` -/
def programSubject (facts : List Fact) : Option Subject := Journal.latest Fact.subject? facts

/-- The executor generation that a fact records for the candidate. -/
def Fact.generationOf (candidateSha : String) (fact : Fact) : ℕ :=
  if fact.candidateSha? = some candidateSha then
    (fact.dispatchId?.bind (·.executorGeneration?)).getD 0
  else 0

/-- `_candidate_dispatch_generation` -/
def candidateDispatchGeneration (facts : List Fact) (candidateSha : String) : ℕ :=
  facts.foldl (fun generation fact => max generation (fact.generationOf candidateSha)) 0

/-! ### Blockers -/

def closeBlocker (blocker : Option TypedBlocker) : Fact → Checked (Option TypedBlocker)
  | .candidateBlockerResolved _ gateId _ => do
    ensure (blocker.any (·.gateId = gateId))
      (.corruptSchema "program blocker resolution is stale or malformed")
    pure none
  | _ => pure blocker

/-- One fact of `_program_candidate_blocker`. -/
def readBlocker (candidateSha : String) (blocker : Option TypedBlocker) (fact : Fact) :
    Checked (Option TypedBlocker) :=
  if fact.candidateSha? = some candidateSha then closeBlocker (fact.blocker?.or blocker) fact
  else pure blocker

/-- `_program_candidate_blocker` -/
def programCandidateBlocker (facts : List Fact) (candidateSha : String) :
    Checked (Option TypedBlocker) :=
  facts.foldlM (readBlocker candidateSha) none

/-! ### The projection of the status -/

/-- What `_program_status_from_row` accumulates over the facts of a milestone. -/
structure NodeProjection where
  candidate : Option String := none
  candidateDisposition : Option CandidateDisposition := none
  blocker : Option TypedBlocker := none
  evidenceSha256 : Option String := none
  reviews : List String := []
  findings : List String := []
deriving DecidableEq

namespace NodeProjection

variable (n : NodeProjection) (fact : Fact)

/-- A blocker belongs to one candidate. -/
def readCandidate : NodeProjection :=
  match fact.candidateSha? with
  | none => n
  | some c =>
    { n with
      blocker := if n.candidate = some c then n.blocker else none
      candidate := some c
      candidateDisposition := some .verifiedCommit }

def readEvidence : NodeProjection :=
  match fact.evidenceSha256? with
  | none => n
  | some e =>
    { n with
      blocker := if n.evidenceSha256 = some e then n.blocker else none
      evidenceSha256 := some e }

def subjectMatches : Bool :=
  if n.candidate.isSome then fact.candidateSha? = n.candidate
  else fact.evidenceSha256? = n.evidenceSha256

/-- The facts that overwrite the disposition and the blocker. -/
def readTerminal : NodeProjection :=
  { n with
    candidateDisposition := fact.candidateDisposition?.or n.candidateDisposition
    blocker := if n.subjectMatches fact then fact.blocker?.or n.blocker else n.blocker }

def readReview : NodeProjection :=
  { n with
    reviews := n.reviews ++ (fact.review?.map (·.reviewId)).toList
    findings := n.findings ++ fact.findingIds }

/-- One fact of `_program_status_from_row`. -/
def read : Checked NodeProjection := do
  let n := ((n.readCandidate fact).readEvidence fact).readTerminal fact
  let blocker ← closeBlocker n.blocker fact
  pure ({ n with blocker := blocker }.readReview fact)

end NodeProjection

/-- The loop of `_program_status_from_row` over the facts of a milestone. -/
def projectFacts (facts : List Fact) : Checked NodeProjection :=
  facts.foldlM NodeProjection.read {}

end CodexFlow.Programs
