import CodexFlow.Programs.Sizes
import CodexFlow.Programs.Events

/-!
# Programs within their bounds

The operations that drive a program open decisions, and its controller reads a context; each is
refused when a text that it derives is too long. An operation gets past its bounds exactly when the
identities, the lists and the texts that it derives from are short enough.
-/

namespace CodexFlow

namespace Programs

open Ledger (Time isGitSha isSha256)
open Checked
open Hook (Json lit)
open Capsule (textBytes quotedBytes separated decimal byteLength fieldBytes)

/-! ### The context of a controller -/

/-- `ProgramControllerNodeContext` -/
structure NodeContext where
  status : NodeStatus
  mutableSurfaces : List String
  acceptanceModes : List AcceptanceMode
  reviewRoles : List String
  ready : Bool

namespace NodeContext

variable (c : NodeContext)

def areTexts (limit : ℕ) (items : List String) : Bool :=
  items.Nodup && items.all fun item => item ≠ "" && item.utf8ByteSize ≤ limit

def check (env : Ledger.Env) : Checked Unit := do
  ensure c.status.dependencies.Nodup
    (.valueError "program node context dependencies are not unique")
  ensure (c.mutableSurfaces.length ≤ 256 ∧ areTexts 4096 c.mutableSurfaces)
    (.valueError "program node context mutable surfaces are invalid")
  ensure c.acceptanceModes.Nodup
    (.valueError "program node context acceptance modes are not unique")
  ensure (areTexts 256 c.reviewRoles) (.valueError "program node context review_roles are invalid")
  ensure (areTexts 256 c.status.reviewIds)
    (.valueError "program node context review_ids are invalid")
  ensure (areTexts 256 c.status.findingIds)
    (.valueError "program node context finding_ids are invalid")
  ensure (c.status.candidateSha.all isGitSha)
    (.valueError "program node context candidate is invalid")
  ensure (c.status.evidenceSha256.all isSha256)
    (.valueError "program node context evidence must be a lowercase digest")
  ensure (c.status.unsatisfiedGateIds.length ≤ 128 ∧ c.status.unsatisfiedGateIds.Nodup ∧
      c.status.unsatisfiedGateIds.all fun gate => !env.isBlank gate)
    (.valueError "program node context unsatisfied gates are invalid")

def json : Json := .obj
  [(lit "acceptance_modes", jsonTexts (c.acceptanceModes.map (·.value))),
    (lit "blocker", c.status.blocker.elim .null (·.json)),
    (lit "candidate_disposition", jsonOption (c.status.candidateDisposition.map (·.value))),
    (lit "candidate_sha", jsonOption c.status.candidateSha),
    (lit "closure_satisfied", .bool c.status.closureSatisfied),
    (lit "dependencies", jsonTexts c.status.dependencies),
    (lit "evidence_sha256", jsonOption c.status.evidenceSha256),
    (lit "finding_ids", jsonTexts c.status.findingIds),
    (lit "integrated", .bool c.status.integrated),
    (lit "integration_mode", jsonText c.status.outcome.integrationMode),
    (lit "milestone_id", jsonText c.status.milestoneId),
    (lit "mutable_surfaces", jsonTexts c.mutableSurfaces),
    (lit "outcome_kind", jsonText c.status.outcome.kind.value),
    (lit "ready", .bool c.ready),
    (lit "review_ids", jsonTexts c.status.reviewIds),
    (lit "review_roles", jsonTexts c.reviewRoles),
    (lit "state", jsonText c.status.state.value),
    (lit "unsatisfied_gate_ids", jsonTexts c.status.unsatisfiedGateIds)]

def flagBytes (b : Bool) : ℕ := if b then 4 else 5

def bytes : ℕ :=
  303 + listBytes (c.acceptanceModes.map (·.value)) + c.status.blocker.elim 4 (·.bytes) +
    optionBytes (c.status.candidateDisposition.map (·.value)) +
    optionBytes c.status.candidateSha + flagBytes c.status.closureSatisfied +
    listBytes c.status.dependencies + optionBytes c.status.evidenceSha256 +
    listBytes c.status.findingIds + flagBytes c.status.integrated +
    stringBytes c.status.outcome.integrationMode + stringBytes c.status.milestoneId +
    listBytes c.mutableSurfaces + stringBytes c.status.outcome.kind.value + flagBytes c.ready +
    listBytes c.status.reviewIds + listBytes c.reviewRoles + stringBytes c.status.state.value +
    listBytes c.status.unsatisfiedGateIds

theorem textBytes_json : textBytes c.json = c.bytes := by
  have h₁ : quotedBytes (lit "acceptance_modes") = 18 := rfl
  have h₂ : quotedBytes (lit "blocker") = 9 := rfl
  have h₃ : quotedBytes (lit "candidate_disposition") = 23 := rfl
  have h₄ : quotedBytes (lit "candidate_sha") = 15 := rfl
  have h₅ : quotedBytes (lit "closure_satisfied") = 19 := rfl
  have h₆ : quotedBytes (lit "dependencies") = 14 := rfl
  have h₇ : quotedBytes (lit "evidence_sha256") = 17 := rfl
  have h₈ : quotedBytes (lit "finding_ids") = 13 := rfl
  have h₉ : quotedBytes (lit "integrated") = 12 := rfl
  have h₁₀ : quotedBytes (lit "integration_mode") = 18 := rfl
  have h₁₁ : quotedBytes (lit "milestone_id") = 14 := rfl
  have h₁₂ : quotedBytes (lit "mutable_surfaces") = 18 := rfl
  have h₁₃ : quotedBytes (lit "outcome_kind") = 14 := rfl
  have h₁₄ : quotedBytes (lit "ready") = 7 := rfl
  have h₁₅ : quotedBytes (lit "review_ids") = 12 := rfl
  have h₁₆ : quotedBytes (lit "review_roles") = 14 := rfl
  have h₁₇ : quotedBytes (lit "state") = 7 := rfl
  have h₁₈ : quotedBytes (lit "unsatisfied_gate_ids") = 22 := rfl
  unfold json bytes flagBytes
  simp only [Capsule.textBytes_obj, List.map_cons, List.map_nil, fieldBytes, separated, h₁, h₂, h₃,
    h₄, h₅, h₆, h₇, h₈, h₉, h₁₀, h₁₁, h₁₂, h₁₃, h₁₄, h₁₅, h₁₆, h₁₇, h₁₈, textBytes_jsonText,
    textBytes_jsonTexts, textBytes_jsonOption, Payload.textBytes_blocker, Capsule.textBytes_bool,
    List.sum_cons, List.sum_nil, List.length_cons, List.length_nil]
  omega

end NodeContext

/-- `ProgramControllerContext` -/
structure ControllerContext where
  programId : String
  programRevision : ℕ
  planDigest : String
  planPath : String
  trunkHead : String
  nodes : List NodeContext

namespace ControllerContext

variable (c : ControllerContext)

def json : Json := .obj
  [(lit "nodes", .arr (c.nodes.map (·.json))),
    (lit "plan_digest", jsonText c.planDigest),
    (lit "plan_path", jsonText c.planPath),
    (lit "program_id", jsonText c.programId),
    (lit "program_revision", .int c.programRevision),
    (lit "schema_version", .int (1 : ℕ)),
    (lit "trunk_head", jsonText c.trunkHead)]

def bytes : ℕ :=
  107 + separated (c.nodes.map (·.bytes)) + stringBytes c.planDigest + stringBytes c.planPath +
    stringBytes c.programId + byteLength (decimal c.programRevision) + stringBytes c.trunkHead

theorem textBytes_json : textBytes c.json = c.bytes := by
  have h₁ : quotedBytes (lit "nodes") = 7 := rfl
  have h₂ : quotedBytes (lit "plan_digest") = 13 := rfl
  have h₃ : quotedBytes (lit "plan_path") = 11 := rfl
  have h₄ : quotedBytes (lit "program_id") = 12 := rfl
  have h₅ : quotedBytes (lit "program_revision") = 18 := rfl
  have h₆ : quotedBytes (lit "schema_version") = 16 := rfl
  have h₇ : quotedBytes (lit "trunk_head") = 12 := rfl
  have hone : byteLength (decimal 1) = 1 := rfl
  have hnodes : (c.nodes.map (·.json)).map textBytes = c.nodes.map (·.bytes) := by
    rw [List.map_map]
    exact List.map_congr_left fun n _ => n.textBytes_json
  unfold json bytes
  simp only [Capsule.textBytes_obj, List.map_cons, List.map_nil, fieldBytes, h₁, h₂, h₃, h₄, h₅,
    h₆, h₇, hone, Capsule.textBytes_arr, hnodes, textBytes_jsonText, Capsule.textBytes_nat]
  generalize separated (c.nodes.map (·.bytes)) = nodes
  simp only [separated, List.sum_cons, List.sum_nil, List.length_cons, List.length_nil]
  omega

def check : Checked Unit := do
  ensure (isSha256 c.planDigest) (.valueError "program controller context plan digest is invalid")
  ensure (isGitSha c.trunkHead) (.valueError "program controller context trunk HEAD is invalid")
  ensure (textBytes c.json ≤ 48 * 1024)
    (.valueError "program controller context exceeds the IPC prompt boundary")

end ControllerContext

def checkNodes (env : Ledger.Env) : List NodeContext → Checked Unit
  | [] => pure ()
  | c :: contexts => do
    c.check env
    checkNodes env contexts

theorem checkNodes_iff {env : Ledger.Env} {contexts : List NodeContext} {u : Unit} :
    checkNodes env contexts = .ok u ↔ ∀ c ∈ contexts, c.check env = .ok () := by
  induction contexts with
  | nil => exact iff_of_true rfl fun _ hmem => (List.not_mem_nil hmem).elim
  | cons c contexts ih =>
    rw [checkNodes, bind_eq_ok, List.forall_mem_cons, ← ih]
    exact ⟨fun ⟨_, h⟩ => h, fun h => ⟨(), h⟩⟩

namespace Program

variable (P : Program)

def nodeContexts (nodes : List NodeStatus) : List NodeContext :=
  List.zipWith (fun s (entry : String × Milestone) =>
    { status := s
      mutableSurfaces := entry.2.node.mutableSurfaces
      acceptanceModes := entry.2.node.acceptanceModes
      reviewRoles := entry.2.eligibleReviewRoles entry.2.subject
      ready := s.milestoneId ∈ readyMilestones nodes }) nodes P.milestones.entries

def controllerContext (planPath : String) (nodes : List NodeStatus) : ControllerContext where
  programId := P.programId
  programRevision := P.revision
  planDigest := P.planDigest
  planPath := planPath
  trunkHead := P.trunkHead
  nodes := P.nodeContexts nodes

/-- `program_controller_context`, of a graph that was read from the path. -/
def programControllerContext (env : Ledger.Env) (planPath : String) (expectedRevision : ℕ)
    (expectedTrunkHead : String) : Checked ControllerContext := do
  ensure (isGitSha expectedTrunkHead) (.valueError "program context trunk HEAD is invalid")
  ensure (P.revision = expectedRevision ∧ P.trunkHead = expectedTrunkHead)
    (.staleWriter "program context identity is stale")
  let nodes ← P.nodes
  checkNodes env (P.nodeContexts nodes)
  (P.controllerContext planPath nodes).check
  pure (P.controllerContext planPath nodes)

/-- The nodes are readable and what they show is short enough, together with the identities. -/
def ContextFits (env : Ledger.Env) (planPath : String) : Prop :=
  isSha256 P.planDigest ∧ isGitSha P.trunkHead ∧ ∃ nodes, P.nodes = .ok nodes ∧
    (∀ c ∈ P.nodeContexts nodes, c.check env = .ok ()) ∧
    107 + separated ((P.nodeContexts nodes).map (·.bytes)) + stringBytes P.planDigest +
      stringBytes planPath + stringBytes P.programId + byteLength (decimal P.revision) +
      stringBytes P.trunkHead ≤ 49152

theorem programControllerContext_iff (env : Ledger.Env) (planPath : String) :
    (∃ c, P.programControllerContext env planPath P.revision P.trunkHead = .ok c) ↔
      P.ContextFits env planPath := by
  unfold programControllerContext ContextFits ControllerContext.check
  simp only [steps_ok, and_self, true_and, ControllerContext.textBytes_json, checkNodes_iff]
  constructor
  · rintro ⟨-, hhead, nodes, hnodes, hcheck, ⟨hdigest, -, hsize⟩, -⟩
    exact ⟨hdigest, hhead, nodes, hnodes, hcheck, hsize⟩
  · rintro ⟨hdigest, hhead, nodes, hnodes, hcheck, hsize⟩
    exact ⟨_, hhead, nodes, hnodes, hcheck, ⟨hdigest, hhead, hsize⟩, rfl⟩

def opening (programId : String) (payload : Payload) : Opening where
  programId := programId
  revision := P.revision
  planDigest := P.planDigest
  trunkHead := P.trunkHead
  payload := payload

end Program

/-! ### The decisions that an operation opens -/

namespace Program

variable {P P' : Program}

def resultPayload (milestoneId : String) (q : ExecutorResult) (event : NewEvent) : Payload :=
  if event.kind = .implementationCompleted then .candidate milestoneId (q.candidateSha.getD "")
  else .terminal milestoneId q

end Program

namespace System

variable (host : Host) (S : System)

def facts (programId : String) : Ledger.ProgramFacts :=
  ((S.programs.get? programId).map (·.facts)).getD ⟨true, 0, "", ""⟩

def staleDecisionIds (programId : String) : List String :=
  ((S.ledger.programDecisions.entries.filter fun entry =>
      entry.1.programId = programId && entry.2.isStale (S.facts programId)).map fun entry =>
    s!"decision/program/{programId}/{eventKindValue entry.1.eventKind}/{entry.1.eventKey}").mergeSort
      (· ≤ ·)

/-- The fresh events of programs whose decisions went stale. -/
def coalescedOpenings : List String → Checked (List Opening)
  | [] => pure []
  | programId :: programs => do
    let P ← S.program programId
    let nodes ← P.nodes
    let openings ← coalescedOpenings programs
    pure (P.opening programId
      (.coalesced ((S.staleDecisionIds programId).take 128) (readyMilestones nodes)) :: openings)

/-- The decisions that an operation on a program opens once its own checks pass. -/
def openings : Op → Checked (List Opening)
  | .call programId (.start eventKey) now => do
    let P ← S.program programId
    let (P', _) ← P.run host.digests now (.start eventKey)
    ensure (Ledger.isEventKey eventKey) (.valueError "program event key is invalid")
    let nodes ← P'.nodes
    pure [P'.opening programId (.start eventKey (readyMilestones nodes))]
  | .call programId (.executorResult milestoneId q) now => do
    let P ← S.program programId
    let (P', event) ← P.run host.digests now (.executorResult milestoneId q)
    pure ((event.map fun e => P'.opening programId (Program.resultPayload milestoneId q e)).toList)
  | .reconcileStale _ => do
    ensure (S.ledger.programDecisions.keys.all fun event => (S.facts event.programId).capable)
      (.staleWriter "approval_capability_unavailable")
    let stale := (S.ledger.programDecisions.entries.filter fun entry =>
      entry.2.isStale (S.facts entry.1.programId)).map (·.1.programId)
    S.coalescedOpenings
      (stale.dedup.filter fun id => (S.programs.get? id).any (·.isOpen))
  | .effect actionId effectId state _ => do
    EffectState.check state
    match S.actions.find? (·.actionId = actionId) with
    | none => .error (.recordNotFound s!"program action does not exist: {actionId}")
    | some action => do
      let P ← S.program action.event.programId
      let (P', isNew) ← P.recordActionEffect actionId effectId action.bundle state
      match isNew, state with
      | true, .failed code =>
        pure [P'.opening action.event.programId (.effectFailed actionId effectId code)]
      | _, _ => pure []
  | _ => pure []

def knows (o : Opening) : Bool := (S.ledger.programDecisions.get? o.event).isSome

def checkOpenings : List Opening → Checked Unit
  | [] => pure ()
  | o :: openings => do
    o.check (S.knows o)
    checkOpenings openings

/-- An operation with the bounds on what it derives. -/
def performBounded (op : Op) : Checked System := do
  let openings ← S.openings host op
  S.checkOpenings openings
  S.perform host op

/-- No bound refuses the operation. -/
def Drives (op : Op) : Prop :=
  ∀ openings, S.openings host op = .ok openings → S.checkOpenings openings = .ok ()

/-- What the operation derives from is short enough. -/
def Fits (op : Op) : Prop :=
  ∀ openings, S.openings host op = .ok openings → ∀ o ∈ openings, o.Fits (S.knows o)

theorem checkOpenings_iff {events : List Opening} :
    S.checkOpenings events = .ok () ↔ ∀ o ∈ events, o.Fits (S.knows o) := by
  induction events with
  | nil => exact iff_of_true rfl fun _ hmem => (List.not_mem_nil hmem).elim
  | cons o events ih =>
    rw [checkOpenings, bind_eq_ok, List.forall_mem_cons, ← ih, ← Opening.check_iff]
    exact ⟨fun ⟨_, h⟩ => h, fun h => ⟨(), h⟩⟩

/-- An operation that its bounds do not refuse is performed as without them. -/
theorem Drives.perform {op : Op} (h : S.Drives host op) {events : List Opening}
    (hevents : S.openings host op = .ok events) :
    S.performBounded host op = S.perform host op := by
  unfold performBounded
  rw [hevents, ok_bind, h events hevents, ok_bind]

/-- The operations that drive the programs get past their bounds, and the context of every program
is read at its revision and trunk head. -/
def Drivable (planPath : String → String) : Prop :=
  (∀ op, S.Drives host op) ∧ ∀ id P, S.programs.get? id = some P →
    ∃ c, P.programControllerContext host.ledger (planPath id) P.revision P.trunkHead = .ok c

end System

/-! ### A milestone with a long name -/

def longId : String := String.ofList (List.replicate 128 'a')

/-- The program with one milestone, whose name is as long as a name may be, is started, and the
executor of the milestone is claimed. -/
def longRun : List Op :=
  [.register { sampleGraph .git with
      nodes := ⟨[(longId, sampleNode .git)], List.nodup_singleton _⟩ },
    .call "run" (.start "start") 1, claimed startEvent 2,
    submitted (sampleBundle startEvent 1 sampleTrunk [.startReadyMilestones [longId]] "first") 3,
    .call "run" (.claimDispatch longId executor) 4]

def longResult : ExecutorResult where
  candidateSha := none
  terminalStatus := .failed
  dispatchId := some (.dispatch ⟨"run", longId, executor, 1⟩)
  resultSha256 := none
  record := none
  blocker := none

end Programs

end CodexFlow
