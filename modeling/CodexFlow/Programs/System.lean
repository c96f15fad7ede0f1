import CodexFlow.Programs.Calls
import CodexFlow.Ledger.System

/-!
# Programs as a machine

The programs of a ledger together with the decisions of their events. A call on a program opens the
decision of its event, and a committed bundle changes the decision and the program in one
transaction.
-/

namespace CodexFlow.Programs

open Ledger (Time)
open Checked

/-- A row of `controller_action_outbox` of a program, with its bundle decoded. -/
structure CommittedAction where
  actionId : String
  event : Ledger.ProgramEvent
  bundle : ProgramBundle
deriving DecidableEq

/-- The ledger with its programs and their committed actions, in the order of their commits. -/
structure System where
  ledger : Ledger := {}
  programs : Table String Program := .empty
  actions : List CommittedAction := []

/-- Code outside the ledger: that of its tables, the digests, and the canonical JSON of actions. -/
structure Host where
  ledger : Ledger.Env
  digests : Digests
  actionsJson : List ProgramAction → String

def ProgramBundle.wire (host : Host) (b : ProgramBundle) : Ledger.ProgramActionBundle where
  decisionId := b.decisionId
  programId := b.programId
  planDigest := b.planDigest
  generation := b.generation
  eventKind := b.eventKind
  eventKey := b.eventKey
  expectedProgramRevision := b.expectedProgramRevision
  expectedTrunkHead := b.expectedTrunkHead
  actionsJson := host.actionsJson b.actions
  rationale := b.rationale

def ProgramBundle.actionId (host : Host) (b : ProgramBundle) : String :=
  (Ledger.ActionBundle.program (b.wire host)).actionId host.ledger

namespace Program

variable (P : Program)

def capable : Bool := P.milestones.entries.all fun entry => entry.2.node.approvalGates.isEmpty

/-- What the decisions of its events read of a program. -/
def facts : Ledger.ProgramFacts where
  capable := P.capable
  programRevision := P.revision
  planDigest := P.planDigest
  trunkHead := P.trunkHead

/-- A stale revision of the program gets a fresh event. -/
def isOpen : Bool := P.state ∉ [.completed, .failed]

end Program

namespace System

variable (host : Host) (S : System)

def program (programId : String) : Checked Program :=
  match S.programs.get? programId with
  | none => .error (.recordNotFound s!"program does not exist: {programId}")
  | some P => pure P

def setProgram (programId : String) (P : Program) : System :=
  { S with programs := S.programs.set programId P }

def queueStates : QueueStates := fun d => (S.ledger.dispatches.get? d.text).map (·.queue.state)

def openEvent (programId : String) (P : Program) (event : Option NewEvent) (now : Time) :
    Checked Ledger :=
  match event with
  | none => pure S.ledger
  | some e => S.ledger.ensureProgramDecision ⟨programId, e.kind, e.key⟩ P.facts none now

/-- `register_program` -/
def registerProgram (g : ProgramGraph) : Checked System := do
  let P ← g.register
  match S.programs.get? g.programId with
  | none => pure { S with programs := S.programs.insert g.programId P }
  | some existing => do
    ensure (existing.planDigest = P.planDigest ∧
        existing.integrationStrategy = P.integrationStrategy ∧
        existing.registeredTrunkHead = P.registeredTrunkHead ∧
        existing.milestones.entries.map (fun entry => (entry.1, entry.2.node)) = g.nodes.entries ∧
        existing.trunkHead = P.trunkHead)
      (.staleWriter "program registration conflicts with its durable graph")
    let _ ← existing.nodes
    pure S

/-- An operation on the rows of a program. -/
def callProgram (programId : String) (call : Call) (now : Time) : Checked System := do
  let P ← S.program programId
  let (P', event) ← P.run host.digests now call
  let ledger ← S.openEvent programId P' event now
  pure { S.setProgram programId P' with ledger := ledger }

/-! ### Decisions -/

/-- `record_program_event` -/
def recordEvent (event : Ledger.ProgramEvent) (deadline : Option Time) (now : Time) :
    Checked System := do
  let P ← S.program event.programId
  pure { S with ledger := ← S.ledger.recordProgramEvent event P.facts deadline now }

/-- `reconcile_stale_program_controller_decisions` -/
def reconcileStale (now : Time) : Checked System := do
  let ledger ← S.ledger.reconcileStaleDecisions
    (fun id => ((S.programs.get? id).map (·.facts)).getD ⟨true, 0, "", ""⟩)
    (fun id => (S.programs.get? id).any (·.isOpen)) now
  pure { S with ledger := ledger }

/-- `claim_program_controller_decision` -/
def claimDecision (event : Ledger.ProgramEvent) (q : Ledger.ClaimRequest) (minted : String)
    (now : Time) : Checked System := do
  let P ← S.program event.programId
  pure { S with ledger := ← S.ledger.claimProgramDecision host.ledger event q P.facts minted now }

/-- An effect of the action has no outcome yet. -/
def hasPending (actionId : String) : Bool :=
  (S.actions.find? (·.actionId = actionId)).any fun action =>
    action.bundle.externalEffects.any fun effect =>
      (S.programs.get? action.event.programId).all (·.isPending actionId effect)

/-- The call with what the tables of the programs say of the effects of its action. -/
def withEffects : Ledger.DecisionOp → Ledger.DecisionOp
  | .acknowledge q => .acknowledge { q with pendingEffects := S.hasPending q.actionId }
  | call => call

/-- A call on the decision of a program: its inspections, its generations and its delivery. -/
def decide (event : Ledger.ProgramEvent) (call : Ledger.DecisionOp) (now : Time) :
    Checked System := do
  let P ← S.program event.programId
  pure { S with ledger :=
    ← S.ledger.onProgramDecision host.ledger event P.capable (S.withEffects call) now }

/-- A submission; the token is empty when a recovery submits an inspected bundle. -/
structure Submission where
  bundle : ProgramBundle
  claimantId : String
  token : String
  allowRecovered : Bool := false

def Submission.request (q : Submission) : Ledger.ProgramSubmitRequest where
  bundle := q.bundle.wire host
  claimantId := q.claimantId
  token := q.token
  allowRecovered := q.allowRecovered

def isCommitted (event : Ledger.ProgramEvent) : Bool :=
  (S.ledger.programDecisions.get? event).any (·.decision.outbox.isSome)

/-- `submit_program_controller_actions` -/
def submit (q : Submission) (now : Time) : Checked System :=
  match q.bundle.decisionId with
  | .dispatch .. => .error (.recordNotFound "program controller decision does not exist")
  | .program event => do
    q.bundle.check
    let P ← S.program q.bundle.programId
    ensure (q.allowRecovered → q.bundle.programId = event.programId)
      (.staleWriter "program controller recovery bundle identity is stale")
    let committed := P.commitActions host.digests S.queueStates q.bundle now
    let ledger ← S.ledger.submitProgramActions host.ledger event (q.request host) P.facts
      (committed.map fun _ => ()) now
    if S.isCommitted event then pure S
    else do
      let P' ← committed
      pure { S.setProgram q.bundle.programId P' with
        ledger := ledger
        actions := S.actions ++ [⟨q.bundle.actionId host, event, q.bundle⟩] }

/-- `[A-Za-z][A-Za-z0-9_]{0,127}` -/
def isErrorCode (text : String) : Bool :=
  text.length ≤ 128 &&
    match text.toList with
    | [] => false
    | c :: rest => c.isAlpha && rest.all fun d => d.isAlphanum || d = '_'

def EffectState.check : EffectState → Checked Unit
  | .applied => pure ()
  | .failed code =>
    ensure (isErrorCode code) (.valueError "program action effect failure code is invalid")

def EffectState.failure : EffectState → Option String
  | .applied => none
  | .failed code => some code

/-- `record_program_action_effect` -/
def recordEffect (actionId effectId : String) (state : EffectState) (now : Time) :
    Checked System := do
  EffectState.check state
  match S.actions.find? (·.actionId = actionId) with
  | none => .error (.recordNotFound s!"program action does not exist: {actionId}")
  | some action => do
    let P ← S.program action.event.programId
    let (P', isNew) ← P.recordActionEffect actionId effectId action.bundle state
    let ledger ← S.ledger.recordProgramEffect action.event
      { failure := if isNew then EffectState.failure state else none
        closes := P'.effectsClosed actionId action.bundle } P'.facts now
    pure { S.setProgram action.event.programId P' with ledger := ledger }

end System

/-! ### The machine -/

def viaProgram : Ledger.Op → Bool
  | .programEvent .. | .reconcileStaleDecisions .. | .claimProgramDecision .. => true
  | .programActions .. | .programEffect .. | .programDecision .. => true
  | _ => false

inductive Op where
  | ledger (op : Ledger.Op) (hop : viaProgram op = false)
  | register (graph : ProgramGraph)
  | call (programId : String) (call : Call) (now : Time)
  | event (event : Ledger.ProgramEvent) (deadline : Option Time) (now : Time)
  | reconcileStale (now : Time)
  | claimDecision (event : Ledger.ProgramEvent) (request : Ledger.ClaimRequest) (minted : String)
      (now : Time)
  | decide (event : Ledger.ProgramEvent) (call : Ledger.DecisionOp) (now : Time)
  | submit (submission : System.Submission) (now : Time)
  | effect (actionId effectId : String) (state : EffectState) (now : Time)

namespace System

variable (host : Host) (S : System)

def body : Op → Checked System
  | .ledger op _ => do pure { S with ledger := ← S.ledger.body host.ledger op }
  | .register graph => S.registerProgram graph
  | .call programId call now => S.callProgram host programId call now
  | .event event deadline now => S.recordEvent event deadline now
  | .reconcileStale now => S.reconcileStale now
  | .claimDecision event request minted now => S.claimDecision host event request minted now
  | .decide event call now => S.decide host event call now
  | .submit submission now => S.submit host submission now
  | .effect actionId effectId state now => S.recordEffect actionId effectId state now

/-- A call in its transaction. -/
def perform (op : Op) : Checked System := do
  ensure (S.ledger.Valid host.ledger) Ledger.rowsRejected
  let result ← S.body host op
  ensure (result.ledger.Valid host.ledger) Ledger.rowsRejected
  pure result

def next (op : Op) : System := (S.perform host op).toOption.getD S

/-- The systems that some run of calls builds. -/
def Reachable : Prop := ∃ ops, S = Machine.run (next host) {} ops

end System

end CodexFlow.Programs
