import CodexFlow.Ledger.CommandRows

/-!
# Sending a control command

The terminal client sends a steer or an interrupt over a connection of its own, asks for the status
of the command where no reply was observed, and sends the command once more under the same id where
the status is absent. Requests may stay under way for as long as they like or for ever, replies too,
and the harness binds the turns of its workers meanwhile.
-/

namespace CodexFlow.TerminalUi

open Ledger Checked
open ControlLedger (CommandRequest ControlOp)

/-! ### The harness -/

/-- The control commands with the turns that the workers have bound, `_active_turns`. -/
structure Harness where
  ledger : ControlLedger := {}
  activeTurns : DispatchId → Option TurnIdentity := fun _ => none

/-- What goes to the harness: `steer` and `interrupt`, or `control_status`. -/
inductive Request where
  | send (q : CommandRequest)
  | status (commandId : String)

def Request.commandId : Request → String
  | .send q => q.commandId
  | .status commandId => commandId

/-- A row, or `"command": null`; or `request_rejected`. -/
inductive Reply where
  | command (c : Option ControlCommand)
  | rejected
deriving DecidableEq

/-- The turn and the text of a request, as `_validate_turn` and the callers of it have them in the
client and `_control_identity` and `_create_control` in the harness. -/
def wellFormed (env : ControlEnv) (q : CommandRequest) : Bool :=
  1 ≤ q.turn.generation && 1 ≤ q.turn.attempt && env.isThreadIdentity q.turn.threadId &&
    env.isTurnIdentity q.turn.turnId && env.isCommandId q.commandId &&
    match q.kind, q.payload with
    | .steer, some text => !env.isBlank text && text.utf8ByteSize ≤ 8192
    | .interrupt, none => true
    | _, _ => false

namespace Harness

variable (env : ControlEnv) (h : Harness)

/-- `_create_control` -/
def createControl (q : CommandRequest) (now : Time) : Checked ControlLedger := do
  ensure (wellFormed env q) (.valueError "live control request is invalid")
  ensure ((h.activeTurns q.dispatchId).isSome)
    (.valueError "live control turn is not currently bound")
  ensure (h.activeTurns q.dispatchId = some q.turn) (.valueError "live control identity is stale")
  h.ledger.call env (.create q now)

/-- `_request_ack`: whatever is raised is answered as a rejection. -/
def serve (now : Time) : Request → Harness × Reply
  | .send q =>
    match h.createControl env q now with
    | .ok ledger => ({ h with ledger := ledger }, .command (ledger.command? q.commandId))
    | .error _ => (h, .rejected)
  | .status commandId => (h, .command (h.ledger.command? commandId))

end Harness

/-! ### The client -/

/-- A worker as the last refresh has shown it. -/
structure LiveWorkerStatus where
  dispatchId : DispatchId
  generation : ℕ
  attempt : ℕ
  threadId : Option String
  activeTurnId : Option String

/-- `steer` or `interrupt` of the client. -/
inductive Mutation where
  | steer (text : String)
  | interrupt

def Mutation.kind : Mutation → ControlCommandKind
  | .steer _ => .steer
  | .interrupt => .interrupt

def Mutation.payload : Mutation → Option String
  | .steer text => some text
  | .interrupt => none

/-- `_control_key`: what two requests share that mean the same. -/
structure ControlKey where
  dispatchId : DispatchId
  turn : TurnIdentity
  kind : ControlCommandKind
  payloadSha256 : String
deriving DecidableEq

def controlKey (env : ControlEnv) (q : CommandRequest) : ControlKey where
  dispatchId := q.dispatchId
  turn := q.turn
  kind := q.kind
  payloadSha256 := env.sha256 ((q.payload.map env.redactSteerText).getD "")

/-- `_PendingControlRequest` -/
structure PendingControlRequest where
  command : CommandRequest
  payloadSha256 : String
  resendUsed : Bool := false
  uncertain : Bool := false

namespace PendingControlRequest

def of (env : ControlEnv) (q : CommandRequest) : PendingControlRequest where
  command := q
  payloadSha256 := (controlKey env q).payloadSha256

variable (r : PendingControlRequest)

def key : ControlKey := ⟨r.command.dispatchId, r.command.turn, r.command.kind, r.payloadSha256⟩

/-- `_matches_request` -/
def matchesCommand (c : ControlCommand) : Bool :=
  c.commandId = r.command.commandId && c.dispatchId = r.command.dispatchId &&
    c.turn = r.command.turn && c.kind = r.command.kind && c.payloadSha256 = r.payloadSha256

end PendingControlRequest

inductive Outcome where
  | accepted
  | rejected
  | postSendUncertain
deriving DecidableEq

/-- `_command_result` -/
def commandOutcome : ControlCommandState → Outcome
  | .rejected => .rejected
  | .unresolved => .postSendUncertain
  | _ => .accepted

/-- `TerminalUiCommandResult` -/
structure CommandResult where
  operation : ControlCommandKind
  commandId : String
  outcome : Outcome
deriving DecidableEq

/-- What a running call of `_send_control` waits for. -/
inductive Waiting where
  /-- the status of a command that was uncertain before the call -/
  | status
  /-- the reply to the command that the call sent first -/
  | send
  /-- the status of a command whose reply was not observed -/
  | reconcile
  /-- the reply to the same command sent again -/
  | resend
deriving DecidableEq

structure Call where
  key : ControlKey
  waiting : Waiting
  connection : ℕ
deriving DecidableEq

/-- A connection to the harness; it has a reply once the harness has served it. -/
structure Connection where
  request : Request
  reply : Option Reply := none

/-- One client with its harness. The last three fields only record: the commands that the client has
created, the ids that it has sent, and the ids whose outcome it has reported as certain. -/
structure World where
  harness : Harness := {}
  connections : List Connection := []
  pending : ControlKey → Option PendingControlRequest := fun _ => none
  call : Option Call := none
  returned : Option CommandResult := none
  created : List CommandRequest := []
  sent : List String := []
  settled : List String := []

namespace World

variable (env : ControlEnv) (w : World)

def remember (key : ControlKey) (r : PendingControlRequest) : World :=
  { w with pending := Function.update w.pending key (some r) }

def connect (key : ControlKey) (waiting : Waiting) (request : Request) : World :=
  { w with
    connections := w.connections ++ [{ request := request }]
    call := some ⟨key, waiting, w.connections.length⟩ }

def query (key : ControlKey) (waiting : Waiting) (r : PendingControlRequest) : World :=
  w.connect key waiting (.status r.command.commandId)

def raise : World := { w with call := none }

/-- `send`: a request that the client itself refuses is raised, and not sent. -/
def send (key : ControlKey) (waiting : Waiting) (r : PendingControlRequest) : World :=
  if wellFormed env r.command then
    { w.connect key waiting (.send r.command) with sent := r.command.commandId :: w.sent }
  else w.raise

/-- The call returns; what is certain is no longer pending. -/
def report (key : ControlKey) (r : PendingControlRequest) (outcome : Outcome) : World :=
  let done := { w with
    call := none
    returned := some ⟨r.command.kind, r.command.commandId, outcome⟩ }
  if outcome = .postSendUncertain then done
  else
    { done with
      pending := Function.update w.pending key none
      settled := r.command.commandId :: w.settled }

/-- The call returns what the row of its command says. -/
def finish (key : ControlKey) (r : PendingControlRequest) (c : ControlCommand) : World :=
  if r.matchesCommand c then
    let outcome := commandOutcome c.state
    let r' := { r with uncertain := outcome = .postSendUncertain }
    (w.remember key r').report key r' outcome
  else w.raise

/-- No reply was observed, or none that can be used. -/
def unobserved (call : Call) (r : PendingControlRequest) : World :=
  match call.waiting with
  | .send =>
    let r' := { r with uncertain := true }
    (w.remember call.key r').query call.key .reconcile r'
  | _ => w.report call.key r .postSendUncertain

/-- The status of the command is absent: it is sent once more under its id. -/
def sendAgain (call : Call) (waiting : Waiting) (r : PendingControlRequest) : World :=
  if r.resendUsed then w.report call.key r .postSendUncertain
  else
    let r' := { r with resendUsed := true }
    (w.remember call.key r').send env call.key waiting r'

def resume (call : Call) (r : PendingControlRequest) : Reply → World
  | .command (some c) =>
    match call.waiting with
    | .status =>
      if r.matchesCommand c then w.report call.key r (commandOutcome c.state) else w.raise
    | _ => w.finish call.key r c
  | .command none =>
    match call.waiting with
    | .status => w.sendAgain env call .send r
    | .reconcile => w.sendAgain env call .resend r
    | _ => w.unobserved call r
  | .rejected =>
    match call.waiting with
    | .send | .resend => w.report call.key r .rejected
    | _ => w.unobserved call r

/-- A minted id is one that nobody has used. -/
def Fresh (commandId : String) : Prop :=
  w.harness.ledger.command? commandId = none ∧ ∀ q ∈ w.created, q.commandId ≠ commandId

instance (commandId : String) : Decidable (w.Fresh commandId) := by
  unfold Fresh
  infer_instance

/-- The first request for a key. -/
def file (q : CommandRequest) : World :=
  { w with
    pending := Function.update w.pending (controlKey env q) (some (.of env q))
    created := q :: w.created }

/-- The call looks for a pending request that means the same; without one it files its own. -/
def submit (q : CommandRequest) : World :=
  if q.payload.all fun text => !text.toList.contains '\x00' then
    match w.pending (controlKey env q) with
    | none =>
      if w.Fresh q.commandId then
        (w.file env q).send env (controlKey env q) .send (.of env q)
      else w
    | some r =>
      if r.key = controlKey env q then
        if r.uncertain then w.query (controlKey env q) .status r
        else w.send env (controlKey env q) .send r
      else w
  else w

/-- A call of `_send_control` begins, of a client that is connected and runs no other one. -/
def sendControl (status : LiveWorkerStatus) (m : Mutation) (minted : String) : World :=
  match w.call, status.threadId, status.activeTurnId with
  | none, some threadId, some turnId =>
    w.submit env
      { dispatchId := status.dispatchId, commandId := minted
        turn := ⟨status.generation, status.attempt, threadId, turnId⟩
        kind := m.kind, payload := m.payload }
  | _, _, _ => w

/-! ### The steps -/

inductive Event where
  /-- a call begins, with the id that it mints where it needs one -/
  | sendControl (status : LiveWorkerStatus) (m : Mutation) (minted : String)
  /-- the request of a connection reaches the harness -/
  | serve (connection : ℕ) (now : Time)
  /-- the harness answers a request before it has read it, its lease lost -/
  | turnAway (connection : ℕ)
  /-- the reply reaches the call that waits for it -/
  | receive
  /-- the call gives up waiting: a request or a reply was lost, late or malformed -/
  | unobserved
  /-- the next mutation of the terminal cancels the running call -/
  | cancel
  /-- a worker binds its turn, or leaves it -/
  | bind (dispatchId : DispatchId) (turn : Option TurnIdentity)
  /-- anybody else writes to the tables -/
  | write (op : ControlOp)

def unanswered (connection : ℕ) : Option Request :=
  (w.connections[connection]?).bind fun conn =>
    if conn.reply.isNone then some conn.request else none

def answer (connection : ℕ) (reply : Reply) : World :=
  { w with
    connections := w.connections.modify connection fun conn => { conn with reply := some reply } }

/-- Nobody else creates a command under an id of this client. -/
def Foreign (op : ControlOp) : Prop := ∀ q ∈ w.created, op.creates ≠ some q.commandId

instance (op : ControlOp) : Decidable (w.Foreign op) := by
  unfold Foreign
  infer_instance

/-- The reply that the running call waits for, when the harness has given it. -/
def reply? (call : Call) : Option Reply :=
  (w.connections[call.connection]?).bind Connection.reply

def apply (w : World) : Event → World
  | .sendControl status m minted => w.sendControl env status m minted
  | .serve connection now =>
    match w.unanswered connection with
    | some request =>
      let (harness, reply) := w.harness.serve env now request
      { w with harness := harness }.answer connection reply
    | none => w
  | .turnAway connection =>
    match w.unanswered connection with
    | some _ => w.answer connection .rejected
    | none => w
  | .receive =>
    match w.call with
    | some call =>
      match w.pending call.key, w.reply? call with
      | some r, some reply => w.resume env call r reply
      | _, _ => w
    | none => w
  | .unobserved =>
    match w.call with
    | some call =>
      match w.pending call.key with
      | some r => w.unobserved call r
      | none => w
    | none => w
  | .cancel => w.raise
  | .bind dispatchId turn =>
    { w with harness :=
      { w.harness with activeTurns := Function.update w.harness.activeTurns dispatchId turn } }
  | .write op =>
    if w.Foreign op then
      { w with harness := { w.harness with ledger := w.harness.ledger.next env op } }
    else w

/-- A step; what a call has returned is seen in the state that its return leads to. -/
def next (event : Event) : World := { w with returned := none }.apply env event

end World

end CodexFlow.TerminalUi
