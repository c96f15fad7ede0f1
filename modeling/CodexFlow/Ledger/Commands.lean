import CodexFlow.Ledger.System

/-!
# Control commands

The table `control_commands`: steers and interrupts of one exact turn, sent to its worker and
acknowledged by it. The operations on the queue close the commands of an attempt that they retire.
-/

namespace CodexFlow.Ledger

open Checked

/-- `redact_control_text` of a payload, beside the other parameters. -/
structure ControlEnv extends Env where
  redactSteerText : String → String

inductive ControlCommandKind where
  | steer
  | interrupt
deriving DecidableEq

inductive ControlCommandState where
  | pending
  | sent
  | acknowledged
  | rejected
  | unresolved
deriving DecidableEq

/-- The command still waits for its worker. -/
def ControlCommandState.isOpen (state : ControlCommandState) : Bool := state ∈ [.pending, .sent]

/-- `acknowledgement_json` -/
structure Acknowledgement where
  detail : Option String := none
  terminalStatus : Option String := none
deriving DecidableEq

/-- The live turn that a command is for. -/
structure TurnIdentity where
  generation : ℕ
  attempt : ℕ
  threadId : String
  turnId : String
deriving DecidableEq

/-- A row of `control_commands`. -/
structure ControlCommand where
  commandId : String
  dispatchId : DispatchId
  submissionSequence : ℕ
  turn : TurnIdentity
  kind : ControlCommandKind
  payload : Option String
  payloadSha256 : String
  state : ControlCommandState
  acknowledgement : Option Acknowledgement := none
  createdAt : Time
  sentAt : Option Time := none
  acknowledgedAt : Option Time := none
deriving DecidableEq

/-- `CONTROL_ACKNOWLEDGEMENT_TERMINAL_STATUSES` -/
def acknowledgementTerminalStatuses : List String :=
  ["completed", "needs_decision", "external_blocked", "failed", "interrupted"]

namespace ControlCommand

variable (env : ControlEnv) (c : ControlCommand)

/-- The payload that the kind calls for, redacted and within its limit. -/
def PayloadValid : Prop :=
  match c.kind, c.payload with
  | .steer, some text =>
    !env.isBlank text ∧ text.utf8ByteSize ≤ 8192 ∧ !text.toList.contains '\x00' ∧
      env.redactSteerText text = text
  | .interrupt, none => True
  | _, _ => False

instance : Decidable (c.PayloadValid env) := by
  unfold PayloadValid
  split <;> infer_instance

/-- A command on its own, as the constructor and the validation of the rows see it. -/
structure Valid : Prop where
  commandId : env.isCommandId c.commandId
  turn : 1 ≤ c.turn.generation ∧ 1 ≤ c.turn.attempt ∧ env.isThreadIdentity c.turn.threadId ∧
    env.isTurnIdentity c.turn.turnId
  payload : c.PayloadValid env
  digest : c.payloadSha256 = env.sha256 (c.payload.getD "")
  acknowledged : c.state = .acknowledged → c.acknowledgedAt.isSome ∧ c.acknowledgement.isSome
  answered : c.acknowledgement.isSome → c.state ∈ [.acknowledged, .rejected, .unresolved]
  detail : ∀ a ∈ c.acknowledgement, a.detail.all (fun text => env.redactControlText text = text) ∧
    a.terminalStatus.all (· ∈ acknowledgementTerminalStatuses)

instance : Decidable (c.Valid env) :=
  decidable_of_iff (env.isCommandId c.commandId ∧
    (1 ≤ c.turn.generation ∧ 1 ≤ c.turn.attempt ∧ env.isThreadIdentity c.turn.threadId ∧
      env.isTurnIdentity c.turn.turnId) ∧ c.PayloadValid env ∧
    c.payloadSha256 = env.sha256 (c.payload.getD "") ∧
    (c.state = .acknowledged → c.acknowledgedAt.isSome ∧ c.acknowledgement.isSome) ∧
    (c.acknowledgement.isSome → c.state ∈ [.acknowledged, .rejected, .unresolved]) ∧
    ∀ a ∈ c.acknowledgement, a.detail.all (fun text => env.redactControlText text = text) ∧
      a.terminalStatus.all (· ∈ acknowledgementTerminalStatuses))
    ⟨fun ⟨a, b, c, d, e, f, g⟩ => ⟨a, b, c, d, e, f, g⟩,
      fun ⟨a, b, c, d, e, f, g⟩ => ⟨a, b, c, d, e, f, g⟩⟩

/-- `SET state = 'unresolved'` where the state is pending or sent. -/
def close (now : Time) : ControlCommand :=
  if c.state.isOpen then
    { c with state := .unresolved, acknowledgedAt := some (c.acknowledgedAt.getD now) }
  else c

end ControlCommand

end CodexFlow.Ledger

/-- The ledger with its control commands, in the order of their creation. -/
structure CodexFlow.ControlLedger where
  ledger : CodexFlow.Ledger := {}
  commands : List CodexFlow.Ledger.ControlCommand := []

namespace CodexFlow.ControlLedger

open Ledger Checked

variable (env : ControlEnv) (s : ControlLedger)

def commandsOf (dispatchId : DispatchId) : List ControlCommand :=
  s.commands.filter (·.dispatchId = dispatchId)

def SequencesValid : Prop :=
  ∀ c ∈ s.commands, (s.commandsOf c.dispatchId).map (·.submissionSequence) =
    (List.range (s.commandsOf c.dispatchId).length).map (· + 1)

/-- What `_validate_rows` checks. -/
def Valid : Prop :=
  s.ledger.Valid env.toEnv ∧ (∀ c ∈ s.commands, c.Valid env) ∧ s.SequencesValid

instance : Decidable (s.Valid env) := by
  unfold Valid SequencesValid
  infer_instance

def mapCommands (f : ControlCommand → ControlCommand) : ControlLedger :=
  { s with commands := s.commands.map f }

/-! ### The operations of the table -/

structure CommandRequest where
  dispatchId : DispatchId
  commandId : String
  turn : TurnIdentity
  kind : ControlCommandKind
  payload : Option String := none

def CommandRequest.command (q : CommandRequest) (sequence : ℕ) (now : Time) : ControlCommand where
  commandId := q.commandId
  dispatchId := q.dispatchId
  submissionSequence := sequence
  turn := q.turn
  kind := q.kind
  payload := q.payload.map env.redactSteerText
  payloadSha256 := env.sha256 ((q.payload.map env.redactSteerText).getD "")
  state := .pending
  createdAt := now

def CommandRequest.matchesCommand (q : CommandRequest) (c : ControlCommand) : Bool :=
  c.dispatchId = q.dispatchId && c.turn = q.turn && c.kind = q.kind &&
    c.payload = q.payload.map env.redactSteerText &&
    c.payloadSha256 = env.sha256 ((q.payload.map env.redactSteerText).getD "")

/-- `COALESCE(MAX(submission_sequence), 0) + 1` -/
def nextSubmission (dispatchId : DispatchId) : ℕ :=
  ((s.commandsOf dispatchId).map (·.submissionSequence)).foldr max 0 + 1

def createControlCommand (q : CommandRequest) (now : Time) : Checked ControlLedger := do
  ensure (env.isCommandId q.commandId) (.valueError "control command id is invalid")
  ensure (q.payload.all fun text => !text.toList.contains '\x00')
    (.valueError "control text must be a string without NUL")
  match s.commands.find? (·.commandId = q.commandId) with
  | some c => do
    ensure (q.matchesCommand env c) (.staleWriter "control command identity is conflicting")
    pure s
  | none =>
    match s.ledger.dispatches.get? q.dispatchId with
    | none => .error (queueMissing q.dispatchId)
    | some r => do
      ensure (r.queue.state ∉ [.resultSubmitted, .finalizing, .completed, .failed, .cancelled,
          .humanAttentionRequired])
        (.staleWriter "terminal queue dispatch rejects control commands")
      ensure (r.queue.generation = q.turn.generation ∧ r.queue.attempt = q.turn.attempt ∧
          r.queue.threadId = some q.turn.threadId)
        (.staleWriter "control command exact-turn identity is stale")
      let c := q.command env (s.nextSubmission q.dispatchId) now
      ensure (c.Valid env) (.valueError "control command is invalid")
      pure { s with commands := s.commands ++ [c] }

/-- `claim_control_commands`: every open command of the turn is sent. -/
def claimControlCommands (dispatchId : DispatchId) (turn : TurnIdentity) (now : Time) :
    ControlLedger :=
  s.mapCommands fun c =>
    if c.dispatchId = dispatchId && c.turn = turn && c.state = .pending then
      { c with state := .sent, sentAt := some (c.sentAt.getD now) }
    else c

def unresolvedControlCommands (dispatchId : DispatchId) (now : Time) : ControlLedger :=
  s.mapCommands fun c => if c.dispatchId = dispatchId then c.close now else c

def safeAcknowledgement (target : ControlCommandState) (a : Option Acknowledgement) :
    Option Acknowledgement :=
  (if target = .acknowledged then some (a.getD {}) else a).map fun a =>
    { a with detail := a.detail.map env.redactControlText }

def acknowledgeControlCommand (commandId : String) (target : ControlCommandState)
    (acknowledgement : Option Acknowledgement) (now : Time) : Checked ControlLedger := do
  ensure (env.isCommandId commandId) (.valueError "control command id is invalid")
  ensure (target ∈ [.acknowledged, .rejected, .unresolved])
    (.valueError "control acknowledgement state is invalid")
  let safe := safeAcknowledgement env target acknowledgement
  ensure (safe.all fun a => a.terminalStatus.all (· ∈ acknowledgementTerminalStatuses))
    (.valueError "control acknowledgement terminal status is invalid")
  match s.commands.find? (·.commandId = commandId) with
  | none => .error (.recordNotFound s!"control command does not exist: {commandId}")
  | some c =>
    if c.state ∈ [.acknowledged, .rejected, .unresolved] then do
      ensure (target = c.state ∧ safe = c.acknowledgement)
        (.staleWriter "control acknowledgement is immutable")
      pure s
    else do
      ensure (c.state = .sent)
        (.staleWriter "control acknowledgement requires a sent command")
      pure (s.mapCommands fun c =>
        if c.commandId = commandId then
          { c with
            state := target, acknowledgement := safe, acknowledgedAt := some now
            sentAt := some (c.sentAt.getD now) }
        else c)

def markControlCommandSent (commandId : String) (now : Time) : Checked ControlLedger := do
  ensure (env.isCommandId commandId) (.valueError "control command id is invalid")
  ensure (s.commands.any (·.commandId = commandId))
    (.recordNotFound s!"control command does not exist: {commandId}")
  pure (s.mapCommands fun c =>
    if c.commandId = commandId && c.state.isOpen then
      { c with state := .sent, sentAt := some (c.sentAt.getD now) }
    else c)

/-! ### Commands closed by the queue -/

/-- The operation retires the attempt whose commands still wait: a retry, a cancellation, or the
exit of a worker whose result came first. -/
def closes (before after : Ledger) (dispatchId : DispatchId) : Op → Bool
  | .retryDispatch d .. => d = dispatchId
  | .action d action .. =>
    d = dispatchId && action.actionKind = .retry && (before.findControl action.actionId).isNone ||
      cancels
  | .exit d .. =>
    d = dispatchId && (before.dispatches.get? d).any fun r =>
      r.queue.state ∈ [.resultSubmitted, .completed, .failed, .cancelled] &&
        r.liveness.any (·.exitedAt.isNone)
  | _ => cancels
where
  /-- The row was cancelled by this operation. -/
  cancels : Bool :=
    (after.dispatches.get? dispatchId).any (·.queue.state = .cancelled) &&
      !(before.dispatches.get? dispatchId).any (·.queue.state = .cancelled)

/-- The instant of the operation, as the rows of the dispatch have it. -/
def closedAt (after : Ledger) (dispatchId : DispatchId) : Op → Time
  | .exit _ _ _ now => now
  | _ => ((after.dispatches.get? dispatchId).map (·.queue.updatedAt)).getD 0

/-- An operation on the queue with what it writes to the commands. -/
def perform (op : Op) : Checked ControlLedger := do
  let after ← s.ledger.body env.toEnv op
  pure { ledger := after, commands := s.commands.map fun c =>
    if closes s.ledger after c.dispatchId op then c.close (closedAt after c.dispatchId op) else c }

/-! ### The machine -/

inductive ControlOp where
  | queue (op : Op)
  | create (request : CommandRequest) (now : Time)
  | claim (dispatchId : DispatchId) (turn : TurnIdentity) (now : Time)
  | unresolved (dispatchId : DispatchId) (now : Time)
  | acknowledge (commandId : String) (target : ControlCommandState)
      (acknowledgement : Option Acknowledgement) (now : Time)
  | markSent (commandId : String) (now : Time)

def body : ControlOp → Checked ControlLedger
  | .queue op => s.perform env op
  | .create request now => s.createControlCommand env request now
  | .claim dispatchId turn now => pure (s.claimControlCommands dispatchId turn now)
  | .unresolved dispatchId now => pure (s.unresolvedControlCommands dispatchId now)
  | .acknowledge commandId target acknowledgement now =>
    s.acknowledgeControlCommand env commandId target acknowledgement now
  | .markSent commandId now => s.markControlCommandSent env commandId now

/-- `_transaction` -/
def call (op : ControlOp) : Checked ControlLedger := do
  ensure (s.Valid env) rowsRejected
  let after ← s.body env op
  ensure (after.Valid env) rowsRejected
  pure after

/-- A call that raises leaves everything as it was. -/
def next (op : ControlOp) : ControlLedger := (s.call env op).toOption.getD s

/-- What some run of calls builds. -/
def Reachable : Prop := ∃ ops, s = Machine.run (next env) {} ops

end CodexFlow.ControlLedger
