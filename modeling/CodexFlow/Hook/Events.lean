import CodexFlow.Hook.Reconcile
import CodexFlow.Lib.Run

/-!
# The hook's event handlers

Each handler mutates the ledger inside one transaction and answers the host. `main` never fails:
an exception of the dispatched handler leaves the ledger alone and allows the operation with a
warning.
-/

namespace CodexFlow.Hook

/-- What the hook prints. `silent` is the empty object. -/
inductive Output where
  | silent
  | preAllow (updatedInput : Option Dict) (warning : Option PyStr)
  | deny (reason : PyStr)
  | postContext (context : PyStr)
  | block (reason : PyStr)
  | sessionContext (title : PyStr) (target : TargetContext) (status : AttemptStatus)
  | warning (message : PyStr)

/-- `permissionDecision` is `allow`. -/
def Output.allows : Output → Bool
  | .preAllow _ _ => true
  | _ => false

def Output.denies : Output → Bool
  | .deny _ => true
  | _ => false

/-! ### create_thread -/

def newAttempt (p : Platform) (toolInput : Dict) (context : TargetContext) (fingerprint : PyStr)
    (event : Dict) (sessionId : PyStr) (now : ℤ) : Checked Attempt := do
  let title ← titleIdentity p (toolInput.get? (lit "title"))
  return {
    fingerprint := fingerprint
    title := textField toolInput (lit "title") maxTitle
    titlePresent := toolInput.has (lit "title")
    titleIdentity := title
    target := context
    model := textField toolInput (lit "model") maxModel
    thinking := textField toolInput (lit "thinking") maxThinking
    turnId := boundedOptional (event.get (lit "turn_id")) maxId
    sessionId := sessionId
    createdAt := now
    status := .pending
    resultClassification := .pending
    reconciliationClassification := none
    reconciliationUsed := false
    stopSurfaceUsed := false
    resumeSessions := [] }

inductive CreateOutcome where
  | duplicate
  | saturated
  | allowed

/-- An attempt of the session with this fingerprint was recorded in the same turn. -/
def State.createdInTurn (st : State) (sessionId fingerprint : PyStr) (turnId : Option PyStr) :
    Bool :=
  st.attempts.any fun a =>
    a.ownedBy sessionId && a.fingerprint = fingerprint && turnId.isSome && a.turnId = turnId

def reserveCreate (p : Platform) (toolInput : Dict) (context : TargetContext)
    (fingerprint : PyStr) (event : Dict) (sessionId : PyStr) (now : ℤ) (st : State) :
    Hooked (CreateOutcome × State) :=
  let turnId := boundedOptional (event.get (lit "turn_id")) maxId
  if st.unresolvedAttempts sessionId ≠ [] ||
      st.attempts.any (fun a => a.ownedBy sessionId && a.blocksCreate) then
    .ok (.duplicate, st)
  else if st.createdInTurn sessionId fingerprint turnId then .ok (.duplicate, st)
  else if maxAttempts ≤ st.blockingCount then .ok (.saturated, st)
  else do
    let attempt ← (newAttempt p toolInput context fingerprint event sessionId now).lift
    let attempts ← trimAttempts (st.attempts ++ [attempt])
    return (.allowed, { st with attempts })

def allowPreCreate (p : Platform) (now : ℤ) (event : Dict) (st : State) :
    Hooked (Output × State) := do
  let (repaired, changed, context) ← (repairPayload p (event.get (lit "tool_input"))).lift
  let updated := if changed then some repaired else none
  match eventSessionId event with
  | none =>
    return (.preAllow updated
      (some (lit "session_id is absent or malformed; recovery state was not recorded")), st)
  | some sessionId => do
    let fingerprint ← (fingerprint p repaired context).lift
    let (outcome, st) ←
      transaction (reserveCreate p repaired context fingerprint event sessionId now) st
    match outcome with
    | .duplicate =>
      return (.deny
        (lit "a pending or uncertain create_thread attempt already blocks this session"), st)
    | .saturated =>
      return (.deny
        (lit "recovery ledger is saturated with unresolved attempts; no create was dispatched"),
        st)
    | .allowed => return (.preAllow updated none, st)

/-- What a classified create result writes on its pending attempt. -/
def Attempt.classify (status : AttemptStatus) (classification : ResultClassification)
    (peerId : Option PyStr) (a : Attempt) : Attempt :=
  { a with
    status := status
    resultClassification := classification
    blocksCreate := if status = .uncertain then true else a.blocksCreate
    peerId := peerId.or a.peerId
    reconciliationUsed := false }

def matchesPending (sessionId fingerprint : PyStr) (a : Attempt) : Bool :=
  a.ownedBy sessionId && a.fingerprint = fingerprint && a.status = .pending

def recordCreate (sessionId fingerprint : PyStr) (status : AttemptStatus)
    (classification : ResultClassification) (peerId : Option PyStr) (st : State) :
    Hooked (Bool × State) :=
  if st.attempts.any (matchesPending sessionId fingerprint) then
    .ok (true, st.modifyLast (matchesPending sessionId fingerprint)
      (Attempt.classify status classification peerId))
  else .ok (false, st)

def createContext (status : AttemptStatus) : PyStr :=
  if status = .uncertain then
    lit ("create_thread result classified as error/uncertain. Perform exactly one read-only " ++
      "list_threads reconciliation matching the exact title and target project context; " ++
      "never create another peer in this recovery.")
  else if status = .queued then
    lit "create_thread queued successfully; do not retry or create a duplicate."
  else lit "create_thread confirmed successfully; recovery state is clear."

def postCreate (p : Platform) (event : Dict) (st : State) : Hooked (Output × State) :=
  match eventSessionId event with
  | none =>
    .ok (.warning (lit "session_id is absent or malformed; recovery state was not inspected"), st)
  | some sessionId =>
    match event.get (lit "tool_input") with
    | .obj toolInput =>
      match (do
        let (repaired, _, context) ← repairPayload p (.obj toolInput)
        fingerprint p repaired context : Checked PyStr) with
      | .error _ =>
        .ok (.warning
          (lit "could not fingerprint create_thread result; recovery remains fail-open"), st)
      | .ok fingerprint => do
        let (status, classification, peerId) :=
          classifyCreateResponse p (event.get (lit "tool_response"))
        let (found, st) ←
          transaction (recordCreate sessionId fingerprint status classification peerId) st
        if found then return (.postContext (createContext status), st)
        else
          return (.warning (lit "create_thread result had no matching pre-dispatch attempt"), st)
    | _ =>
      .ok (.warning
        (lit "could not identify create_thread arguments; recovery remains fail-open"), st)

/-! ### list_threads -/

def matchesUnresolved (sessionId : PyStr) (a : Attempt) : Bool :=
  a.ownedBy sessionId && a.isUnresolved

inductive ListOutcome where
  | ordinary
  | duplicate
  | reserved

def Attempt.reserve (turnId : Option PyStr) (a : Attempt) : Attempt :=
  { a with reconciliationUsed := true, reconciliationTurnId := turnId }

def reserveList (event : Dict) (sessionId : PyStr) (st : State) : Hooked (ListOutcome × State) :=
  match LastMatch.findLast (matchesUnresolved sessionId) st.attempts with
  | none => .ok (.ordinary, st)
  | some attempt =>
    if attempt.reconciliationUsed then .ok (.duplicate, st)
    else
      .ok (.reserved, st.modifyLast (matchesUnresolved sessionId)
        (Attempt.reserve (boundedOptional (event.get (lit "turn_id")) maxId)))

def preList (event : Dict) (st : State) : Hooked (Output × State) :=
  match eventSessionId event with
  | none =>
    .ok (.preAllow none
      (some (lit "session_id is absent or malformed; reconciliation state was not inspected")), st)
  | some sessionId => do
    let (outcome, st) ← transaction (reserveList event sessionId) st
    match outcome with
    | .duplicate =>
      return (.deny
        (lit "only one list_threads reconciliation is allowed for an unresolved create"), st)
    | _ => return (.preAllow none none, st)

def matchesReserved (sessionId : PyStr) (a : Attempt) : Bool :=
  a.ownedBy sessionId && a.status = .uncertain && a.reconciliationUsed

def resolveList (p : Platform) (sessionId : PyStr) (snapshot : Snapshot) (st : State) :
    Hooked (Option Verdict × State) :=
  match LastMatch.findLast (matchesReserved sessionId) st.attempts with
  | none => .ok (none, st)
  | some attempt =>
    let verdict := reconcile p attempt snapshot
    .ok (some verdict, st.modifyLast (matchesReserved sessionId) (fun a => a.resolve verdict))

def verdictContext : Verdict → PyStr
  | .found peerId =>
    lit "Reconciliation found exactly one existing peer (" ++ peerId ++
      lit "). Continue with it; never create another peer."
  | .notFound =>
    lit ("Reconciliation returned a valid empty snapshot. No peer was found; do not retry " ++
      "create_thread or replace the permanently blocked attempt.")
  | .ambiguous _ =>
    lit ("Reconciliation was invalid, oversized, or could not prove one exact addressable title " ++
      "and target identity. Stop and request manual disambiguation; do not create or replace " ++
      "a peer.")

def postList (p : Platform) (event : Dict) (st : State) : Hooked (Output × State) :=
  match eventSessionId event with
  | none =>
    .ok (.warning
      (lit "session_id is absent or malformed; reconciliation state was not inspected"), st)
  | some sessionId => do
    let snapshot := candidateItems p (event.get (lit "tool_response"))
    let (verdict, st) ← transaction (resolveList p sessionId snapshot) st
    match verdict with
    | none => return (.silent, st)
    | some verdict => return (.postContext (verdictContext verdict), st)

/-! ### Stop and SessionStart -/

def Attempt.surface (a : Attempt) : Attempt := { a with stopSurfaceUsed := true }

def surfaceStop (sessionId : PyStr) (st : State) : Hooked (Bool × State) :=
  match LastMatch.findLast (matchesUnresolved sessionId) st.attempts with
  | none => .ok (false, st)
  | some attempt =>
    if attempt.stopSurfaceUsed then .ok (false, st)
    else
      .ok (true, st.modifyLast (matchesUnresolved sessionId) Attempt.surface)

def stopReason : PyStr :=
  lit ("An unresolved native create_thread attempt is recorded. Perform the single permitted " ++
    "read-only list_threads reconciliation (or report manual ambiguity); never create a " ++
    "continuation or duplicate peer.")

def stop (event : Dict) (st : State) : Hooked (Output × State) :=
  if (event.get (lit "stop_hook_active")).isTrue then .ok (.silent, st)
  else
    match eventSessionId event with
    | none =>
      .ok (.warning
        (lit "session_id is absent or malformed; unresolved recovery was not inspected"), st)
    | some sessionId => do
      let (surfaced, st) ← transaction (surfaceStop sessionId) st
      return (if surfaced then .block stopReason else .silent, st)

/-- The resumed session appended, the newest `maxSeenSessions` kept. -/
def Attempt.resume (sessionId : PyStr) (a : Attempt) : Attempt :=
  let sessions := a.resumeSessions ++ [sessionId]
  { a with resumeSessions := sessions.drop (sessions.length - maxSeenSessions) }

def surfaceResume (sessionId : PyStr) (st : State) : Hooked (Option Attempt × State) :=
  match LastMatch.findLast (matchesUnresolved sessionId) st.attempts with
  | none => .ok (none, st)
  | some attempt =>
    if sessionId ∈ attempt.resumeSessions then .ok (none, st)
    else
      .ok (some attempt, st.modifyLast (matchesUnresolved sessionId) (Attempt.resume sessionId))

def sessionStart (event : Dict) (st : State) : Hooked (Output × State) :=
  if !(event.get (lit "source")).isStr (lit "resume") then .ok (.silent, st)
  else
    match eventSessionId event with
    | none =>
      .ok (.warning
        (lit "session_id is absent or malformed; unresolved recovery was not inspected"), st)
    | some sessionId => do
      let (attempt, st) ← transaction (surfaceResume sessionId) st
      match attempt with
      | none => return (.silent, st)
      | some attempt => return (.sessionContext attempt.title attempt.target attempt.status, st)

/-! ### Dispatch -/

/-- `tool_name in {expected, f"codex_app__{expected}"}`: a list or an object is not hashable. -/
def isTool (toolName : Json) (expected : PyStr) : Hooked Bool :=
  match toolName with
  | .arr _ => .error .type
  | .obj _ => .error .type
  | .str s => .ok (s = expected || s = lit "codex_app__" ++ expected)
  | _ => .ok false

inductive Tool where
  | createThread
  | listThreads
  | other
deriving DecidableEq

def toolOf (toolName : Json) : Hooked Tool := do
  if ← isTool toolName (lit "create_thread") then return .createThread
  else if ← isTool toolName (lit "list_threads") then return .listThreads
  else return .other

/-- Any `PayloadError` of a `PreToolUse` create is a denial. -/
def denyPayload (result : Hooked (Output × State)) (st : State) : Hooked (Output × State) :=
  match result with
  | .error (.payload e) => .ok (.deny e.message, st)
  | _ => result

def dispatch (p : Platform) (now : ℤ) (event : Dict) (st : State) : Hooked (Output × State) :=
  let eventName := event.get (lit "hook_event_name")
  let toolName := event.get (lit "tool_name")
  if eventName.isStr (lit "PreToolUse") then do
    match ← toolOf toolName with
    | .createThread => denyPayload (allowPreCreate p now event st) st
    | .listThreads => preList event st
    | .other => return (.silent, st)
  else if eventName.isStr (lit "PostToolUse") then do
    match ← toolOf toolName with
    | .createThread => postCreate p event st
    | .listThreads => postList p event st
    | .other => return (.silent, st)
  else if eventName.isStr (lit "Stop") then stop event st
  else if eventName.isStr (lit "SessionStart") then sessionStart event st
  else .ok (.silent, st)

def HookError.typeName : HookError → PyStr
  | .payload _ => lit "PayloadError"
  | .runtime _ => lit "RuntimeError"
  | .type => lit "TypeError"

/-- One invocation: the time, and the event unless the input was not a JSON object. -/
structure Input where
  now : ℤ
  event : Option Dict

def main (p : Platform) (st : State) (input : Input) : Output × State :=
  match input.event with
  | none => (.warning (lit "input was not a JSON object"), st)
  | some event =>
    match dispatch p input.now event st with
    | .ok result => result
    | .error e => (.warning (lit "internal " ++ e.typeName), st)

/-- The ledger after one invocation. -/
def next (p : Platform) (st : State) (input : Input) : State := (main p st input).2

end CodexFlow.Hook
