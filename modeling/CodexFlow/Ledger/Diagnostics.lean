import CodexFlow.Ledger.Result
import CodexFlow.Lib.Window

/-!
# Worker diagnostics

Every dispatch has a ring of diagnostics. A worker numbers its events, and a position that is
already in the ring, or was evicted from it, is acknowledged again and not stored twice. The
diagnostic transaction validates the ring and no other row.
-/

namespace CodexFlow.Ledger

open Checked

def diagnosticRingMaxEntries : ℕ := 128

def diagnosticRingMaxBytes : ℕ := 64 * 1024

def diagnosticTextMaxBytes : ℕ := 8 * 1024

def Env.redactDiagnostic (env : Env) (text : String) : Checked String := do
  ensure (!text.toList.contains '\x00')
    (.valueError "diagnostic text must be a string without NUL")
  pure (env.redactDiagnosticText text)

/-- What a diagnostic says, with its text redacted. -/
structure DiagnosticBody where
  kind : String
  text : Option String
  payloadSha256 : Option String
  payloadBytes : ℕ
deriving DecidableEq

def DiagnosticBody.item (body : DiagnosticBody) (sequence : ℕ) (occurredAt : Time) :
    DiagnosticItem :=
  ⟨sequence, body.kind, occurredAt, body.text, body.payloadSha256, body.payloadBytes⟩

namespace DiagnosticItem

/-- A row that already holds the position says the same. -/
def carries (item : DiagnosticItem) (body : DiagnosticBody) : Bool :=
  item.kind = body.kind && item.text = body.text && item.payloadSha256 = body.payloadSha256

def validate (env : Env) (item : DiagnosticItem) : Checked Unit := do
  ensure (item.payloadBytes ≤ diagnosticTextMaxBytes)
    (.corruptSchema "diagnostic payload exceeds its byte bound")
  match item.text with
  | none => pure ()
  | some text => do
    ensure (text.utf8ByteSize ≤ diagnosticTextMaxBytes)
      (.corruptSchema "diagnostic text is unredacted or oversized")
    let redacted ← env.redactDiagnostic text
    ensure (redacted = text) (.corruptSchema "diagnostic text is unredacted or oversized")
  ensure (item.payloadSha256.all isSha256)
    (.corruptSchema "diagnostic payload digest is malformed")

end DiagnosticItem

/-- `_validate_diagnostic_ring_in_transaction` -/
def validateDiagnosticRing (env : Env) (ring : List DiagnosticItem) : Checked Unit := do
  ensure (Window.Fits (·.payloadBytes) diagnosticRingMaxEntries diagnosticRingMaxBytes ring)
    (.corruptSchema "diagnostic ring exceeds its bound")
  ensure ((ring.map (·.sequence)).Pairwise (· < ·))
    (.corruptSchema "diagnostic ring sequence is not monotonic")
  ring.forM (·.validate env)

/-- `COALESCE(MAX(sequence), 0)` -/
def latestSequence (ring : List DiagnosticItem) : ℕ := (ring.map (·.sequence)).foldr max 0

/-- The `CHECK`s of a new row. -/
def DiagnosticItem.isStorable (item : DiagnosticItem) : Bool :=
  0 < item.sequence && 1 ≤ item.kind.length && item.kind.length ≤ 128 &&
    item.payloadSha256.all (·.length = 64) && item.payloadBytes ≤ diagnosticTextMaxBytes

/-- `_append_diagnostic_in_transaction`: the new ring and the row of the position. -/
def appendDiagnosticRow (ring : List DiagnosticItem) (body : DiagnosticBody)
    (sequence : Option ℕ) (occurredAt : Time) : Checked (List DiagnosticItem × DiagnosticItem) := do
  ensure (sequence.all (1 ≤ ·)) (.valueError "diagnostic sequence is invalid")
  match sequence.bind fun position => ring.find? (·.sequence = position) with
  | some existing => do
    ensure (existing.carries body)
      (.staleWriter "diagnostic replay conflicts with durable activity")
    pure (ring, existing)
  | none => do
    let position := sequence.getD (latestSequence ring + 1)
    ensure (latestSequence ring < position) (.staleWriter "diagnostic sequence is stale")
    let item := body.item position occurredAt
    ensure item.isStorable .integrityError
    let kept := Window.evict (·.payloadBytes) diagnosticRingMaxEntries diagnosticRingMaxBytes
      (ring ++ [item])
    match kept.find? (·.sequence = position) with
    | none => .error (.ledgerError "diagnostic insertion was evicted unexpectedly")
    | some row => pure (kept, row)

/-! ### The events of a worker -/

/-- An event of a worker under its lease. -/
structure WorkerDiagnostic where
  generation : ℕ
  attempt : ℕ
  token : String
  epoch : ℕ
  lease : ℕ
  kind : String
  text : Option String
  payloadSha256 : Option String
  sequence : ℕ
  terminalIntegrity : Option TerminalCapture := none
deriving DecidableEq

namespace WorkerDiagnostic

variable (env : Env) (event : WorkerDiagnostic)

def body : Checked DiagnosticBody := do
  requireWorkerIdentity event.generation event.attempt
  ensure (0 < event.epoch ∧ 0 < event.lease)
    (.valueError "worker diagnostic lease authority is invalid")
  ensure (1 ≤ event.sequence) (.valueError "diagnostic sequence is invalid")
  ensure (isAscii event.token) (.staleWriter "worker diagnostic token is invalid")
  ensure (!env.isBlank event.kind ∧ event.kind.length ≤ 128 ∧
      !event.kind.toList.contains '\x00')
    (.valueError "diagnostic kind is invalid")
  let redacted ← event.text.mapM env.redactDiagnostic
  ensure (event.payloadSha256.all fun digest =>
      redacted.any fun text => isSha256 digest && env.sha256 text = digest)
    (.valueError "diagnostic payload digest conflicts with text")
  pure ⟨event.kind, redacted, event.payloadSha256, (redacted.map (·.utf8ByteSize)).getD 0⟩

/-- The worker still holds the unconsumed capability of its attempt. -/
def isAuthorized (r : DispatchRows) : Bool :=
  (r.liveness.any fun l =>
      l.generation = event.generation && l.attempt = event.attempt &&
        l.leaseTokenSha256 = env.sha256 event.token) &&
    r.queue.state ∈ [.starting, .running] &&
    (r.capabilityAt event.generation event.attempt).any fun c =>
      c.consumedAt.isNone && c.tokenSha256 = env.sha256 event.token

def renew (now : Time) (r : DispatchRows) : DispatchRows :=
  { r.renewCapability event.generation event.attempt (now + capabilityLifetime event.lease) with
    liveness := r.liveness.map fun l =>
      { l with leaseExpiresAt := now + event.lease, lastSeenAt := now } }

def captures (now : Time) (allowInsert : Bool) (r : DispatchRows) : Checked DispatchRows :=
  r.captureIntegrity (event.kind = "turn/completed") event.terminalIntegrity allowInsert now

/-- The part of the transaction after the authority checks: the new rows, and the row of the
position unless it was evicted. -/
def record (body : DiagnosticBody) (now : Time) (r : DispatchRows) :
    Checked (DispatchRows × Option DiagnosticItem) :=
  match r.diagnostics.find? (·.sequence = event.sequence) with
  | some existing => do
    ensure (existing.carries body)
      (.staleWriter "diagnostic replay conflicts with durable activity")
    let r' ← event.captures now false r
    pure (r', some existing)
  | none =>
    -- a position of the stream that the ring no longer holds was accepted before
    if event.sequence ≤ latestSequence r.diagnostics then do
      let r' ← event.captures now false r
      pure (r', none)
    else do
      ensure (event.sequence = latestSequence r.diagnostics + 1)
        (.staleWriter "diagnostic sequence is stale or has a gap")
      let (ring, row) ← appendDiagnosticRow r.diagnostics body (some event.sequence) now
      let r' ← event.captures now true { r with diagnostics := ring }
      validateDiagnosticRing env r'.diagnostics
      pure (r', some row)

end WorkerDiagnostic

def appendWorkerDiagnostic (env : Env) (L : Ledger) (dispatchId : DispatchId)
    (event : WorkerDiagnostic) (now : Time) : Checked (Ledger × Option DiagnosticItem) := do
  let body ← event.body env
  L.requireLiveHarness event.epoch now
  match L.dispatches.get? dispatchId with
  | none => .error (queueMissing dispatchId)
  | some r => do
    validateDiagnosticRing env r.diagnostics
    ensure (r.liveness.isSome ∧ (r.capabilityAt event.generation event.attempt).isSome)
      (.staleWriter "worker diagnostic authority is unavailable")
    ensure (event.isAuthorized env r) (.staleWriter "worker diagnostic authority is stale")
    let (r', row) ← event.record env body now (event.renew now r)
    pure ({ L with dispatches := L.dispatches.set dispatchId r' }, row)

end CodexFlow.Ledger
