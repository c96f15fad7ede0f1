import CodexFlow.Ledger.System
import Mathlib

/-!
# Refreshes of the service

A refresh records the intent to start a replacement of the fenced harness before it starts one, and
resolves the intent against the authority that the replacement acquired.
-/

namespace CodexFlow.Service

open Ledger (Time LedgerError Checked isSha256)
open Checked

/-- The columns of `harness_authority` that only a refresh reads. -/
structure HarnessFacts where
  repositoryRoot : String
  stateRoot : String
  pid : ℕ
  processBirthIdentity : String
  acquiredAt : Time
  renewedAt : Time
  executableDigest : String
  version : String
deriving DecidableEq

/-- The whole row of `harness_authority`. -/
structure Authority extends Ledger.HarnessAuthority, HarnessFacts
deriving DecidableEq

inductive StartState where
  | pending
  | healthy
  | stoppedReplacement
deriving DecidableEq

/-- The primary key of `service_refresh_starts`. -/
structure StartKey where
  repositoryRoot : String
  stateRoot : String
  predecessorEpoch : ℕ
deriving DecidableEq

structure StartTarget where
  unitName : String
  unitSha256 : String
  launcherSha256 : String
  interpreterSha256 : String
  targetProfileSha256 : Option String
  targetCompatibilitySha256 : Option String
deriving DecidableEq

/-- The columns of an intent that its replay has to repeat. -/
structure StartIdentity extends StartTarget where
  predecessorPid : ℕ
  predecessorBirthIdentity : String
  predecessorAuthoritySha256 : String
  intendedSchemaVersion : ℕ
deriving DecidableEq

/-- A row of `service_refresh_starts` without its key. -/
structure RefreshStart extends StartIdentity where
  state : StartState
  createdAt : Time
  resolvedAt : Option Time
  replacementAuthority : Option Authority
deriving DecidableEq

/-- What the paths and the encoded rows of the host are. -/
structure Host where
  ledger : Ledger.Env
  isCanonicalPath : String → Bool
  authorityJson : Authority → String

def currentSchemaVersion : ℕ := 22

/-- `value == value.strip()` within the bound. -/
def isTrimmed (host : Host) (text : String) : Bool :=
  1 ≤ text.length && text.length ≤ 512 && text.toList.head?.all (!host.ledger.isSpace ·) &&
    text.toList.getLast?.all (!host.ledger.isSpace ·)

/-- The replacement of a resolved row: another process that acquired a later epoch. -/
def validateReplacement (host : Host) (key : StartKey) (start : RefreshStart) (held : Authority) :
    Checked Unit := do
  ensure ((host.authorityJson held).utf8ByteSize ≤ 16384)
    (.corruptSchema "refresh replacement authority exceeds its bound")
  ensure (1 ≤ held.version.length ∧ held.version.length ≤ 512)
    (.corruptSchema "refresh replacement version is invalid")
  ensure (held.acquiredAt ≤ held.renewedAt ∧ held.renewedAt < held.expiresAt)
    (.corruptSchema "refresh replacement timestamps are inconsistent")
  ensure (held.repositoryRoot = key.repositoryRoot ∧ held.stateRoot = key.stateRoot)
    (.corruptSchema "refresh replacement root identity changed")
  ensure (key.predecessorEpoch < held.epoch ∧ 0 < held.pid ∧
      1 ≤ held.processBirthIdentity.length ∧ held.processBirthIdentity.length ≤ 512 ∧
      ¬ (held.pid = start.predecessorPid ∧
        held.processBirthIdentity = start.predecessorBirthIdentity))
    (.corruptSchema "refresh replacement did not acquire a distinct newer identity")
  ensure (held.requestedShutdown = decide (start.state ≠ .healthy))
    (.corruptSchema "refresh replacement fence is inconsistent with resolution")
  ensure (isSha256 held.ownerNonceSha256 ∧ isSha256 held.executableDigest)
    (.corruptSchema "refresh replacement digest is invalid")
  ensure (held.executableDigest = start.interpreterSha256)
    (.corruptSchema "refresh replacement executable differs from target")

/-- `_validate_service_refresh_start` -/
def validateServiceRefreshStart (host : Host) (key : StartKey) (start : RefreshStart) :
    Checked Unit := do
  ensure (host.isCanonicalPath key.repositoryRoot)
    (.corruptSchema "persisted refresh repository_root is not a canonical physical path")
  ensure (host.isCanonicalPath key.stateRoot)
    (.corruptSchema "persisted refresh state_root is not a canonical physical path")
  ensure (0 < key.predecessorEpoch) (.corruptSchema "refresh predecessor_epoch is invalid")
  ensure (0 < start.predecessorPid) (.corruptSchema "refresh predecessor_pid is invalid")
  ensure (isTrimmed host start.predecessorBirthIdentity)
    (.corruptSchema "refresh predecessor_birth_identity is invalid")
  ensure (isTrimmed host start.unitName) (.corruptSchema "refresh unit_name is invalid")
  ensure (isSha256 start.predecessorAuthoritySha256)
    (.corruptSchema "refresh predecessor_authority_sha256 is invalid")
  ensure (isSha256 start.unitSha256) (.corruptSchema "refresh unit_sha256 is invalid")
  ensure (isSha256 start.launcherSha256) (.corruptSchema "refresh launcher_sha256 is invalid")
  ensure (isSha256 start.interpreterSha256) (.corruptSchema "refresh interpreter_sha256 is invalid")
  ensure (start.targetProfileSha256.all isSha256)
    (.corruptSchema "refresh target_profile_sha256 is invalid")
  ensure (start.targetCompatibilitySha256.all isSha256)
    (.corruptSchema "refresh target_compatibility_sha256 is invalid")
  ensure (start.intendedSchemaVersion = 22)
    (.corruptSchema "refresh start schema or state is invalid")
  match start.state, start.resolvedAt, start.replacementAuthority with
  | .pending, resolvedAt, replacement =>
    ensure (resolvedAt = none ∧ replacement = none)
      (.corruptSchema "pending refresh start carries replacement facts")
  | _, none, _ => throw (.corruptSchema "refresh start timestamp is invalid")
  | _, some resolvedAt, replacement =>
    ensure (start.createdAt ≤ resolvedAt)
      (.corruptSchema "refresh start resolution precedes intent")
    match replacement with
    | none => throw (.corruptSchema "refresh replacement authority exceeds its bound")
    | some held => validateReplacement host key start held

end CodexFlow.Service

/-- The ledger, the columns of its authority that only a refresh reads, and the refresh intents. -/
structure CodexFlow.Service where
  ledger : CodexFlow.Ledger := {}
  facts : Option CodexFlow.Service.HarnessFacts := none
  starts : Table CodexFlow.Service.StartKey CodexFlow.Service.RefreshStart := Table.empty

namespace CodexFlow.Service

open Ledger (Time LedgerError Checked isSha256)
open Checked

/-- `harness_authority` -/
def authority (s : Service) : Option Authority :=
  match s.ledger.harness, s.facts with
  | some held, some facts => some { toHarnessAuthority := held, toHarnessFacts := facts }
  | _, _ => none

def pending (s : Service) : List (StartKey × RefreshStart) :=
  s.starts.entries.filter (·.2.state = .pending)

/-- What `_validate_rows` asks of the intents. -/
def StartsValid (host : Host) (s : Service) : Prop :=
  (∀ entry ∈ s.starts.entries, validateServiceRefreshStart host entry.1 entry.2 = .ok ()) ∧
    s.pending.length ≤ 1

instance (host : Host) (s : Service) : Decidable (s.StartsValid host) := by
  unfold StartsValid; infer_instance

/-- The intent that a call of `arm_service_refresh_start` would record. -/
def newStart (host : Host) (held : Authority) (target : StartTarget) (createdAt : Time) :
    RefreshStart where
  toStartTarget := target
  predecessorPid := held.pid
  predecessorBirthIdentity := held.processBirthIdentity
  predecessorAuthoritySha256 := host.ledger.sha256 (host.authorityJson held)
  intendedSchemaVersion := currentSchemaVersion
  state := .pending
  createdAt := createdAt
  resolvedAt := none
  replacementAuthority := none

def Authority.startKey (held : Authority) : StartKey :=
  ⟨held.repositoryRoot, held.stateRoot, held.epoch⟩

/-- The intent of this predecessor, or one that is still pending. -/
def retainedStart (s : Service) (key : StartKey) : Option (StartKey × RefreshStart) :=
  (s.starts.entries.filter fun entry => entry.1 = key || entry.2.state = .pending).argmin
    (·.1.predecessorEpoch)

/-- `arm_service_refresh_start`; the reply permits the start only when the intent is new. -/
def armServiceRefreshStart (host : Host) (s : Service) (expected : Authority)
    (target : StartTarget) (createdAt observedAt : Time) : Checked (Service × Bool) := do
  let start := newStart host expected target createdAt
  validateServiceRefreshStart host expected.startKey start
  s.ledger.raiseIfActiveChildren observedAt
  ensure (s.authority = some expected ∧ expected.requestedShutdown)
    (.staleWriter "refresh start predecessor authority changed or is not fenced")
  match s.retainedStart expected.startKey with
  | some (key, retained) =>
    ensure (key = expected.startKey ∧ retained.toStartIdentity = start.toStartIdentity)
      (.staleWriter "refresh start conflicts with retained intent")
    pure (s, false)
  | none => pure ({ s with starts := s.starts.insert expected.startKey start }, true)

/-- The columns of an authority that a renewal leaves alone. -/
def Authority.sameOwner (held recorded : Authority) : Prop :=
  { held with renewedAt := recorded.renewedAt, expiresAt := recorded.expiresAt } = recorded

instance (held recorded : Authority) : Decidable (held.sameOwner recorded) := by
  unfold Authority.sameOwner; infer_instance

def ensureStopped (s : Service) (state : StartState) (observedAt : Time) : Checked Unit :=
  if state = .stoppedReplacement then s.ledger.raiseIfActiveChildren observedAt else pure ()

/-- `resolve_service_refresh_start` -/
def resolveServiceRefreshStart (host : Host) (s : Service) (key : StartKey)
    (expected : RefreshStart) (held : Authority) (state : StartState)
    (resolvedAt observedAt : Time) : Checked Service := do
  validateServiceRefreshStart host key expected
  ensure (state ≠ .pending) (.valueError "invalid refresh start resolution")
  let resolved := { expected with
    state := state, resolvedAt := some resolvedAt, replacementAuthority := some held }
  validateServiceRefreshStart host key resolved
  ensure (s.authority = some held)
    (.staleWriter "refresh replacement authority changed before resolution")
  s.ensureStopped state observedAt
  match s.starts.get? key with
  | none => throw (.staleWriter "refresh start intent disappeared")
  | some retained =>
    if retained.state ≠ .pending then do
      ensure (retained.toStartIdentity = resolved.toStartIdentity ∧
          retained.state = resolved.state ∧ retained.createdAt = resolved.createdAt ∧
          retained.replacementAuthority.any (held.sameOwner ·))
        (.staleWriter "refresh start resolution conflicts with retained history")
      pure s
    else do
      ensure (retained = expected)
        (.staleWriter "refresh start intent changed before resolution")
      pure { s with starts := s.starts.set key resolved }

/-- The fence of a replacement that is not healthy: the one pending intent names it. -/
def ensureReplacementFence (host : Host) (s : Service) (key : StartKey) (start : RefreshStart)
    (expected : Option Authority) (now : Time) : Checked Unit := do
  validateServiceRefreshStart host key start
  ensure (s.pending = [(key, start)])
    (.staleWriter "replacement fence conflicts with pending refresh intent")
  match s.authority with
  | none => throw (.staleWriter "replacement fence authority changed")
  | some current =>
    ensure (some current = expected) (.staleWriter "replacement fence authority changed")
    ensure (start.intendedSchemaVersion = currentSchemaVersion ∧
        current.executableDigest = start.interpreterSha256)
      (.staleWriter "replacement fence schema or interpreter identity changed")
    validateServiceRefreshStart host key { start with
      state := .stoppedReplacement
      resolvedAt := some now
      replacementAuthority := some { current with requestedShutdown := true } }

/-- `arm_harness_refresh_fence` -/
def armHarnessRefreshFence (host : Host) (s : Service)
    (expectedStart : Option (StartKey × RefreshStart)) (expectedAuthority : Option Authority)
    (observedAt now : Time) : Checked Service := do
  ensure (expectedStart.isNone = expectedAuthority.isNone)
    (.valueError "refresh replacement fence requires both expected start and authority")
  ensure (expectedStart.isSome ∨ s.pending = [])
    (.harnessRefreshBlocked "unresolved prior refresh start must be reconciled before fencing")
  let ledger ← s.ledger.armHarnessRefreshFence (pure ()) observedAt
  expectedStart.forM fun entry =>
    s.ensureReplacementFence host entry.1 entry.2 expectedAuthority now
  pure { s with ledger := ledger }

/-- `acquire_harness` -/
def acquireHarness (s : Service) (facts : HarnessFacts) (ownerNonceSha256 : String) (lease : ℕ)
    (now : Time) : Checked Service := do
  ensure (0 < facts.pid ∧ 0 < lease ∧ facts.processBirthIdentity ≠ "" ∧ facts.version ≠ "")
    (.valueError "harness lease facts are invalid")
  ensure (isSha256 facts.executableDigest) (.valueError "harness digest is invalid")
  let ledger ← s.ledger.acquireHarness ownerNonceSha256 lease now
  pure { s with ledger := ledger, facts := some { facts with acquiredAt := now, renewedAt := now } }

/-- `renew_harness` -/
def renewHarness (s : Service) (epoch : ℕ) (ownerNonceSha256 : String) (lease : ℕ) (now : Time) :
    Checked Service := do
  let ledger ← s.ledger.renewHarness epoch ownerNonceSha256 lease now
  pure { s with ledger := ledger, facts := s.facts.map ({ · with renewedAt := now }) }

/-! ### The service as a machine -/

/-- The calls of the ledger that the service makes through calls of its own. -/
def viaService : Ledger.Op → Bool
  | .acquireHarness .. | .renewHarness .. | .armRefreshFence .. => true
  | _ => false

inductive Op where
  | ledger (op : Ledger.Op) (hop : viaService op = false)
  | acquireHarness (facts : HarnessFacts) (ownerNonceSha256 : String) (lease : ℕ) (now : Time)
  | renewHarness (epoch : ℕ) (ownerNonceSha256 : String) (lease : ℕ) (now : Time)
  | armHarnessRefreshFence (expectedStart : Option (StartKey × RefreshStart))
      (expectedAuthority : Option Authority) (observedAt now : Time)
  | armServiceRefreshStart (expected : Authority) (target : StartTarget)
      (createdAt observedAt : Time)
  | resolveServiceRefreshStart (key : StartKey) (expected : RefreshStart) (held : Authority)
      (state : StartState) (resolvedAt observedAt : Time)

/-- The body of a call, with whether its reply permits a start. -/
def body (host : Host) (s : Service) : Op → Checked (Service × Bool)
  | .ledger op _ => do
    let ledger ← s.ledger.body host.ledger op
    pure ({ s with ledger := ledger }, false)
  | .acquireHarness facts nonce lease now => do
    pure (← s.acquireHarness facts nonce lease now, false)
  | .renewHarness epoch nonce lease now => do
    pure (← s.renewHarness epoch nonce lease now, false)
  | .armHarnessRefreshFence start held observedAt now => do
    pure (← s.armHarnessRefreshFence host start held observedAt now, false)
  | .armServiceRefreshStart held target createdAt observedAt =>
    s.armServiceRefreshStart host held target createdAt observedAt
  | .resolveServiceRefreshStart key start held state resolvedAt observedAt => do
    pure (← s.resolveServiceRefreshStart host key start held state resolvedAt observedAt, false)

/-- A call in its transaction: the rows of the intents and of the ledger are valid before and
after. A crash before the commit is a call that was not made, one after it a lost reply. -/
def perform (host : Host) (s : Service) (op : Op) : Checked (Service × Bool) := do
  ensure (s.StartsValid host ∧ s.ledger.Valid host.ledger) Ledger.rowsRejected
  let result ← s.body host op
  ensure (result.1.StartsValid host ∧ result.1.ledger.Valid host.ledger) Ledger.rowsRejected
  pure result

def next (host : Host) (s : Service) (op : Op) : Service :=
  (s.perform host op).toOption.elim s Prod.fst

/-- The call starts a replacement for the predecessor. -/
def permits (host : Host) (key : StartKey) (s : Service) : Op → Bool
  | .armServiceRefreshStart held target createdAt observedAt =>
    held.startKey = key &&
      (s.perform host (.armServiceRefreshStart held target createdAt observedAt)).toOption.any
        Prod.snd
  | _ => false

end CodexFlow.Service
