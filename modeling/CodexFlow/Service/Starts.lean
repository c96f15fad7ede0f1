import CodexFlow.Service.Refresh
import CodexFlow.Ledger.WakeOutcomes
import CodexFlow.Ledger.Authority

/-!
# Intents of a refresh

An intent is recorded once for its predecessor, while no other is pending, and resolved once.
-/

namespace CodexFlow.Service

open Checked
open Ledger (Time)

variable {host : Host} {s s' : Service} {op : Op} {reply : Bool} {key : StartKey}

/-! ### The service refines its ledger -/

def ledgerOp? : Op → Option Ledger.Op
  | .ledger op _ => some op
  | .acquireHarness _ nonce lease now => some (.acquireHarness nonce lease now)
  | .renewHarness epoch nonce lease now => some (.renewHarness epoch nonce lease now)
  | .armHarnessRefreshFence _ _ observedAt _ => some (.armRefreshFence (pure ()) observedAt)
  | .armServiceRefreshStart .. => none
  | .resolveServiceRefreshStart .. => none

theorem resolve_ledger {expected : RefreshStart} {held : Authority} {state : StartState}
    {resolvedAt observedAt : Time}
    (h : s.resolveServiceRefreshStart host key expected held state resolvedAt observedAt = .ok s') :
    s'.ledger = s.ledger := by
  simp only [resolveServiceRefreshStart, bind_eq_ok] at h
  obtain ⟨-, -, -, -, -, -, -, -, -, -, h⟩ := h
  split at h
  · cases h
  · split_ifs at h <;>
      simp only [steps_ok] at h <;>
      obtain ⟨-, rfl⟩ := h <;> rfl

theorem arm_ledger {held : Authority} {target : StartTarget} {createdAt observedAt : Time}
    (h : s.armServiceRefreshStart host held target createdAt observedAt = .ok (s', reply)) :
    s'.ledger = s.ledger := by
  simp only [armServiceRefreshStart, bind_eq_ok] at h
  obtain ⟨-, -, -, -, -, -, h⟩ := h
  split at h
  · simp only [steps_ok, Prod.mk.injEq] at h
    obtain ⟨-, rfl, -⟩ := h
    rfl
  · simp only [pure_eq_ok, Prod.mk.injEq] at h
    obtain ⟨rfl, -⟩ := h
    rfl

theorem armFence_eq {start : Option (StartKey × RefreshStart)} {held : Option Authority}
    {observedAt now : Time}
    (h : s.armHarnessRefreshFence host start held observedAt now = .ok s') :
    ∃ L, s.ledger.armHarnessRefreshFence (pure ()) observedAt = .ok L ∧
      s' = { s with ledger := L } := by
  simp only [armHarnessRefreshFence, bind_eq_ok] at h
  obtain ⟨-, -, -, -, L, hL, h⟩ := h
  obtain ⟨-, -, h⟩ := h
  exact ⟨L, hL, (pure_eq_ok.1 h).symm⟩

theorem body_ledger (h : s.body host op = .ok (s', reply)) :
    match ledgerOp? op with
    | some op => s.ledger.body host.ledger op = .ok s'.ledger
    | none => s'.ledger = s.ledger := by
  cases op with
  | ledger op hop =>
    simp only [body, bind_eq_ok, pure_eq_ok, Prod.mk.injEq] at h
    obtain ⟨L, hL, rfl, -⟩ := h
    exact hL
  | acquireHarness facts nonce lease now =>
    simp only [body, acquireHarness, steps_ok, Prod.mk.injEq] at h
    obtain ⟨-, ⟨-, -, L, hL, rfl⟩, rfl, -⟩ := h
    exact hL
  | renewHarness epoch nonce lease now =>
    simp only [body, renewHarness, bind_eq_ok, pure_eq_ok, Prod.mk.injEq] at h
    obtain ⟨-, ⟨L, hL, rfl⟩, rfl, -⟩ := h
    exact hL
  | armHarnessRefreshFence start held observedAt now =>
    simp only [body, bind_eq_ok, pure_eq_ok, Prod.mk.injEq] at h
    obtain ⟨s₁, hfence, rfl, -⟩ := h
    obtain ⟨L, hL, rfl⟩ := armFence_eq hfence
    exact hL
  | armServiceRefreshStart held target createdAt observedAt => exact arm_ledger h
  | resolveServiceRefreshStart key start held state resolvedAt observedAt =>
    simp only [body, bind_eq_ok, pure_eq_ok, Prod.mk.injEq] at h
    obtain ⟨s₁, hresolve, rfl, -⟩ := h
    exact resolve_ledger hresolve

theorem perform_ok : s.perform host op = .ok (s', reply) ↔
    (s.StartsValid host ∧ s.ledger.Valid host.ledger) ∧ s.body host op = .ok (s', reply) ∧
      s'.StartsValid host ∧ s'.ledger.Valid host.ledger := by
  simp only [perform, steps_ok]
  constructor
  · rintro ⟨hbefore, result, hbody, hafter, rfl⟩
    exact ⟨hbefore, hbody, hafter⟩
  · rintro ⟨hbefore, hbody, hafter⟩
    exact ⟨hbefore, _, hbody, hafter, rfl⟩

/-- A call changes nothing, or its body ran between valid rows. -/
theorem next_cases (host : Host) (s : Service) (op : Op) :
    s.next host op = s ∨ ∃ reply, s.perform host op = .ok (s.next host op, reply) := by
  unfold next
  cases h : s.perform host op with
  | error e => exact .inl rfl
  | ok result => exact .inr ⟨result.2, rfl⟩

theorem next_ledger (host : Host) (s : Service) (op : Op) :
    (s.next host op).ledger = s.ledger ∨
      ∃ op', (s.next host op).ledger = s.ledger.next host.ledger op' := by
  obtain hsame | ⟨reply, h⟩ := next_cases host s op
  · exact .inl (congrArg Service.ledger hsame)
  · obtain ⟨⟨-, hbefore⟩, hbody, -, hafter⟩ := perform_ok.1 h
    have hledger := body_ledger hbody
    split at hledger
    · rename_i op' _
      exact .inr ⟨op', (Ledger.next_of_perform (Ledger.perform_ok.2
        ⟨hbefore, hledger, hafter⟩)).symm⟩
    · exact .inl hledger

/-- Every run of the service runs its ledger through calls of the ledger. -/
theorem run_ledger (host : Host) (ops : List Op) :
    (Machine.run (next host) {} ops).ledger.Reachable host.ledger := by
  refine Machine.invariant (I := fun s : Service => s.ledger.Reachable host.ledger)
    (fun s op hs => ?_) ⟨[], rfl⟩ ops
  obtain hsame | ⟨op', hop'⟩ := next_ledger host s op
  · rw [hsame]
    exact hs
  · obtain ⟨ops', hops'⟩ := hs
    refine ⟨ops' ++ [op'], ?_⟩
    rw [hop', Machine.run_concat, ← hops']

/-! ### What a call makes of the intents -/

/-- What a call can make of the intents. -/
inductive StartsMove (host : Host) (s : Service) : Table StartKey RefreshStart → Bool → Prop
  | keeps : StartsMove host s s.starts false
  | arms (held : Authority) (target : StartTarget) (createdAt : Time)
      (hheld : s.authority = some held) (hfenced : held.requestedShutdown)
      (hnew : s.starts.get? held.startKey = none) (hpending : s.pending = []) :
    StartsMove host s (s.starts.insert held.startKey (newStart host held target createdAt)) true
  | resolves (key : StartKey) (start : RefreshStart) (held : Authority) (state : StartState)
      (resolvedAt : Time) (hheld : s.authority = some held)
      (hstart : s.starts.get? key = some start) (hpending : start.state = .pending)
      (hstate : state ≠ .pending) :
    StartsMove host s (s.starts.set key { start with
      state := state, resolvedAt := some resolvedAt, replacementAuthority := some held }) false

theorem retainedStart_none (h : s.retainedStart key = none) :
    s.starts.get? key = none ∧ s.pending = [] := by
  unfold retainedStart at h
  rw [List.argmin_eq_none, List.filter_eq_nil_iff] at h
  constructor
  · rw [Table.get?_eq_none]
    intro hkey
    obtain ⟨entry, hentry, rfl⟩ := List.mem_map.1 hkey
    exact h entry hentry (by simp)
  · refine List.filter_eq_nil_iff.2 fun entry hentry => ?_
    have hkept := h entry hentry
    simp only [Bool.or_eq_true, not_or] at hkept
    exact hkept.2

theorem arm_moves {held : Authority} {target : StartTarget} {createdAt observedAt : Time}
    (h : s.armServiceRefreshStart host held target createdAt observedAt = .ok (s', reply)) :
    StartsMove host s s'.starts reply := by
  simp only [armServiceRefreshStart, checks_ok] at h
  obtain ⟨-, -, -, -, ⟨hheld, hfenced⟩, h⟩ := h
  split at h
  · simp only [steps_ok, Prod.mk.injEq] at h
    obtain ⟨-, rfl, rfl⟩ := h
    exact .keeps
  · rename_i hnone
    simp only [pure_eq_ok, Prod.mk.injEq] at h
    obtain ⟨rfl, rfl⟩ := h
    obtain ⟨hnew, hpending⟩ := retainedStart_none hnone
    exact .arms held target createdAt hheld hfenced hnew hpending

theorem resolve_moves {expected : RefreshStart} {held : Authority} {state : StartState}
    {resolvedAt observedAt : Time}
    (h : s.resolveServiceRefreshStart host key expected held state resolvedAt observedAt = .ok s') :
    StartsMove host s s'.starts false := by
  simp only [resolveServiceRefreshStart, checks_ok] at h
  obtain ⟨-, -, hstate, -, -, hheld, -, -, h⟩ := h
  split at h
  · cases h
  rename_i retained hretained
  split_ifs at h with hresolved
  · simp only [steps_ok] at h
    obtain ⟨-, rfl⟩ := h
    exact .keeps
  · simp only [steps_ok] at h
    obtain ⟨rfl, rfl⟩ := h
    exact .resolves key retained held state resolvedAt hheld hretained (not_not.1 hresolved) hstate

theorem body_starts (h : s.body host op = .ok (s', reply)) :
    StartsMove host s s'.starts reply := by
  cases op with
  | ledger op hop =>
    simp only [body, bind_eq_ok, pure_eq_ok, Prod.mk.injEq] at h
    obtain ⟨L, -, rfl, rfl⟩ := h
    exact .keeps
  | acquireHarness facts nonce lease now =>
    simp only [body, acquireHarness, bind_eq_ok, pure_eq_ok, Prod.mk.injEq] at h
    obtain ⟨-, ⟨-, -, -, -, -, -, rfl⟩, rfl, rfl⟩ := h
    exact .keeps
  | renewHarness epoch nonce lease now =>
    simp only [body, renewHarness, bind_eq_ok, pure_eq_ok, Prod.mk.injEq] at h
    obtain ⟨-, ⟨-, -, rfl⟩, rfl, rfl⟩ := h
    exact .keeps
  | armHarnessRefreshFence start held observedAt now =>
    simp only [body, bind_eq_ok, pure_eq_ok, Prod.mk.injEq] at h
    obtain ⟨s₁, hfence, rfl, rfl⟩ := h
    obtain ⟨L, -, rfl⟩ := armFence_eq hfence
    exact .keeps
  | armServiceRefreshStart held target createdAt observedAt => exact arm_moves h
  | resolveServiceRefreshStart key start held state resolvedAt observedAt =>
    simp only [body, bind_eq_ok, pure_eq_ok, Prod.mk.injEq] at h
    obtain ⟨s₁, hresolve, rfl, rfl⟩ := h
    exact resolve_moves hresolve

theorem next_starts (host : Host) (s : Service) (op : Op) :
    ∃ reply, StartsMove host s (s.next host op).starts reply := by
  obtain hsame | ⟨reply, h⟩ := next_cases host s op
  · rw [hsame]
    exact ⟨false, .keeps⟩
  · exact ⟨reply, body_starts (perform_ok.1 h).2.1⟩

/-! ### Intents of a run -/

theorem get?_insert {κ ρ : Type} [DecidableEq κ] {t : Table κ ρ} {k j : κ} {r : ρ}
    (h : t.get? j = none) : (t.insert j r).get? k = if k = j then some r else t.get? k := by
  split_ifs with hk
  · rw [hk, Table.get?_insert_self h]
  · exact Table.get?_insert_ne t hk r

/-- An intent keeps its row, but for its one resolution by the authority of that moment. -/
theorem StartsMove.row {starts : Table StartKey RefreshStart} (h : StartsMove host s starts reply)
    {start : RefreshStart} (hstart : s.starts.get? key = some start) :
    starts.get? key = some start ∨
      start.state = .pending ∧ ∃ held state resolvedAt, s.authority = some held ∧
        state ≠ .pending ∧ starts.get? key = some { start with
          state := state, resolvedAt := some resolvedAt, replacementAuthority := some held } := by
  cases h with
  | keeps => exact .inl hstart
  | arms held target createdAt hheld hfenced hnew hpending =>
    refine .inl ?_
    rw [get?_insert hnew, if_neg (fun heq => ?_), hstart]
    rw [heq, hnew] at hstart
    cases hstart
  | resolves key' start' held state resolvedAt hheld hstart' hpending hstate =>
    by_cases heq : key = key'
    · subst heq
      obtain rfl := Option.some.inj (hstart.symm.trans hstart')
      exact .inr ⟨hpending, held, state, resolvedAt, hheld, hstate, Table.get?_set_self hstart _⟩
    · exact .inl ((Table.get?_set_ne _ heq _).trans hstart)

theorem StartsMove.isSome {starts : Table StartKey RefreshStart}
    (h : StartsMove host s starts reply) (hstart : (s.starts.get? key).isSome) :
    (starts.get? key).isSome := by
  obtain ⟨start, hsome⟩ := Option.isSome_iff_exists.1 hstart
  obtain hsame | ⟨-, held, state, resolvedAt, -, -, hnew⟩ := h.row hsome
  · rw [hsame]
    rfl
  · rw [hnew]
    rfl

/-- No call adds a second pending intent. -/
theorem StartsMove.pending {starts : Table StartKey RefreshStart}
    (h : StartsMove host s starts reply) (hone : s.pending.length ≤ 1) :
    (starts.entries.filter (·.2.state = .pending)).length ≤ 1 := by
  cases h with
  | keeps => exact hone
  | arms held target createdAt hheld hfenced hnew hpending =>
    have hkey := Table.get?_eq_none.1 hnew
    have hnone : s.starts.entries.filter (·.2.state = .pending) = [] := hpending
    simp only [Table.insert, dif_neg hkey, List.filter_append, hnone, List.nil_append]
    exact List.length_filter_le _ _
  | resolves key start held state resolvedAt hheld hstart hpending hstate =>
    have hcount := Table.countP_set hstart { start with
      state := state, resolvedAt := some resolvedAt, replacementAuthority := some held }
      (fun entry => entry.2.state = .pending)
    simp only [hpending, hstate, decide_true, decide_false, if_true] at hcount
    unfold Service.pending at hone
    rw [← List.countP_eq_length_filter] at hone ⊢
    simp only [Bool.false_eq_true, if_false] at hcount
    omega

theorem arm_permits {held : Authority} {target : StartTarget} {createdAt observedAt : Time}
    (h : s.armServiceRefreshStart host held target createdAt observedAt = .ok (s', true)) :
    s.starts.get? held.startKey = none ∧ (s'.starts.get? held.startKey).isSome := by
  simp only [armServiceRefreshStart, checks_ok] at h
  obtain ⟨-, -, -, -, -, h⟩ := h
  split at h
  · simp only [steps_ok, Prod.mk.injEq] at h
    cases h.2.2
  · rename_i hnone
    simp only [pure_eq_ok, Prod.mk.injEq] at h
    obtain ⟨rfl, -⟩ := h
    obtain ⟨hnew, -⟩ := retainedStart_none hnone
    refine ⟨hnew, ?_⟩
    rw [Table.get?_insert_self hnew]
    rfl

/-- A call that permits a start finds no intent of the predecessor and leaves one. -/
theorem permits_spec (h : permits host key s op) :
    s.starts.get? key = none ∧ ((s.next host op).starts.get? key).isSome := by
  cases op with
  | armServiceRefreshStart held target createdAt observedAt =>
    obtain ⟨hkey, hreply⟩ := Bool.and_eq_true_iff.1 h
    obtain rfl := of_decide_eq_true hkey
    unfold next
    cases hperform : s.perform host (.armServiceRefreshStart held target createdAt observedAt) with
    | error e =>
      rw [hperform] at hreply
      cases hreply
    | ok result =>
      obtain ⟨s', reply⟩ := result
      rw [hperform] at hreply
      obtain rfl : reply = true := hreply
      exact arm_permits (perform_ok.1 hperform).2.1
  | _ => cases h

/-- In every run at most one call permits a start for a predecessor, at most one intent is pending,
and a call leaves a recorded intent alone or resolves a pending one against the authority it
finds. -/
theorem service_refresh_once (host : Host) (ops : List Op) (key : StartKey) :
    Machine.count (next host) (permits host key) {} ops ≤ 1 ∧
      (Machine.run (next host) {} ops).pending.length ≤ 1 ∧
      ∀ op start, (Machine.run (next host) {} ops).starts.get? key = some start →
        ((Machine.run (next host) {} ops).next host op).starts.get? key = some start ∨
        start.state = .pending ∧ ∃ held state resolvedAt,
          (Machine.run (next host) {} ops).authority = some held ∧ state ≠ .pending ∧
          ((Machine.run (next host) {} ops).next host op).starts.get? key = some { start with
            state := state, resolvedAt := some resolvedAt, replacementAuthority := some held } := by
  refine ⟨?_, ?_, fun op start hstart => ?_⟩
  · exact Machine.count_le_one (I := fun _ => True)
      (fun _ _ _ => trivial)
      (fun s op _ hdone => (next_starts host s op).choose_spec.isSome hdone)
      (fun s op _ hpermits => ⟨by simp [(permits_spec hpermits).1], (permits_spec hpermits).2⟩)
      trivial ops
  · exact Machine.invariant (I := fun s : Service => s.pending.length ≤ 1)
      (fun s op hs => (next_starts host s op).choose_spec.pending hs) (Nat.zero_le _) ops
  · obtain ⟨reply, hmove⟩ := next_starts host (Machine.run (next host) {} ops) op
    exact hmove.row hstart

/-! ### One refresh -/

def Host.sample : Host where
  ledger := .digesting
  isCanonicalPath _ := true
  authorityJson _ := "token"

def sampleFacts (pid : ℕ) : HarnessFacts where
  repositoryRoot := "/repo"
  stateRoot := "/state"
  pid := pid
  processBirthIdentity := "birth"
  acquiredAt := 0
  renewedAt := 0
  executableDigest := Ledger.tokenSha256
  version := "2"

/-- The authority that the harness `pid` acquires at `now`. -/
def acquired (pid epoch : ℕ) (now : Time) (fenced : Bool) : Authority where
  epoch := epoch
  ownerNonceSha256 := Ledger.nonceSha256
  expiresAt := now + 600
  requestedShutdown := fenced
  toHarnessFacts := { sampleFacts pid with acquiredAt := now, renewedAt := now }

def target : StartTarget :=
  ⟨"codex-flow", Ledger.tokenSha256, Ledger.tokenSha256, Ledger.tokenSha256, none, none⟩

def fencedRun : List Op :=
  [.acquireHarness (sampleFacts 41) Ledger.nonceSha256 600 1, .armHarnessRefreshFence none none 2 2]

def armStart : Op := .armServiceRefreshStart (acquired 41 1 1 true) target 3 3

/-- The start is permitted, and its intent outlives every further call. -/
theorem armStart_once :
    permits .sample (acquired 41 1 1 true).startKey (Machine.run (next .sample) {} fencedRun)
      armStart = true ∧
      ∀ op, (((Machine.run (next .sample) {} (fencedRun ++ [armStart])).next .sample op).starts.get?
        (acquired 41 1 1 true).startKey).isSome := by
  have hpermits : permits .sample (acquired 41 1 1 true).startKey
      (Machine.run (next .sample) {} fencedRun) armStart = true := by decide +kernel
  have hsome := (permits_spec hpermits).2
  rw [← Machine.run_concat (next .sample)] at hsome
  obtain ⟨start, hstart⟩ := Option.isSome_iff_exists.1 hsome
  refine ⟨hpermits, fun op => ?_⟩
  obtain hsame | ⟨-, held, state, resolvedAt, -, -, hresolved⟩ := (service_refresh_once .sample
    (fencedRun ++ [armStart]) (acquired 41 1 1 true).startKey).2.2 op start hstart
  · rw [hsame]
    rfl
  · rw [hresolved]
    rfl

end CodexFlow.Service
