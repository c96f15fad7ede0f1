import CodexFlow.Ledger.Simulation

/-!
# Fencing

A worker presents its attempt with everything it writes. A call that presents an attempt other than
the current one, or that reaches a cancelled dispatch, is refused, and the attempt of a dispatch
only grows. A cancelled dispatch stays cancelled unless a retry decision names its state.
-/

namespace CodexFlow.Ledger

open Checked DispatchRows

variable {env : Env} {L L' : Ledger} {dispatchId : DispatchId} {attempt : ℕ} {r r' : DispatchRows}
  {op : Op} {now : Time}

/-- A result, a thread or a heartbeat presented under an attempt of the dispatch. -/
def Op.presents (dispatchId : DispatchId) (attempt : ℕ) : Op → Prop
  | .submit d s _ => d = dispatchId ∧ s.attempt = attempt
  | .commit d s _ => d = dispatchId ∧ s.attempt = attempt
  | .commitRetained d s _ => d = dispatchId ∧ s.attempt = attempt
  | .bindThread d _ _ a _ _ _ => d = dispatchId ∧ a = attempt
  | .renewLiveness d _ a _ _ _ _ => d = dispatchId ∧ a = attempt
  | _ => False

/-- Whatever is presented under the attempt leaves the ledger as it is. -/
def Fenced (env : Env) (L : Ledger) (dispatchId : DispatchId) (attempt : ℕ) : Prop :=
  ∀ op, op.presents dispatchId attempt → L.next env op = L

/-- A retry decision that names the cancelled state, and the strategy, of a cancelled dispatch. -/
def Revives (env : Env) (L : Ledger) (dispatchId : DispatchId) : Op → Prop
  | .retryDispatch d strategy state reason _ =>
    d = dispatchId ∧ state = .cancelled ∧ env.isReason reason ∧
      ∃ r, L.dispatches.get? dispatchId = some r ∧ r.queue.state = .cancelled ∧
        r.policy.strategy = strategy
  | _ => False

/-! ### What an accepted worker call says of the row -/

theorem submit_attempt {s : Submission} {p : ParsedResult} (h : r.submit env s p now = .ok r') :
    r.queue.attempt = s.attempt ∧ r.queue.state ≠ .cancelled := by
  obtain ⟨cap, howned, -⟩ := submit_cases h
  exact ⟨howned.attempt_eq, howned.notCancelled⟩

theorem holdsClaim_attempt {generation attempt epoch : ℕ} (hgood : r.Good env keys dispatchId)
    (h : r.holdsClaim generation attempt epoch) :
    r.queue.attempt = attempt ∧ r.queue.state ≠ .cancelled := by
  simp only [holdsClaim, Bool.and_eq_true, decide_eq_true_eq] at h
  refine ⟨h.1.2, fun hcancelled => ?_⟩
  -- cancellation cleared the claim
  rw [(hgood.valid.queue.2.2.2.2 hcancelled).2.2] at h
  exact absurd h.2 (by simp)

theorem presents_accepted (hL : L.Good env) (hop : op.presents dispatchId attempt)
    (h : L.body env op = .ok L') :
    ∃ r, L.dispatches.get? dispatchId = some r ∧ r.queue.attempt = attempt ∧
      r.queue.state ≠ .cancelled := by
  cases op with
  | submit d s now =>
    obtain ⟨rfl, rfl⟩ := hop
    obtain ⟨r, r', hr, hbody, -⟩ := onDispatch_ok.1 h
    simp only [bind_eq_ok] at hbody
    obtain ⟨p, -, hsubmit⟩ := hbody
    exact ⟨r, hr, submit_attempt hsubmit⟩
  | commit d s now =>
    obtain ⟨rfl, rfl⟩ := hop
    obtain ⟨r, r', hr, hbody, -⟩ := onDispatch_ok.1 h
    simp only [DispatchRows.commit, checks_ok] at hbody
    obtain ⟨p, -, -, submitted, hsubmit, -⟩ := hbody
    exact ⟨r, hr, submit_attempt hsubmit⟩
  | commitRetained d s now =>
    obtain ⟨rfl, rfl⟩ := hop
    obtain ⟨r, r', hr, hbody, -⟩ := onDispatch_ok.1 h
    simp only [commitRetained, checks_ok] at hbody
    obtain ⟨p, -, -, -, -, submitted, hsubmit, -⟩ := hbody
    have howned := submit_attempt hsubmit
    exact ⟨r, hr, howned⟩
  | bindThread d epoch generation a token thread now =>
    obtain ⟨rfl, rfl⟩ := hop
    simp only [body, bindWorkerThread, checks_ok] at h
    obtain ⟨-, -, -, -, -, -, h⟩ := h
    obtain ⟨r, r', hr, hbody, -⟩ := onDispatch_ok.1 h
    simp only [checks_ok] at hbody
    exact ⟨r, hr, holdsClaim_attempt (hL.rows d r hr) hbody.1⟩
  | renewLiveness d generation a token lease epoch now =>
    obtain ⟨rfl, rfl⟩ := hop
    simp only [body, renewWorkerLiveness, checks_ok] at h
    obtain ⟨-, -, -, -, h⟩ := h
    obtain ⟨r, r', hr, hbody, -⟩ := onDispatch_ok.1 h
    split at hbody
    · cases hbody
    rename_i l hl
    simp only [checks_ok] at hbody
    obtain ⟨hidentity, hactive, -⟩ := hbody
    refine ⟨r, hr, ?_, fun hcancelled => ?_⟩
    · rw [← ((hL.rows d r hr).valid.liveness l hl).2.1]
      exact hidentity.2.1
    · rw [hcancelled] at hactive
      exact absurd hactive (by decide)
  | _ => exact absurd hop id

theorem fenced_of_retired (hL : L.Good env) (hr : L.dispatches.get? dispatchId = some r)
    (hretired : attempt < r.queue.attempt ∨ r.queue.state = .cancelled) :
    L.Fenced env dispatchId attempt := by
  intro op hop
  obtain hsame | ⟨-, hbody, -⟩ := next_cases env L op
  · exact hsame
  · exfalso
    obtain ⟨r₀, hr₀, hattempt, hcancelled⟩ := presents_accepted hL hop hbody
    obtain rfl : r₀ = r := Option.some.inj (hr₀.symm.trans hr)
    obtain hlt | hstate := hretired
    · omega
    · exact hcancelled hstate

/-! ### Steps and runs -/

theorem next_attempt_le (hL : L.Good env) (op : Op) (hr : L.dispatches.get? dispatchId = some r) :
    ∃ r', (L.next env op).dispatches.get? dispatchId = some r' ∧
      r.queue.attempt ≤ r'.queue.attempt := by
  obtain ⟨r', hr', hstep, -⟩ := next_step hL op hr
  exact ⟨r', hr', hstep.attempt_le⟩

theorem retryDispatch_state {strategy : RecoveryStrategy} {state : QueueState} {reason : String}
    (h : L.retryDispatch env dispatchId strategy state reason now = .ok L') :
    env.isReason reason ∧ ∃ r, L.dispatches.get? dispatchId = some r ∧ r.queue.state = state ∧
      r.policy.strategy = strategy := by
  simp only [retryDispatch, checks_ok] at h
  obtain ⟨hreason, h⟩ := h
  obtain ⟨r, r', hr, hbody, -⟩ := onDispatch_ok.1 h
  simp only [checks_ok] at hbody
  exact ⟨hreason, r, hr, hbody.1⟩

theorem next_cancelled (hL : L.Good env) (hr : L.dispatches.get? dispatchId = some r)
    (hcancelled : r.queue.state = .cancelled) (op : Op) :
    ∃ r', (L.next env op).dispatches.get? dispatchId = some r' ∧
      (r'.queue.state = .cancelled ∨
        Revives env L dispatchId op ∧ r.queue.attempt < r'.queue.attempt) := by
  obtain hsame | ⟨-, hbody, -⟩ := next_cases env L op
  · exact ⟨r, by rw [hsame, hr], .inl hcancelled⟩
  obtain ⟨r', hr', hstep, htarget⟩ := next_step hL op hr
  refine ⟨r', hr', ?_⟩
  obtain hkept | ⟨hcause, hpassed⟩ := hstep.cancelled hcancelled
  · exact .inl hkept
  obtain htarget | rfl := htarget
  · obtain ⟨d, strategy, state, reason, now, rfl⟩ := Op.eq_retryDispatch hcause
    obtain rfl : d = dispatchId := by simpa [Op.target] using htarget
    obtain ⟨hreason, r₀, hr₀, hstate, hstrategy⟩ := retryDispatch_state hbody
    obtain rfl : r₀ = r := Option.some.inj (hr₀.symm.trans hr)
    exact .inr ⟨⟨rfl, hstate.symm.trans hcancelled, hreason, r₀, hr, hcancelled, hstrategy⟩, hpassed⟩
  · exact .inl hcancelled

theorem run_attempt_le (hL : L.Good env) (hr : L.dispatches.get? dispatchId = some r)
    (ops : List Op) :
    ∃ r', (Machine.run (next env) L ops).dispatches.get? dispatchId = some r' ∧
      r.queue.attempt ≤ r'.queue.attempt := by
  induction ops generalizing L r with
  | nil => exact ⟨r, hr, Nat.le_refl _⟩
  | cons op ops ih =>
    obtain ⟨r₁, hr₁, hle₁⟩ := next_attempt_le hL op hr
    obtain ⟨r₂, hr₂, hle₂⟩ := ih (next_good hL op) hr₁
    exact ⟨r₂, hr₂, Nat.le_trans hle₁ hle₂⟩

theorem run_cancelled (hL : L.Good env) (hr : L.dispatches.get? dispatchId = some r)
    (hcancelled : r.queue.state = .cancelled) {ops : List Op}
    (hops : Machine.Along (next env) (fun L op => ¬Revives env L dispatchId op) L ops) :
    ∃ r', (Machine.run (next env) L ops).dispatches.get? dispatchId = some r' ∧
      r'.queue.state = .cancelled := by
  induction ops generalizing L r with
  | nil => exact ⟨r, hr, hcancelled⟩
  | cons op ops ih =>
    obtain ⟨r₁, hr₁, hcancelled₁ | ⟨hrevives, -⟩⟩ := next_cancelled hL hr hcancelled op
    · exact ih (next_good hL op) hr₁ hcancelled₁ hops.2
    · exact absurd hrevives hops.1

theorem run_cancelled_or_passed (hL : L.Good env) (hr : L.dispatches.get? dispatchId = some r)
    (hcancelled : r.queue.state = .cancelled) (ops : List Op) :
    ∃ r', (Machine.run (next env) L ops).dispatches.get? dispatchId = some r' ∧
      (r.queue.attempt < r'.queue.attempt ∨ r'.queue.state = .cancelled) := by
  induction ops generalizing L r with
  | nil => exact ⟨r, hr, .inr hcancelled⟩
  | cons op ops ih =>
    obtain ⟨r₁, hr₁, hcancelled₁ | ⟨-, hpassed⟩⟩ := next_cancelled hL hr hcancelled op
    · obtain ⟨r₂, hr₂, hpassed | hcancelled₂⟩ := ih (next_good hL op) hr₁ hcancelled₁
      · obtain ⟨r₃, hr₃, hle⟩ := next_attempt_le hL op hr
        obtain rfl : r₃ = r₁ := Option.some.inj (hr₃.symm.trans hr₁)
        exact ⟨r₂, hr₂, .inl (Nat.lt_of_le_of_lt hle hpassed)⟩
      · exact ⟨r₂, hr₂, .inr hcancelled₂⟩
    · obtain ⟨r₂, hr₂, hle⟩ := run_attempt_le (next_good hL op) hr₁ ops
      exact ⟨r₂, hr₂, .inl (Nat.lt_of_lt_of_le hpassed hle)⟩

/-- Attempts never decrease. A call presented under an attempt that was passed changes nothing ever
again; nor does one under an attempt that a cancelled dispatch had reached, nor under any other
attempt as long as no retry decision revives the dispatch. -/
theorem retired_attempt_fenced (env : Env) (before after : List Op) {d : DispatchId} {a : ℕ}
    {r : DispatchRows}
    (hr : (Machine.run (next env) {} before).dispatches.get? d = some r) :
    (∃ r', (Machine.run (next env) {} (before ++ after)).dispatches.get? d = some r' ∧
      r.queue.attempt ≤ r'.queue.attempt) ∧
    (a < r.queue.attempt → Fenced env (Machine.run (next env) {} (before ++ after)) d a) ∧
    (r.queue.state = .cancelled →
      a ≤ r.queue.attempt ∨ Machine.Along (next env) (fun L op => ¬Revives env L d op)
        (Machine.run (next env) {} before) after →
      Fenced env (Machine.run (next env) {} (before ++ after)) d a) := by
  have hafter := run_good env (before ++ after)
  rw [Machine.run_append] at hafter ⊢
  obtain ⟨r', hr', hle⟩ := run_attempt_le (run_good env before) hr after
  refine ⟨⟨r', hr', hle⟩, fun hlt => ?_, fun hcancelled hops => ?_⟩
  · exact fenced_of_retired hafter hr' (.inl (Nat.lt_of_lt_of_le hlt hle))
  obtain hreached | hops := hops
  · obtain ⟨r'', hr'', hpassed | hstate⟩ :=
      run_cancelled_or_passed (run_good env before) hr hcancelled after
    · exact fenced_of_retired hafter hr'' (.inl (Nat.lt_of_le_of_lt hreached hpassed))
    · exact fenced_of_retired hafter hr'' (.inr hstate)
  · obtain ⟨r'', hr'', hstate⟩ := run_cancelled (run_good env before) hr hcancelled hops
    exact fenced_of_retired hafter hr'' (.inr hstate)

/-! ### A revived dispatch -/

def reviewText : String :=
  "\x7b\"schema_version\":2,\"review_id\":\"r1\",\"reviewer_role\":\"reviewer\",\"accepted\":true,\"findings\":[],\"reviewed_revision\":\"a1\",\"fresh\":true,\"read_only\":true,\"prior_review_id\":null,\"acceptance_mode\":\"objective\",\"evidence_ids\":[]\x7d"

def reviewSha256 : String := "e145a5df4efde7081227986cb0b961abf4067ba6db02bfc7c1a53728c40a21c5"

def tokenSha256 : String := "3c469e9d6c5875d37a43f353d4f88e61fcf812c66eee3457465a40b0da4153e0"

def nonceSha256 : String := "78377b525757b494427f89014f97d79928f3938d14eb51e20fb5dec9834eb304"

/-- The digest of the reviewer's result contract. -/
def reviewContract : String := "fd5b7b5868b601b84fd5f41a34a74fb02c3e1713353806739f046fced916c7c8"

/-- The code outside the tables, on the texts that the runs below use. -/
def Env.sample : Env where
  sha256 text := if text = "token" then tokenSha256 else if text = reviewText then reviewSha256 else ""
  legacyResultContract := ""
  isSpace c := c = ' '
  parseQueueResult contract text :=
    if contract = reviewContract && text = reviewText then .ok "completed"
    else .error (.valueError "review result keys are unsupported")
  redactControlText := id
  redactDiagnosticText := id
  jitter _ _ := 0
  bundleJson _ := ""
  claimantAuditJson _ := ""

def sampleId : DispatchId := "run/m1/reviewer/1"

def sampleRequest : DispatchRequest where
  runId := "run"
  milestoneId := "m1"
  role := "reviewer"
  generation := 1
  workspacePath := "/work"
  resultContractSha256 := reviewContract

def enqueued : List Op :=
  [.acquireHarness nonceSha256 (seconds 600) 0, .enqueue sampleId sampleRequest 1]

/-- A worker takes the attempt and binds its process. -/
def started (attempt : ℕ) : List Op :=
  [.claim 1 nonceSha256 (fun _ => true) (fun _ => false) 2,
    .issueCapability sampleId
      { generation := 1, attempt := attempt, schemaSha256 := reviewContract,
        workspacePath := "/work", backend := .sdkHeadless, tokenSha256 := tokenSha256 } 3,
    .bindLiveness sampleId 1 1 attempt ⟨41, "birth"⟩ tokenSha256 (seconds 60) 4]

def cancelled : List Op := enqueued ++ [.cancel sampleId none 2]

def revived : List Op :=
  .retryDispatch sampleId .none .cancelled "once more" 2 :: started 2

def stateOf (L : Ledger) (d : DispatchId) : Option QueueState :=
  (L.dispatches.get? d).map (·.queue.state)

def attemptOf (L : Ledger) (d : DispatchId) : Option ℕ :=
  (L.dispatches.get? d).map (·.queue.attempt)

/-- The worker crashes after its first attempt was bound, and the claim is recovered. -/
def requeued : List Op := enqueued ++ started 1 ++ [.recover sampleId 1 false 5]

theorem requeued_attemptOf :
    attemptOf (Machine.run (next .sample) {} requeued) sampleId = some 2 := by
  decide +kernel

theorem cancelled_stateOf :
    stateOf (Machine.run (next .sample) {} cancelled) sampleId = some .cancelled := by
  decide

theorem revived_stateOf :
    stateOf (Machine.run (next .sample) {} (cancelled ++ revived)) sampleId = some .starting ∧
      stateOf (Machine.run (next .sample) {} (cancelled ++ revived ++
        [.bindThread sampleId 1 1 2 "token" "thread-1" 5])) sampleId = some .running := by
  decide +kernel

/-- The first attempt is fenced off once it was recovered, also while the second one runs, and every
attempt once the dispatch is cancelled. -/
theorem requeued_fenced :
    Fenced .sample (Machine.run (next .sample) {} (requeued ++ started 2)) sampleId 1 ∧
      Fenced .sample (Machine.run (next .sample) {} (cancelled ++ started 2)) sampleId 2 := by
  constructor
  · obtain ⟨r, hr, hattempt⟩ := Option.map_eq_some_iff.1 requeued_attemptOf
    exact (retired_attempt_fenced .sample requeued (started 2) hr).2.1 (by omega)
  · obtain ⟨r, hr, hstate⟩ := Option.map_eq_some_iff.1 cancelled_stateOf
    exact (retired_attempt_fenced .sample cancelled (started 2) hr).2.2 hstate
      (.inr ⟨id, id, id, trivial⟩)

/-- After a cancellation, a thread binding under attempt 2 changes the dispatch. -/
theorem cancelled_not_fenced :
    ¬∀ (env : Env) (before after : List Op) (d : DispatchId) (a : ℕ) (r : DispatchRows),
      (Machine.run (next env) {} before).dispatches.get? d = some r →
      a < r.queue.attempt ∨ r.queue.state = .cancelled →
      Fenced env (Machine.run (next env) {} (before ++ after)) d a := by
  intro h
  obtain ⟨r, hr, hstate⟩ := Option.map_eq_some_iff.1 cancelled_stateOf
  have hfenced := h .sample cancelled revived sampleId 2 r hr (.inr hstate)
    (.bindThread sampleId 1 1 2 "token" "thread-1" 5) ⟨rfl, rfl⟩
  obtain ⟨hbefore, hafter⟩ := revived_stateOf
  rw [Machine.run_concat, hfenced, hbefore] at hafter
  exact absurd hafter (by decide)

end CodexFlow.Ledger
