import CodexFlow.Ledger.Attention

/-!
# Attempts are paid for

An attempt beyond the first is paid for by a counter, or was released by a recovery, a decision or a
`RETRY` action. The counters only grow and stay within their budgets, and the provider ceiling
passes three by one grant.
-/

namespace CodexFlow.Ledger

open Checked DispatchRows

variable {env : Env} {L L' : Ledger} {dispatchId : DispatchId} {r r' : DispatchRows} {op : Op}
  {now : Time}

def budgetBy (p : RetryPolicy) (s : RecoveryState) : Counter → ℕ
  | .preIdentity => p.preIdentity.budget
  | .invalidChain => p.invalidChain.budget
  | .schemaEnvelope => p.schemaEnvelope.budget
  | .postIdentityLoss => p.postIdentityLoss.budget
  | .providerTransient => p.providerTransient.budget
  | .inspection => s.inspection.budget
  | .continuation => s.continuation.budget
  | .freshThread => s.freshThread.budget

theorem usedBy_le_budgetBy (p : RetryPolicy) (s : RecoveryState) (k : Counter) :
    usedBy p s k ≤ budgetBy p s k := by
  cases k with
  | preIdentity => exact p.preIdentity.le
  | invalidChain => exact p.invalidChain.le
  | schemaEnvelope => exact p.schemaEnvelope.le
  | postIdentityLoss => exact p.postIdentityLoss.le
  | providerTransient => exact p.providerTransient.le
  | inspection => exact s.inspection.le
  | continuation => exact s.continuation.le
  | freshThread => exact s.freshThread.le

/-! ### Released attempts -/

/-- The call is a `recover_queue_dispatch`, a `retry_dispatch` or a `RETRY` action on the dispatch,
and gave it another attempt. -/
def Released (env : Env) (d : DispatchId) (L : Ledger) (op : Op) : Bool :=
  op.target = some d && op.cause.releases && attemptOf (L.next env op) d ≠ attemptOf L d

def extraAttempts (d : DispatchId) (L : Ledger) : ℕ :=
  ((L.dispatches.get? d).map (·.queue.attempt - 1)).getD 0

def paidAttempts (d : DispatchId) (L : Ledger) : ℕ :=
  ((L.dispatches.get? d).map fun r => r.policy.preIdentity.used + r.recovery.continuation.used).getD 0

theorem extraAttempts_of_get? (hr : L.dispatches.get? dispatchId = some r) :
    extraAttempts dispatchId L = r.queue.attempt - 1 := by
  simp [extraAttempts, hr]

theorem paidAttempts_of_get? (hr : L.dispatches.get? dispatchId = some r) :
    paidAttempts dispatchId L = r.policy.preIdentity.used + r.recovery.continuation.used := by
  simp [paidAttempts, hr]

theorem target_of_releases (h : op.cause.releases) : op.target ≠ none := by
  cases op with
  | controllerActions q now =>
    show q.bundle.decisionId.dispatchId? ≠ none
    have hcause : q.cause.releases := h
    unfold SubmitRequest.cause at hcause
    cases hid : q.bundle.decisionId with
    | dispatch d kind cycle => exact Option.some_ne_none d
    | program event =>
      rw [hid] at hcause
      cases hcause
  | _ => first | exact Option.some_ne_none _ | cases h

/-- A step gives an attempt that was not released only when a counter pays for it. -/
theorem next_paid (hL : L.Good env) (d : DispatchId) (op : Op) :
    extraAttempts d (L.next env op) + paidAttempts d L ≤
      extraAttempts d L + paidAttempts d (L.next env op) +
        if Released env d L op then 1 else 0 := by
  cases hr : L.dispatches.get? d with
  | none =>
    cases hr' : (L.next env op).dispatches.get? d with
    | none => simp [extraAttempts, paidAttempts, hr, hr']
    | some r' =>
      obtain ⟨q, sequence, now, rfl⟩ := next_new op hr hr'
      rw [extraAttempts_of_get? hr']
      simp [paidAttempts, hr, DispatchRequest.rows, DispatchRequest.queue]
  | some r =>
    obtain ⟨r', hr', hstep, htarget⟩ := next_step hL op hr
    rw [extraAttempts_of_get? hr, extraAttempts_of_get? hr', paidAttempts_of_get? hr,
      paidAttempts_of_get? hr']
    have hfirst : 0 < r.queue.attempt := (hL.rows d r hr).valid.queue.1
    have hle : r.queue.attempt ≤ r'.queue.attempt := hstep.attempt_le
    have hsucc : r'.queue.attempt ≤ r.queue.attempt + 1 := hstep.attempt_le_succ
    have hpre : r.policy.preIdentity.used ≤ r'.policy.preIdentity.used := hstep.used_le .preIdentity
    have hcont : r.recovery.continuation.used ≤ r'.recovery.continuation.used :=
      hstep.used_le .continuation
    by_cases hsame : r'.queue.attempt = r.queue.attempt
    · omega
    by_cases hreleases : op.cause.releases
    · have htarget' : op.target = some d := by
        obtain htarget | rfl := htarget
        · cases hop : op.target with
          | none => exact absurd hop (target_of_releases hreleases)
          | some d' => simpa [hop] using htarget
        · exact absurd rfl hsame
      have hreleased : Released env d L op := by
        simp [Released, htarget', hreleases, attemptOf, hr, hr', hsame]
      rw [if_pos hreleased]
      omega
    · have hpaid : r'.queue.attempt + (r.policy.preIdentity.used + r.recovery.continuation.used) ≤
          r.queue.attempt + (r'.policy.preIdentity.used + r'.recovery.continuation.used) :=
        hstep.paid hreleases
      omega

/-! ### Grants -/

/-- The call is a budget change with a provider ceiling on the dispatch, and was applied. -/
def Grants (env : Env) (d : DispatchId) (L : Ledger) : Op → Bool
  | .action d' action activeTurn now =>
    d' = d && (action.requestedBudget.any (·.providerTransientBudget.isSome)) &&
      ((L.next env (.action d' action activeTurn now)).dispatches.get? d).map (·.policy.revision) ≠
        (L.dispatches.get? d).map (·.policy.revision)
  | _ => false

def grantsOf (d : DispatchId) (L : Ledger) : ℕ :=
  ((L.dispatches.get? d).map (·.policy.providerTransientGrantUsed)).getD 0

/-- A budget change with a provider ceiling is a replay, or the one grant. -/
theorem applyRecoveryAction_grant {action : RecoveryAction} {activeTurn : Bool}
    (h : L.applyRecoveryAction env dispatchId action activeTurn now = .ok L')
    (hchange : action.requestedBudget.any (·.providerTransientBudget.isSome)) :
    L' = L ∨ ∃ r r', L.dispatches.get? dispatchId = some r ∧
      L'.dispatches = L.dispatches.set dispatchId r' ∧ r.policy.providerTransientGrantUsed = 0 ∧
      r'.policy.providerTransientGrantUsed = 1 ∧ r'.policy.revision = r.policy.revision + 1 := by
  obtain ⟨change, hrequested, hprovider⟩ := (Option.any_eq_true _ _).1 hchange
  simp only [applyRecoveryAction, RecoveryAction.requirePayload, checks_ok] at h
  obtain ⟨-, -, ⟨-, honly, -, -⟩, -, -, h⟩ := h
  split at h
  · simp only [steps_ok] at h
    exact .inl h.2.2.symm
  · obtain ⟨r, r', hr, hbody, rfl⟩ := onDispatch_ok.1 h
    simp only [steps_ok] at hbody
    obtain ⟨-, -, -, applied, happlied, rfl⟩ := hbody
    have hkind : action.actionKind = .budgetChange := by
      by_contra hkind
      have hnone := honly hkind
      rw [hrequested] at hnone
      exact absurd hnone Bool.false_ne_true
    unfold actionEffect at happlied
    rw [hkind, hrequested] at happlied
    unfold changeBudget at happlied
    dsimp only at happlied
    split at happlied
    · cases happlied
    split at happlied
    · rename_i hnone
      rw [hnone] at hprovider
      exact absurd hprovider (by decide)
    · simp only [checks_ok] at happlied
      obtain ⟨-, -, -, -, hexact, happlied⟩ := happlied
      split_ifs at happlied
      cases happlied
      exact .inr ⟨r, _, hr, rfl, grantsProvider_unused hexact, rfl, rfl⟩

theorem grantsOf_of_get? (hr : L.dispatches.get? dispatchId = some r) :
    grantsOf dispatchId L = r.policy.providerTransientGrantUsed := by
  simp [grantsOf, hr]

/-- A call whose cause is a grant is a budget change with a provider ceiling. -/
theorem Op.eq_grant (h : op.cause = .grant) :
    ∃ d action activeTurn now, op = .action d action activeTurn now ∧
      action.requestedBudget.any (·.providerTransientBudget.isSome) := by
  cases op with
  | action d a activeTurn now =>
    refine ⟨d, a, activeTurn, now, rfl, ?_⟩
    have hcause : a.cause = .grant := h
    unfold RecoveryAction.cause at hcause
    split_ifs at hcause with _ hbudget
    exact hbudget
  | controllerActions q now =>
    have hmem := q.cause_mem
    rw [show q.cause = .grant from h] at hmem
    exact absurd hmem (by decide)
  | _ => cases h

theorem next_action_grant {d : DispatchId} {action : RecoveryAction} {activeTurn : Bool}
    (hchange : action.requestedBudget.any (·.providerTransientBudget.isSome)) :
    L.next env (.action d action activeTurn now) = L ∨
      ∃ r r', L.dispatches.get? d = some r ∧
        (L.next env (.action d action activeTurn now)).dispatches.get? d = some r' ∧
        r.policy.providerTransientGrantUsed = 0 ∧ r'.policy.providerTransientGrantUsed = 1 ∧
        r'.policy.revision = r.policy.revision + 1 := by
  obtain hsame | ⟨-, hbody, -⟩ := next_cases env L (.action d action activeTurn now)
  · exact .inl hsame
  obtain hsame | ⟨r, r', hr, hset, hzero, hone, hrevision⟩ := applyRecoveryAction_grant hbody hchange
  · exact .inl hsame
  · exact .inr ⟨r, r', hr, by rw [hset, Table.get?_set_self hr], hzero, hone, hrevision⟩

theorem next_grants (hL : L.Good env) (d : DispatchId) (op : Op) :
    grantsOf d (L.next env op) = grantsOf d L + if Grants env d L op then 1 else 0 := by
  by_cases hgrants : Grants env d L op
  · rw [if_pos hgrants]
    cases op with
    | action d' action activeTurn now =>
      simp only [Grants, Bool.and_eq_true, decide_eq_true_eq] at hgrants
      obtain ⟨⟨rfl, hchange⟩, hrevision⟩ := hgrants
      obtain hsame | ⟨r, r', hr, hr', hzero, hone, -⟩ := next_action_grant hchange
      · rw [hsame] at hrevision
        exact absurd rfl hrevision
      · rw [grantsOf_of_get? hr, grantsOf_of_get? hr', hzero, hone]
    | _ => cases hgrants
  · rw [if_neg hgrants, Nat.add_zero]
    cases hr : L.dispatches.get? d with
    | none =>
      cases hr' : (L.next env op).dispatches.get? d with
      | none => simp [grantsOf, hr, hr']
      | some r' =>
        obtain ⟨q, sequence, now, rfl⟩ := next_new op hr hr'
        rw [grantsOf_of_get? hr']
        simp [grantsOf, hr, DispatchRequest.rows, initialPolicy]
    | some r =>
      obtain ⟨r', hr', hstep, htarget⟩ := next_step hL op hr
      rw [grantsOf_of_get? hr, grantsOf_of_get? hr']
      obtain hsame | ⟨hcause, hgranted⟩ := hstep.granted
      · exact hsame
      exfalso
      have hmore : r'.policy.providerTransientGrantUsed =
          r.policy.providerTransientGrantUsed + 1 := hgranted
      obtain htarget | rfl := htarget
      · obtain ⟨d', action, activeTurn, now, rfl, hchange⟩ := Op.eq_grant hcause
        obtain rfl : d' = d := by simpa [Op.target] using htarget
        obtain hsame | ⟨r₀, r₁, hr₀, hr₁, -, -, hrevision⟩ := next_action_grant hchange
        · rw [hsame, hr] at hr'
          cases hr'
          omega
        · refine hgrants ?_
          simp [Grants, hchange, hr₀, hr₁, hrevision]
      · omega

/-! ### Runs -/

theorem run_used_le (hL : L.Good env) (hr : L.dispatches.get? dispatchId = some r)
    (ops : List Op)
    (hr' : (Machine.run (next env) L ops).dispatches.get? dispatchId = some r') (k : Counter) :
    usedBy r.policy r.recovery k ≤ usedBy r'.policy r'.recovery k := by
  induction ops generalizing L r with
  | nil =>
    cases hr.symm.trans hr'
    exact Nat.le_refl _
  | cons op ops ih =>
    obtain ⟨r₁, hr₁, hstep, -⟩ := next_step hL op hr
    exact Nat.le_trans (hstep.used_le k) (ih (next_good hL op) hr₁ hr')

/-- In every run the attempts of a dispatch are paid for, its counters grow within their budgets,
and a provider ceiling above three comes from exactly one grant. -/
theorem attempts_paid (env : Env) (ops : List Op) {d : DispatchId} {r : DispatchRows}
    (hr : (Machine.run (next env) {} ops).dispatches.get? d = some r) :
    r.queue.attempt ≤ 1 + r.policy.preIdentity.used + r.recovery.continuation.used +
        Machine.count (next env) (Released env d) {} ops ∧
      (∀ k, usedBy r.policy r.recovery k ≤ budgetBy r.policy r.recovery k) ∧
      (∀ before, before <+: ops → ∀ r₀,
        (Machine.run (next env) {} before).dispatches.get? d = some r₀ →
        ∀ k, usedBy r₀.policy r₀.recovery k ≤ usedBy r.policy r.recovery k) ∧
      (3 < r.policy.providerTransient.budget →
        Machine.count (next env) (Grants env d) {} ops = 1) := by
  have hgood := (run_good env ops).rows d r hr
  refine ⟨?_, usedBy_le_budgetBy _ _, ?_, fun hceiling => ?_⟩
  · have hpaid := Machine.measure_le_count (I := Good env) (fun _ op h => next_good h op)
      (fun L op h => next_paid h d op) (good_empty env) ops
    rw [extraAttempts_of_get? hr, paidAttempts_of_get? hr] at hpaid
    simp only [extraAttempts, paidAttempts, Table.get?_empty, Option.map_none,
      Option.getD_none] at hpaid
    omega
  · rintro before ⟨after, rfl⟩ r₀ hr₀ k
    rw [Machine.run_append] at hr
    exact run_used_le (run_good env before) hr₀ after hr k
  · have hcount := Machine.measure_eq_count (I := Good env) (fun _ op h => next_good h op)
      (fun L op h => next_grants h d op) (good_empty env) ops
    rw [grantsOf_of_get? hr] at hcount
    simp only [grantsOf, Table.get?_empty, Option.map_none, Option.getD_none, Nat.zero_add] at hcount
    obtain ⟨-, -, -, -, -, hmost, hbound, -⟩ := hgood.valid.policy
    omega

/-- The second attempt of a recovered dispatch is paid for by the recovery. -/
theorem requeued_paid : ∃ r,
    (Machine.run (next .sample) {} requeued).dispatches.get? sampleId = some r ∧
      r.queue.attempt = 2 ∧
      2 ≤ 1 + r.policy.preIdentity.used + r.recovery.continuation.used +
        Machine.count (next .sample) (Released .sample sampleId) {} requeued := by
  obtain ⟨r, hr, hattempt⟩ := Option.map_eq_some_iff.1 requeued_attemptOf
  exact ⟨r, hr, hattempt, hattempt ▸ (attempts_paid .sample requeued hr).1⟩

end CodexFlow.Ledger
