import CodexFlow.Ledger.Fencing
import CodexFlow.Ledger.Work

/-!
# Launching an authorized attempt

Every launch configures recovery again with the default budgets. That keeps what the exits and the
continuations have made of the budgets only while they stay within the defaults.
-/

namespace CodexFlow.Ledger

open Checked DispatchRows

variable {env : Env} {L L' : Ledger} {dispatchId : DispatchId} {r r' s : DispatchRows} {op : Op}
  {providerEnvKey profileSha256 : String} {now : Time}

/-- What `_issue_and_spawn_verified_worker` configures before it issues the capability. -/
def launchConfiguration (providerEnvKey profileSha256 : String) : RecoveryConfiguration where
  providerEnvKey := providerEnvKey
  profileSha256 := profileSha256

/-- The recovery row is bound to no profile yet, or to that of the launch. -/
def RecoveryState.hasIdentity (s : RecoveryState) (providerEnvKey profileSha256 : String) : Prop :=
  s.providerEnvKey.all (· = providerEnvKey) ∧
    (s.providerEnvKey.isSome → s.profileSha256 = some profileSha256)

/-- The launch's call commits and takes nothing of what recovery was granted. -/
def Launches (env : Env) (L : Ledger) (dispatchId : DispatchId) (r : DispatchRows)
    (providerEnvKey profileSha256 : String) (now : Time) : Prop :=
  ∃ L' r', L.perform env (.configureRecovery dispatchId
      (launchConfiguration providerEnvKey profileSha256) now) = .ok L' ∧
    L'.dispatches.get? dispatchId = some r' ∧
    r.recovery.inspection.budget ≤ r'.recovery.inspection.budget ∧
    r.recovery.continuation.budget ≤ r'.recovery.continuation.budget ∧
    r.recovery.freshThread.budget ≤ r'.recovery.freshThread.budget ∧
    (r.recovery.freshThreadAfterIdle → r'.recovery.freshThreadAfterIdle)

/-- The budgets that every launch writes are the most that recovery has. -/
def Work.WithinDefaults (w : Work) : Prop :=
  w.inspection.budget ≤ 4 ∧ w.continuation.budget ≤ 1 ∧ w.freshThread.budget = 0 ∧
    w.freshThreadAfterIdle = false

/-! ### One launch -/

def DispatchRows.configured (r : DispatchRows) (config : RecoveryConfiguration)
    (hi : r.recovery.inspection.used ≤ config.inspectionBudget)
    (hc : r.recovery.continuation.used ≤ config.continuationBudget)
    (hf : r.recovery.freshThread.used ≤ config.freshThreadBudget) (now : Time) : DispatchRows :=
  { r with recovery := { r.recovery with
    providerEnvKey := some config.providerEnvKey
    profileSha256 := some config.profileSha256
    inspection := r.recovery.inspection.withBudget config.inspectionBudget hi
    continuation := r.recovery.continuation.withBudget config.continuationBudget hc
    freshThreadAfterIdle := config.freshThreadAfterIdle
    freshThread := r.recovery.freshThread.withBudget config.freshThreadBudget hf
    updatedAt := now } }

theorem configureRecovery_ok {config : RecoveryConfiguration} :
    L.configureRecovery dispatchId config now = .ok L' ↔
      isEnvironmentKey config.providerEnvKey ∧ isSha256 config.profileSha256 ∧
      (config.inspectionBudget ≤ 16 ∧ config.continuationBudget ≤ 8 ∧
        config.freshThreadBudget ≤ 4 ∧
        (config.freshThreadAfterIdle ∨ config.freshThreadBudget = 0)) ∧
      ∃ r, L.dispatches.get? dispatchId = some r ∧
        r.recovery.hasIdentity config.providerEnvKey config.profileSha256 ∧
        ∃ hi hc hf, L' =
          { L with dispatches := L.dispatches.set dispatchId (r.configured config hi hc hf now) } := by
  simp only [configureRecovery, checks_ok, onDispatch_ok]
  refine and_congr_right fun _ => and_congr_right fun _ => and_congr_right fun _ => ?_
  constructor
  · rintro ⟨r, r', hr, ⟨hsame, hbody⟩, rfl⟩
    split_ifs at hbody with hused hfresh
    cases hbody
    exact ⟨r, hr, hsame, hused.1, hused.2, hfresh, rfl⟩
  · rintro ⟨r, hr, hsame, hi, hc, hf, rfl⟩
    refine ⟨r, _, hr, ⟨hsame, ?_⟩, rfl⟩
    rw [dif_pos ⟨hi, hc⟩, dif_pos hf]
    rfl

theorem configured_valid {keys : List DispatchId} {config : RecoveryConfiguration}
    (h : r.Valid env keys dispatchId) (hkey : isEnvironmentKey config.providerEnvKey)
    (hprofile : isSha256 config.profileSha256)
    (hbounds : config.inspectionBudget ≤ 16 ∧ config.continuationBudget ≤ 8 ∧
      config.freshThreadBudget ≤ 4)
    (hi : r.recovery.inspection.used ≤ config.inspectionBudget)
    (hc : r.recovery.continuation.used ≤ config.continuationBudget)
    (hf : r.recovery.freshThread.used ≤ config.freshThreadBudget) :
    (r.configured config hi hc hf now).Valid env keys dispatchId :=
  { h with
    recovery := ⟨hprofile, hkey, hbounds.1, hbounds.2.1, hbounds.2.2, h.recovery.2.2.2.2.2⟩ }

/-- A launch commits and takes nothing exactly when the budgets are within the defaults. -/
theorem launches_iff (hL : L.Valid env) (hr : L.dispatches.get? dispatchId = some r)
    (hkey : isEnvironmentKey providerEnvKey) (hprofile : isSha256 profileSha256)
    (hsame : r.recovery.hasIdentity providerEnvKey profileSha256) :
    Launches env L dispatchId r providerEnvKey profileSha256 now ↔ r.work.WithinDefaults := by
  constructor
  · rintro ⟨L', r', hperform, hr', hinspection, hcontinuation, hfresh, hidle⟩
    have hbody : L.configureRecovery dispatchId _ now = .ok L' := (perform_ok.1 hperform).2.1
    obtain ⟨-, -, -, r₀, hr₀, -, hi, hc, hf, rfl⟩ := configureRecovery_ok.1 hbody
    obtain rfl := Option.some.inj (hr.symm.trans hr₀)
    obtain rfl := Option.some.inj (hr'.symm.trans (Table.get?_set_self hr _))
    refine ⟨hinspection, hcontinuation, Nat.le_zero.1 hfresh, ?_⟩
    exact Bool.eq_false_iff.2 fun h => absurd (hidle h) Bool.false_ne_true
  · rintro ⟨hinspection, hcontinuation, hfresh, hidle⟩
    have hi : r.recovery.inspection.used ≤ 4 := r.recovery.inspection.le.trans hinspection
    have hc : r.recovery.continuation.used ≤ 1 := r.recovery.continuation.le.trans hcontinuation
    have hf : r.recovery.freshThread.used ≤ 0 := r.recovery.freshThread.le.trans hfresh.le
    have hdefaults : 4 ≤ 16 ∧ 1 ≤ 8 ∧ 0 ≤ 4 := by decide
    have hvalid := @configured_valid env dispatchId r now L.dispatches.keys
      (launchConfiguration providerEnvKey profileSha256) (hL.rows hr) hkey hprofile
      hdefaults hi hc hf
    refine ⟨_, _, perform_ok.2 ⟨hL, configureRecovery_ok.2
      ⟨hkey, hprofile, ⟨hdefaults.1, hdefaults.2.1, hdefaults.2.2, .inr rfl⟩, r, hr, hsame, hi, hc, hf, rfl⟩,
      valid_set hL hvalid⟩,
      Table.get?_set_self hr _, hinspection, hcontinuation, hfresh.le, fun h => ?_⟩
    exact absurd (hidle.symm.trans h) Bool.false_ne_true

/-! ### What raises the budgets -/

/-- The failure is charged, and its charge raises a budget above the default. -/
def DispatchRows.Raises (r : DispatchRows) (failure : RetryFailureClass) : Prop :=
  (r.policy.charge failure).isSome ∧
    (failure = .invalidResponseChain ∧ r.recovery.freshThread.used = 0 ∨
      failure = .providerTransient ∧ 1 < r.policy.providerTransient.budget)

instance (r : DispatchRows) (failure : RetryFailureClass) : Decidable (r.Raises failure) := by
  unfold Raises
  infer_instance

/-- The call configures more than the defaults, or charges a failure that raises them. -/
def Exceeds (L : Ledger) : Op → Prop
  | .enqueue _ q _ => ¬(q.inspectionBudget ≤ 4 ∧ q.continuationBudget ≤ 1 ∧
      q.freshThreadBudget = 0 ∧ q.freshThreadAfterIdle = false)
  | .configureRecovery _ c _ => ¬(c.inspectionBudget ≤ 4 ∧ c.continuationBudget ≤ 1 ∧
      c.freshThreadBudget = 0 ∧ c.freshThreadAfterIdle = false)
  | .exit d _ exit _ => (L.dispatches.get? d).any (·.Raises (exit.failure.getD .unknown))
  | .retryFailure d failure _ _ => (L.dispatches.get? d).any (·.Raises failure)
  | _ => False

instance (L : Ledger) (op : Op) : Decidable (L.Exceeds op) := by
  cases op <;> unfold Exceeds <;> infer_instance

theorem prepareFor_withinDefaults {failure : RetryFailureClass}
    (hcharge : (r.policy.charge failure).isSome) (hraises : ¬r.Raises failure)
    (h : r.work.WithinDefaults) :
    ({ r with recovery := r.recovery.prepareFor failure r.policy.providerTransient.budget now } :
      DispatchRows).work.WithinDefaults := by
  obtain ⟨hinspection, hcontinuation, hfresh, hidle⟩ := h
  unfold RecoveryState.prepareFor
  split
  · rw [if_neg fun hused => hraises ⟨hcharge, .inl ⟨rfl, hused⟩⟩]
    exact ⟨hinspection, hcontinuation, hfresh, hidle⟩
  · have hbudget : r.policy.providerTransient.budget ≤ 1 :=
      Nat.not_lt.1 fun hlt => hraises ⟨hcharge, .inr ⟨rfl, hlt⟩⟩
    exact ⟨hinspection, max_le hcontinuation hbudget, hfresh, hidle⟩
  · exact ⟨hinspection, hcontinuation, hfresh, hidle⟩

theorem recordCharge_withinDefaults {failure : RetryFailureClass} {evidence : RetryEvidence}
    {charge : Charge} (hcharge : r.policy.charge failure = some charge)
    (hraises : ¬r.Raises failure) (h : r.work.WithinDefaults) :
    (r.recordCharge env dispatchId failure evidence charge now).work.WithinDefaults := by
  have hprepared := @prepareFor_withinDefaults r now failure (by rw [hcharge]; rfl) hraises h
  unfold recordCharge
  dsimp only
  split
  · split <;> exact hprepared
  split <;> exact hprepared

theorem spendAtExit_withinDefaults {failure : RetryFailureClass} {context : ExitContext}
    {charge : Charge} (hcharge : r.policy.charge failure = some charge)
    (hraises : ¬r.Raises failure) (h : r.work.WithinDefaults) :
    (r.spendAtExit env dispatchId failure context charge now).work.WithinDefaults := by
  have hprepared := @prepareFor_withinDefaults r now failure (by rw [hcharge]; rfl) hraises h
  unfold spendAtExit
  dsimp only
  split
  · exact hprepared
  split <;> exact hprepared

theorem applyExitRetryPolicy_withinDefaults {failure : RetryFailureClass} {context : ExitContext}
    (hraises : ¬r.Raises failure) (h : r.work.WithinDefaults) :
    (r.applyExitRetryPolicy env dispatchId failure context now).work.WithinDefaults := by
  unfold applyExitRetryPolicy
  split
  · rename_i charge hcharge
    exact spendAtExit_withinDefaults hcharge hraises h
  · split_ifs <;> exact h

theorem recordExit_raises {exit : WorkerExit} {failure : RetryFailureClass} :
    ((r.markExited now).recordExit exit now).Raises failure ↔ r.Raises failure := by
  have hbudget : ((r.markExited now).recordExit exit now).policy.providerTransient.budget =
      r.policy.providerTransient.budget := by
    unfold recordExit
    dsimp only
    split <;> rfl
  unfold Raises
  rw [recordExit_charge, hbudget]
  rfl

theorem workerExit_withinDefaults {exit : WorkerExit}
    (hraises : ¬r.Raises (exit.failure.getD .unknown)) (h : r.work.WithinDefaults) :
    (r.workerExit env dispatchId exit now).work.WithinDefaults := by
  unfold workerExit
  split
  · exact h
  · refine applyExitRetryPolicy_withinDefaults (recordExit_raises.not.2 hraises) ?_
    obtain ⟨hinspection, hcontinuation, hfresh, hidle⟩ := h
    refine ⟨?_, hcontinuation, hfresh, hidle⟩
    show (if exit.isProviderTransient then r.recovery.inspection
      else r.recovery.inspection.spendCapped).budget ≤ 4
    split <;> exact hinspection

/-! ### Runs -/

def AllWithin (L : Ledger) : Prop :=
  ∀ d r, L.dispatches.get? d = some r → r.work.WithinDefaults

theorem allWithin_empty : AllWithin {} := by
  intro d r hr
  cases hr

theorem Works.withinDefaults (h : Works env L op dispatchId r s)
    (hr : L.dispatches.get? dispatchId = some r) (hwithin : r.work.WithinDefaults)
    (hop : ¬L.Exceeds op) : s.work.WithinDefaults := by
  cases h with
  | records _ _ h => exact h ▸ hwithin
  | claims _ _ _ _ _ _ _ _ h => exact h ▸ hwithin
  | cancels _ _ _ _ _ h => exact h ▸ hwithin
  | acknowledges _ _ _ _ _ _ _ h => exact h ▸ hwithin
  | moves _ _ _ _ _ h => exact h ▸ hwithin
  | requeues _ _ _ h => exact h ▸ hwithin
  | binds _ _ _ _ _ _ _ _ _ _ _ _ h => exact h ▸ hwithin
  | runs _ _ _ _ _ _ _ _ h => exact h ▸ hwithin
  | exits process exit now heq _ h =>
    subst heq
    exact h ▸ workerExit_withinDefaults
      (fun hraises => hop (by rw [Exceeds, hr]; exact decide_eq_true hraises)) hwithin
  | charges failure evidence now heq _ charge hcharge h =>
    subst heq
    exact h ▸ recordCharge_withinDefaults hcharge
      (fun hraises => hop (by rw [Exceeds, hr]; exact decide_eq_true hraises)) hwithin
  | attends _ h => exact h ▸ hwithin
  | configures config now heq hi hc hf h =>
    subst heq
    exact h ▸ not_not.1 hop
  | inspects _ _ _ h => exact h ▸ hwithin
  | reinspects _ h => exact h ▸ hwithin
  | continues epoch nonce program current now _ _ _ h =>
    have hcontinued : (r.continueOrClose ⟨epoch, nonce⟩ current).work.WithinDefaults := by
      unfold continueOrClose
      split_ifs <;> exact hwithin
    exact h ▸ hcontinued
  | grants _ _ _ _ _ _ _ hbudget => exact absurd (hbudget ▸ hwithin.2.1) (by decide)
  | results _ _ _ _ _ _ h => exact h ▸ hwithin
  | ingests _ _ _ _ _ _ _ h => exact h ▸ hwithin
  | finishes _ _ _ _ _ h => exact h ▸ hwithin
  | captures _ _ _ _ _ _ h => exact h ▸ hwithin

theorem next_allWithin (hL : L.AllWithin) (op : Op) (hop : ¬L.Exceeds op) :
    (L.next env op).AllWithin := by
  intro d r' hr'
  obtain hsame | ⟨-, hbody, -⟩ := next_cases env L op
  · rw [hsame] at hr'
    exact hL d r' hr'
  cases hr : L.dispatches.get? d with
  | none =>
    obtain ⟨q, now, sequence, created, rfl, rfl⟩ := (body_works hbody).fresh d r' hr hr'
    exact not_not.1 hop
  | some r =>
    obtain ⟨s, hs, hworks⟩ := (body_works hbody).rows d r hr
    obtain rfl := Option.some.inj (hr'.symm.trans hs)
    exact hworks.withinDefaults hr (hL d r hr) hop

/-- In every run without a call that exceeds the defaults, each launch under the same profile
commits and takes nothing. -/
theorem authorized_attempts_launch (env : Env) (ops : List Op)
    (hops : Machine.Along (next env) (fun L op => ¬L.Exceeds op) {} ops) {d : DispatchId}
    {r : DispatchRows} (hr : (Machine.run (next env) {} ops).dispatches.get? d = some r)
    {providerEnvKey profileSha256 : String} (hkey : isEnvironmentKey providerEnvKey)
    (hprofile : isSha256 profileSha256)
    (hsame : r.recovery.hasIdentity providerEnvKey profileSha256) (now : Time) :
    Launches env (Machine.run (next env) {} ops) d r providerEnvKey profileSha256 now := by
  have hwithin : (Machine.run (next env) {} ops).AllWithin :=
    Machine.invariant_along (I := AllWithin) (fun _ op hL hop => next_allWithin hL op hop)
      allWithin_empty hops
  exact (launches_iff (run_good env ops).to_valid hr hkey hprofile hsame).2 (hwithin d r hr)

def launched : List Op :=
  enqueued ++ [.configureRecovery sampleId (launchConfiguration "API_KEY" reviewSha256) 2] ++ started 1

/-- Its process is lost, its thread is found idle and a continuation is authorized. -/
def continuedRun : List Op :=
  launched ++ [.exit sampleId ⟨41, "birth"⟩ {} 5,
    .inspection sampleId { kind := .idleNoResult, nextEligibleAt := some 6 } 6,
    .beginContinuation sampleId 1 nonceSha256 (fun _ => true) 7 7]

theorem continuedRun_launches : ∃ r, r.queue.state = .claimed ∧
    Launches .sample (Machine.run (next .sample) {} continuedRun) sampleId r "API_KEY" reviewSha256
      8 := by
  have hrun : ((Machine.run (next .sample) {} continuedRun).dispatches.get? sampleId).any fun r =>
      r.queue.state = .claimed && r.recovery.providerEnvKey = some "API_KEY" &&
        r.recovery.profileSha256 = some reviewSha256 &&
        Machine.Along (next .sample) (fun L op => ¬L.Exceeds op) {} continuedRun := by
    decide +kernel
  obtain ⟨r, hr, h⟩ := (Option.any_eq_true _ _).1 hrun
  simp only [Bool.and_eq_true, decide_eq_true_eq] at h
  obtain ⟨⟨⟨hstate, hkey⟩, hprofile⟩, halong⟩ := h
  exact ⟨r, hstate, authorized_attempts_launch .sample continuedRun halong hr (by decide) (by decide)
    ⟨by rw [hkey]; rfl, fun _ => hprofile⟩ 8⟩

/-- Its response chain is rejected, and a continuation on a fresh thread is authorized. -/
def rejectedRun : List Op :=
  launched ++ [.exit sampleId ⟨41, "birth"⟩ { exitCode := some 75 } 5,
    .inspection sampleId { kind := .invalidChainFailedTurn, nextEligibleAt := some 6 } 6,
    .beginContinuation sampleId 1 nonceSha256 (fun _ => true) 7 7]

theorem rejectedRun_not_launches :
    ¬∀ (env : Env) (ops : List Op) (d : DispatchId) (r : DispatchRows)
      (providerEnvKey profileSha256 : String) (now : Time),
      (Machine.run (next env) {} ops).dispatches.get? d = some r → r.queue.state = .claimed →
      isEnvironmentKey providerEnvKey → isSha256 profileSha256 →
      r.recovery.hasIdentity providerEnvKey profileSha256 →
      Launches env (Machine.run (next env) {} ops) d r providerEnvKey profileSha256 now := by
  intro h
  have hrun : ((Machine.run (next .sample) {} rejectedRun).dispatches.get? sampleId).any fun r =>
      r.queue.state = .claimed && r.recovery.providerEnvKey = some "API_KEY" &&
        r.recovery.profileSha256 = some reviewSha256 &&
        ((Machine.run (next .sample) {} rejectedRun).perform .sample (.configureRecovery sampleId
          (launchConfiguration "API_KEY" reviewSha256) 8)).toOption.isNone := by
    decide +kernel
  obtain ⟨r, hr, hfacts⟩ := (Option.any_eq_true _ _).1 hrun
  simp only [Bool.and_eq_true, decide_eq_true_eq] at hfacts
  obtain ⟨⟨⟨hstate, hkey⟩, hprofile⟩, hrefused⟩ := hfacts
  obtain ⟨L', r', hperform, -⟩ := h .sample rejectedRun sampleId r "API_KEY" reviewSha256 8 hr hstate
    (by decide) (by decide) ⟨by rw [hkey]; rfl, fun _ => hprofile⟩
  rw [hperform] at hrefused
  cases hrefused

end CodexFlow.Ledger
