import CodexFlow.Ledger.Refine

/-!
# Refinement of the retry operations

What a charge does to the counters, and the steps of a recorded failure, of a retry decision and of
a worker exit.
-/

namespace CodexFlow.Ledger

open Checked DispatchRows

variable {env : Env} {L L' : Ledger} {keys : List DispatchId} {dispatchId : DispatchId}
  {r r' : DispatchRows} {c : Cause} {now : Time}

/-! ### Charges -/

/-- What a charge for `failure` is. -/
structure Charge.For (p : RetryPolicy) (failure : RetryFailureClass) (charge : Charge) : Prop where
  strategy : charge.strategy ≠ .humanAttention
  used_le : ∀ s k, usedBy p s k ≤ usedBy charge.policy s k
  backoff : failure = .preIdentityTransport → charge.strategy = .backoff
  paid : failure = .preIdentityTransport →
    charge.policy.preIdentity.used = p.preIdentity.used + 1
  granted : charge.policy.providerTransientGrantUsed = p.providerTransientGrantUsed

theorem RetryPolicy.charge_for {p : RetryPolicy} {failure : RetryFailureClass} {charge : Charge}
    (h : p.charge failure = some charge) : charge.For p failure := by
  obtain ⟨column, hcolumn, h⟩ := Option.bind_eq_some_iff.1 h
  split_ifs at h with hlt
  cases h
  cases failure <;> cases hcolumn <;>
    exact ⟨by simp, fun s k => by cases k <;> simp [usedBy, Budget.spend], by simp,
      by simp [Budget.spend], rfl⟩

@[simp] theorem prepareFor_recoveryState (s : RecoveryState) (failure : RetryFailureClass)
    (n : ℕ) (now : Time) : (s.prepareFor failure n now).recoveryState = s.recoveryState := by
  unfold RecoveryState.prepareFor
  split
  · split_ifs <;> rfl
  · rfl
  · rfl

theorem usedBy_prepareFor (p : RetryPolicy) (s : RecoveryState) (failure : RetryFailureClass)
    (n : ℕ) : usedBy p (s.prepareFor failure n now) = usedBy p s := by
  unfold RecoveryState.prepareFor
  split
  · split_ifs <;> rfl
  · rfl
  · rfl

theorem isNonterminal_of_not_mem {s : QueueState}
    (h : s ∉ [.completed, .failed, .cancelled, .resultSubmitted, .finalizing]) :
    s.isNonterminal := by
  cases s <;> revert h <;> decide

theorem not_isTerminal_of_requeued (hgood : r.Good env keys dispatchId)
    (hvalid : r'.Valid env keys dispatchId) (hstate : r'.queue.state = .queued)
    (hraw : r'.queue.raw = r.queue.raw) : ¬r.life.state.isTerminal := by
  intro hterminal
  have hnone : r'.queue.raw = none := (hvalid.queue.2.2.2.1 (by rw [hstate]; rfl)).1
  have hsome : r.life.result.isSome := by
    rw [hgood.recorded]
    exact hterminal
  rw [hraw] at hnone
  simp [life, rawSha256, hnone] at hsome

/-! ### Recorded failures -/

theorem recordCharge_refines {failure : RetryFailureClass} {evidence : RetryEvidence}
    {charge : Charge} (hgood : r.Good env keys dispatchId) (hnon : r.queue.state.isNonterminal)
    (hstrategy : r.policy.strategy ≠ .humanAttention) (hcharge : charge.For r.policy failure) :
    Refines c r (r.recordCharge env dispatchId failure evidence charge now) := by
  have hused : ∀ k, r.life.used k ≤
      usedBy charge.policy (r.recovery.prepareFor failure r.policy.providerTransient.budget now) k := by
    intro k
    rw [usedBy_prepareFor]
    exact hcharge.used_le _ k
  have hgranted : r.life.granted = charge.policy.providerTransientGrantUsed := hcharge.granted.symm
  have hdraw := Life.Step.draw (c := c) hnon hstrategy hcharge.strategy hused
  rw [hgranted] at hdraw
  have hsettled := hgood.settled
  unfold recordCharge
  dsimp only
  by_cases hfailure : failure = .preIdentityTransport
  · rw [if_pos hfailure]
    by_cases hfree : (r.queue.state ≠ .queued && r.liveness.all (·.exitedAt.isSome)) = true
    · rw [if_pos hfree]
      refine ⟨settled_of_early rfl, ?_⟩
      have hstep := Life.Step.retry (c := c) hnon hused (hcharge.paid hfailure)
      rw [← hcharge.backoff hfailure, hgranted] at hstep
      exact hstep
    · rw [if_neg hfree]
      exact ⟨hsettled.congr (prepareFor_recoveryState ..) rfl, hdraw⟩
  · rw [if_neg hfailure]
    by_cases hqueued : (r.queue.state = .queued && charge.strategy = .backoff) = true
    · rw [if_pos hqueued]
      exact ⟨hsettled.congr (prepareFor_recoveryState ..) rfl, hdraw⟩
    · rw [if_neg hqueued]
      exact ⟨hsettled.congr (prepareFor_recoveryState ..) rfl, hdraw⟩

theorem recordRetryFailure_updates {failure : RetryFailureClass} {evidence : RetryEvidence}
    (h : L.recordRetryFailure env dispatchId failure evidence now = .ok L') :
    Updates env c dispatchId L L' := by
  simp only [recordRetryFailure, checks_ok] at h
  obtain ⟨-, -, h⟩ := h
  refine .of_onDispatch h fun r r' _ hbody hgood _ => ?_
  simp only [checks_ok] at hbody
  obtain ⟨hstate, hbody⟩ := hbody
  have hnon := isNonterminal_of_not_mem hstate
  split at hbody
  · cases hbody
    exact .refl hgood.settled
  · rename_i hstrategy
    split at hbody
    · rename_i charge hcharge
      cases hbody
      exact recordCharge_refines hgood hnon hstrategy (RetryPolicy.charge_for hcharge)
    · simp only [steps_ok] at hbody
      obtain ⟨-, rfl⟩ := hbody
      exact ⟨settled_of_recovery (by decide : RecoveryKind.humanAttentionRequired ≠ .none),
        .attend hnon fun k => Nat.le_refl _⟩

theorem retryDispatch_updates {strategy : RecoveryStrategy} {state : QueueState} {reason : String}
    (h : L.retryDispatch env dispatchId strategy state reason now = .ok L') :
    Updates env .decision dispatchId L L' := by
  simp only [retryDispatch, checks_ok] at h
  obtain ⟨-, h⟩ := h
  refine .of_onDispatch h fun r r' _ hbody hgood hvalid => ?_
  simp only [steps_ok] at hbody
  obtain ⟨-, rfl⟩ := hbody
  have hterminal := not_isTerminal_of_requeued hgood hvalid rfl rfl
  exact ⟨settled_of_early rfl, .release rfl hterminal (fun _ => rfl) (.inl rfl)⟩

/-! ### Worker exits -/

/-- The exit finds no inspection left. -/
def DispatchRows.inspectionsExhausted (r : DispatchRows) : Prop :=
  r.recovery.inspection.budget ≤ r.recovery.inspection.used

instance : Decidable r.inspectionsExhausted := inferInstanceAs (Decidable (_ ≤ _))

/-- The rows as `mark_worker_exit` hands them to the retry policy. -/
def DispatchRows.exitRecorded (r : DispatchRows) (exit : WorkerExit) (now : Time) : DispatchRows :=
  (r.markExited now).recordExit exit now

theorem usedBy_exitRecorded (exit : WorkerExit) (now : Time) (k : Counter) :
    usedBy r.policy r.recovery k ≤
      usedBy (r.exitRecorded exit now).policy (r.exitRecorded exit now).recovery k := by
  have hpolicy : usedBy r.policy r.recovery k =
      usedBy (r.exitRecorded exit now).policy r.recovery k := by
    unfold exitRecorded recordExit
    dsimp only
    split_ifs
    · rfl
    · rfl
  rw [hpolicy]
  cases k with
  | inspection =>
    show r.recovery.inspection.used ≤ (if exit.isProviderTransient then r.recovery.inspection
      else r.recovery.inspection.spendCapped).used
    split_ifs
    · exact Nat.le_refl _
    · exact r.recovery.inspection.le_spendCapped_used
  | _ => exact Nat.le_refl _

theorem exitRecorded_recoveryState (exit : WorkerExit) :
    (r.exitRecorded exit now).recovery.recoveryState =
      if r.inspectionsExhausted then .humanAttentionRequired else .inspectionPending := rfl

theorem exitRecorded_attempt (exit : WorkerExit) :
    (r.exitRecorded exit now).queue.attempt = r.queue.attempt := by
  unfold exitRecorded recordExit
  dsimp only
  split_ifs
  · rfl
  · rfl
  · rfl

theorem exitRecorded_raw (exit : WorkerExit) :
    (r.exitRecorded exit now).queue.raw = r.queue.raw := by
  unfold exitRecorded recordExit
  dsimp only
  split_ifs
  · rfl
  · rfl
  · rfl

theorem exitRecorded_preIdentity (exit : WorkerExit) :
    (r.exitRecorded exit now).policy.preIdentity = r.policy.preIdentity := by
  unfold exitRecorded recordExit
  dsimp only
  split_ifs
  · rfl
  · rfl

theorem exitRecorded_granted (exit : WorkerExit) (now : Time) :
    (r.exitRecorded exit now).policy.providerTransientGrantUsed =
      r.policy.providerTransientGrantUsed := by
  unfold exitRecorded recordExit
  dsimp only
  split_ifs
  · rfl
  · rfl

/-- An exit that keeps the recorded recovery state and sets another strategy: the strategy is
written over an attention exactly when the inspections are exhausted. -/
theorem exit_refines (exit : WorkerExit) (now : Time) (hnon : r.queue.state.isNonterminal)
    (hvalid : r'.Valid env keys dispatchId)
    (hk : r'.recovery.recoveryState = (r.exitRecorded exit now).recovery.recoveryState)
    (hs : r'.policy.strategy ≠ .humanAttention)
    (hused : ∀ k, r.life.used k ≤ usedBy r'.policy r'.recovery k)
    (hattempt : r'.queue.attempt = (r.exitRecorded exit now).queue.attempt)
    (hraw : r'.queue.raw = (r.exitRecorded exit now).queue.raw)
    (hgranted : r'.policy.providerTransientGrantUsed =
      (r.exitRecorded exit now).policy.providerTransientGrantUsed)
    (hwaits : r'.successors = r.successors) : Refines .exit r r' := by
  rw [exitRecorded_attempt] at hattempt
  rw [exitRecorded_raw] at hraw
  rw [exitRecorded_granted] at hgranted
  have hlife : r'.life = { r.life with
      state := r'.queue.state, strategy := r'.policy.strategy
      used := usedBy r'.policy r'.recovery } := by
    simp only [life, rawSha256, waits, hattempt, hraw, hgranted, hwaits]
  rw [exitRecorded_recoveryState] at hk
  by_cases hexhausted : r.inspectionsExhausted
  · rw [if_pos hexhausted] at hk
    have hq : r'.queue.state = .humanAttentionRequired := hvalid.queueState_eq (by rw [hk]; rfl)
    refine ⟨settled_of_recovery (by rw [hk]; decide), ?_⟩
    rw [hlife, hq]
    exact .overwrite hnon hs hused
  · rw [if_neg hexhausted] at hk
    have hq : r'.queue.state = .recoveryInspectionPending := hvalid.queueState_eq (by rw [hk]; rfl)
    refine ⟨settled_of_recovery (by rw [hk]; decide), ?_⟩
    rw [hlife, hq]
    exact .inspect hnon rfl (.inl hs) hused

/-- One unit spent at an exit: a requeue that the counter pays for, or the strategy of the class
over whatever the exit recorded. -/
theorem spendAtExit_refines {exit : WorkerExit} {failure : RetryFailureClass} {charge : Charge}
    {context : ExitContext} (hnon : r.queue.state.isNonterminal)
    (hcharge : charge.For (r.exitRecorded exit now).policy failure)
    (h : (r.exitRecorded exit now).spendAtExit env dispatchId failure context charge now = r')
    (hvalid : r'.Valid env keys dispatchId) : Refines .exit r r' := by
  have hused : ∀ k, r.life.used k ≤ usedBy charge.policy
      ((r.exitRecorded exit now).recovery.prepareFor failure
        (r.exitRecorded exit now).policy.providerTransient.budget now) k := by
    intro k
    rw [usedBy_prepareFor]
    exact Nat.le_trans (usedBy_exitRecorded exit now k) (hcharge.used_le _ k)
  unfold spendAtExit at h
  dsimp only at h
  by_cases hfailure : failure = .preIdentityTransport
  · rw [if_pos hfailure] at h
    subst h
    refine ⟨settled_of_early rfl, ?_⟩
    have hpaid := hcharge.paid hfailure
    rw [exitRecorded_preIdentity] at hpaid
    have hstep := Life.Step.retry (c := .exit) hnon hused hpaid
    rw [← hcharge.backoff hfailure] at hstep
    simp only [life, rawSha256, releaseToQueue, DispatchQueue.requeue, exitRecorded_attempt,
      exitRecorded_raw, hcharge.granted, exitRecorded_granted]
    exact hstep
  · rw [if_neg hfailure] at h
    have hk := prepareFor_recoveryState (r.exitRecorded exit now).recovery failure
      (r.exitRecorded exit now).policy.providerTransient.budget now
    split at h
    · subst h
      exact exit_refines exit now hnon hvalid hk hcharge.strategy hused rfl rfl hcharge.granted rfl
    · subst h
      exact exit_refines exit now hnon hvalid hk hcharge.strategy hused rfl rfl hcharge.granted rfl

theorem closeAtExit_kept (failure : RetryFailureClass) (context : ExitContext) (now : Time) :
    (r.closeAtExit failure context now).queue.attempt = r.queue.attempt ∧
      (r.closeAtExit failure context now).queue.raw = r.queue.raw := by
  unfold closeAtExit
  dsimp only
  split_ifs
  · exact ⟨rfl, rfl⟩
  · exact ⟨rfl, rfl⟩

theorem closeAtExit_refines {exit : WorkerExit} {failure : RetryFailureClass}
    {context : ExitContext} (hnon : r.queue.state.isNonterminal)
    (hr : (r.exitRecorded exit now).closeAtExit failure context now = r')
    (hvalid : r'.Valid env keys dispatchId) : Refines .exit r r' := by
  have hrecovery : r'.recovery.recoveryState = .humanAttentionRequired := by rw [← hr]; rfl
  have hq : r'.queue.state = .humanAttentionRequired :=
    hvalid.queueState_eq (by rw [hrecovery]; rfl)
  refine ⟨settled_of_recovery (by rw [hrecovery]; decide), ?_⟩
  have hstep : Life.Step .exit r.life _ :=
    .attend hnon fun k => usedBy_exitRecorded (r := r) exit now k
  have hkept := closeAtExit_kept (r := r.exitRecorded exit now) failure context now
  rw [hr, exitRecorded_attempt, exitRecorded_raw] at hkept
  have hgranted : r'.policy.providerTransientGrantUsed = r.policy.providerTransientGrantUsed := by
    rw [← hr, ← exitRecorded_granted (r := r) exit now]
    rfl
  simp only [life, rawSha256, hq, hkept.1, hkept.2, hgranted]
  rw [← hr]
  exact hstep

theorem markWorkerExit_updates {process : WorkerProcess} {exit : WorkerExit}
    (h : L.markWorkerExit env dispatchId process exit now = .ok L') :
    Updates env .exit dispatchId L L' := by
  simp only [markWorkerExit, checks_ok] at h
  obtain ⟨-, h⟩ := h
  refine .of_onDispatch h fun r r' _ hbody hgood hvalid => ?_
  split at hbody
  · cases hbody
  simp only [steps_ok] at hbody
  obtain ⟨-, hr⟩ := hbody
  split at hr
  · exact hr ▸ .refl hgood.settled
  unfold workerExit at hr
  split at hr
  · exact hr ▸ .stay hgood.settled rfl rfl
  rename_i hstate
  have hnon : r.queue.state.isNonterminal := by
    have hne := hgood.ne_submitted
    generalize r.queue.state = state at *
    cases state <;> revert hstate hne <;> decide
  unfold applyExitRetryPolicy at hr
  split at hr
  · rename_i charge hcharge
    exact spendAtExit_refines hnon (RetryPolicy.charge_for hcharge) hr hvalid
  split at hr
  · have hs : r'.policy.strategy ≠ .humanAttention := by
      rw [← hr]
      exact RecoveryStrategy.noConfusion
    refine exit_refines exit now hnon hvalid ?_ hs ?_ ?_ ?_ ?_ ?_
    · rw [← hr]; rfl
    · rw [← hr]; exact usedBy_exitRecorded exit now
    · rw [← hr]; rfl
    · rw [← hr]; rfl
    · rw [← hr]; rfl
    · rw [← hr]; rfl
  · exact closeAtExit_refines hnon hr hvalid

end CodexFlow.Ledger
