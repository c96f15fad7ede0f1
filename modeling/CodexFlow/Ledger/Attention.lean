import CodexFlow.Ledger.Outcome

/-!
# Attention

The queue row, the recovery state and the retry policy each say whether a human has to look at a
dispatch. They agree as long as no worker exit finds its inspections exhausted and still has a
strategy to write over the attention it recorded.
-/

namespace CodexFlow.Ledger

open Checked DispatchRows

variable {env : Env} {L L' : Ledger} {keys : List DispatchId} {dispatchId : DispatchId}
  {r r' : DispatchRows} {op : Op} {now : Time}

def DispatchRows.AttentionAgrees (r : DispatchRows) : Prop :=
  (r.queue.state = .humanAttentionRequired ↔
    r.recovery.recoveryState = .humanAttentionRequired) ∧
  (r.recovery.recoveryState = .humanAttentionRequired ↔ r.policy.strategy = .humanAttention)

instance (r : DispatchRows) : Decidable r.AttentionAgrees := by
  unfold AttentionAgrees; infer_instance

/-- The exit has a strategy to set after it recorded its facts: a unit of a class other than
`preIdentityTransport`, or the inspection of an ambiguous exit. -/
def DispatchRows.setsStrategy (r : DispatchRows) (exit : WorkerExit) : Bool :=
  let failure := exit.failure.getD .unknown
  if (r.policy.charge failure).isSome then failure ≠ .preIdentityTransport
  else (r.exitContext exit).inspects failure

/-- The first exit of the bound worker, without inspections left and with a strategy to set. -/
def Overwrites (L : Ledger) : Op → Prop
  | .exit d process exit _ =>
    ∃ r l, L.dispatches.get? d = some r ∧ r.liveness = some l ∧ l.pid = process.pid ∧
      l.processBirthIdentity = process.processBirthIdentity ∧ l.exitedAt = none ∧
      r.queue.state ∈ [.claimed, .starting, .running, .humanAttentionRequired] ∧
      r.inspectionsExhausted ∧ r.setsStrategy exit
  | _ => False

theorem recoveryKind_attention {s : QueueState} :
    s.recoveryKind = .humanAttentionRequired ↔ s = .humanAttentionRequired := by
  cases s <;> decide

/-- For good rows two of the projections agree anyway. -/
theorem agrees_iff_coherent (hgood : r.Good env keys dispatchId) :
    r.AttentionAgrees ↔ r.life.Coherent := by
  have hqueue : r.recovery.recoveryState = .humanAttentionRequired ↔
      r.queue.state = .humanAttentionRequired := by
    rw [hgood.recoveryKind]
    exact recoveryKind_attention
  unfold AttentionAgrees Life.Coherent
  rw [hqueue]
  exact ⟨fun h => h.2, fun h => ⟨Iff.rfl, h⟩⟩

/-! ### Exits -/

theorem charge_exitRecorded (exit : WorkerExit) (failure : RetryFailureClass) (now : Time) :
    ((r.exitRecorded exit now).policy.charge failure).isSome =
      (r.policy.charge failure).isSome := by
  have hcolumn : ∀ column, retryColumn failure = some column →
      column.get (r.exitRecorded exit now).policy = column.get r.policy := by
    intro column hcolumn
    have hkept : (r.exitRecorded exit now).policy = r.policy ∨
        (r.exitRecorded exit now).policy = r.policy.requireAttention inspectionExhausted now := by
      unfold exitRecorded recordExit
      dsimp only
      split_ifs
      · exact .inr rfl
      · exact .inl rfl
    obtain hkept | hkept := hkept
    · rw [hkept]
    · rw [hkept]
      cases failure <;> cases hcolumn <;> rfl
  unfold RetryPolicy.charge
  cases h : retryColumn failure with
  | none => rfl
  | some column =>
    simp only [Option.bind_some]
    rw [hcolumn column h]
    split_ifs
    · rfl
    · rfl

theorem exitRecorded_attention {exit : WorkerExit}
    (h : (r.exitRecorded exit now).queue.state = .humanAttentionRequired) :
    r.queue.state ∈ [.claimed, .starting, .running, .humanAttentionRequired] := by
  unfold exitRecorded recordExit at h
  dsimp only at h
  generalize hstate : r.queue.state = state
  have hmarked : (r.markExited now).queue.state = state := hstate
  split at h
  · rename_i hactive
    rw [hmarked] at hactive
    cases state <;> revert hactive <;> decide
  · rw [hmarked] at h
    rw [h]
    decide

/-- A retry policy that leaves the attention of the queue beside another strategy has set one, and
kept the recovery state. -/
theorem applyExitRetryPolicy_overwritten {failure : RetryFailureClass} {context : ExitContext}
    (h : r.applyExitRetryPolicy env dispatchId failure context now = r')
    (hstate : r'.queue.state = .humanAttentionRequired)
    (hstrategy : r'.policy.strategy ≠ .humanAttention) :
    r.queue.state = .humanAttentionRequired ∧
      r'.recovery.recoveryState = r.recovery.recoveryState ∧
      if (r.policy.charge failure).isSome then failure ≠ .preIdentityTransport
      else context.inspects failure := by
  unfold applyExitRetryPolicy at h
  split at h
  · rename_i charge hcharge
    rw [hcharge]
    simp only [Option.isSome_some, if_true]
    unfold spendAtExit at h
    dsimp only at h
    by_cases hfailure : failure = .preIdentityTransport
    · rw [if_pos hfailure] at h
      rw [← h] at hstate
      cases hstate
    · rw [if_neg hfailure] at h
      have hkind := prepareFor_recoveryState r.recovery failure
        r.policy.providerTransient.budget now
      split at h
      · subst h
        exact ⟨hstate, hkind, hfailure⟩
      · subst h
        exact ⟨hstate, hkind, hfailure⟩
  · rename_i hcharge
    rw [hcharge]
    split at h
    · rename_i hinspects
      subst h
      exact ⟨hstate, rfl, hinspects⟩
    · subst h
      exact absurd rfl hstrategy

/-- An exit that leaves a strategy beside the attention of the queue. -/
theorem workerExit_overwritten {exit : WorkerExit} (hcoh : r.life.Coherent)
    (h : r.workerExit env dispatchId exit now = r') (hgood : r'.Good env keys dispatchId)
    (hover : r'.life.Overwritten) :
    r.queue.state ∈ [.claimed, .starting, .running, .humanAttentionRequired] ∧
      r.inspectionsExhausted ∧ r.setsStrategy exit := by
  obtain ⟨hstate, hstrategy⟩ := hover
  have hstate' : r'.queue.state = .humanAttentionRequired := hstate
  unfold workerExit at h
  split at h
  · -- the rows kept their life, which was coherent
    subst h
    exact absurd (hcoh.1 hstate) hstrategy
  · obtain ⟨hqueue, hkind, hset⟩ := applyExitRetryPolicy_overwritten h hstate hstrategy
    refine ⟨exitRecorded_attention hqueue, ?_, ?_⟩
    · have hrecorded : (r.exitRecorded exit now).recovery.recoveryState =
          .humanAttentionRequired := by
        rw [← recoveryKind_attention.2 hstate', ← hgood.recoveryKind]
        exact hkind.symm
      rw [exitRecorded_recoveryState] at hrecorded
      by_contra hleft
      rw [if_neg hleft] at hrecorded
      cases hrecorded
    · have hcharge := charge_exitRecorded (r := r) exit (exit.failure.getD .unknown) now
      change if ((r.exitRecorded exit now).policy.charge (exit.failure.getD .unknown)).isSome then _
        else _ at hset
      rw [hcharge] at hset
      unfold setsStrategy
      dsimp only
      split_ifs at hset ⊢
      · exact decide_eq_true hset
      · exact hset

/-! ### Runs -/

def AttentionAgrees (L : Ledger) : Prop :=
  ∀ d r, L.dispatches.get? d = some r → r.AttentionAgrees

theorem next_coherent (hL : L.Good env) (hr : L.dispatches.get? dispatchId = some r)
    (hcoh : r.life.Coherent) (hop : ¬Overwrites L op)
    (hr' : (L.next env op).dispatches.get? dispatchId = some r') : r'.life.Coherent := by
  obtain ⟨r₁, hr₁, hstep, htarget⟩ := next_step hL op hr
  obtain rfl : r₁ = r' := Option.some.inj (hr₁.symm.trans hr')
  obtain hcoh' | ⟨hcause, hover⟩ := hstep.coherent hcoh
  · exact hcoh'
  exfalso
  obtain htarget | rfl := htarget
  · obtain ⟨d, process, exit, now, rfl⟩ := Op.eq_exit hcause
    obtain rfl : d = dispatchId := by simpa [Op.target] using htarget
    obtain hsame | ⟨-, hbody, -⟩ := next_cases env L (.exit d process exit now)
    · rw [hsame, hr] at hr'
      cases hr'
      exact hover.2 (hcoh.1 hover.1)
    have hgood := (next_good hL (.exit d process exit now)).rows d r₁ hr'
    generalize next env L (.exit d process exit now) = L' at hbody hr' hgood
    simp only [body, markWorkerExit, checks_ok] at hbody
    obtain ⟨-, hbody⟩ := hbody
    obtain ⟨r₀, r₂, hr₀, hrow, rfl⟩ := onDispatch_ok.1 hbody
    obtain rfl : r₀ = r := Option.some.inj (hr₀.symm.trans hr)
    obtain rfl : r₂ = r₁ := Option.some.inj ((Table.get?_set_self hr r₂).symm.trans hr')
    split at hrow
    · cases hrow
    rename_i l hl
    simp only [steps_ok] at hrow
    obtain ⟨hprocess, hexit⟩ := hrow
    split at hexit
    · subst hexit
      exact hover.2 (hcoh.1 hover.1)
    · rename_i hlive
      exact hop ⟨r₀, l, hr, hl, hprocess.1, hprocess.2, Option.not_isSome_iff_eq_none.1 hlive,
        workerExit_overwritten hcoh hexit hgood hover⟩
  · exact hover.2 (hcoh.1 hover.1)

theorem coherent_fresh : Life.fresh.Coherent := by
  unfold Life.Coherent
  decide

theorem next_agrees (hL : L.Good env) (hagrees : L.AttentionAgrees) (hop : ¬Overwrites L op) :
    (L.next env op).AttentionAgrees := by
  intro d r' hr'
  rw [agrees_iff_coherent ((next_good hL op).rows d r' hr')]
  cases hr : L.dispatches.get? d with
  | none =>
    obtain ⟨q, sequence, now, rfl⟩ := next_new op hr hr'
    rw [rows_life]
    exact coherent_fresh
  | some r =>
    exact next_coherent hL hr ((agrees_iff_coherent (hL.rows d r hr)).1 (hagrees d r hr)) hop hr'

/-- What agreement gives a `RETRY` action: the dispatch that waits for a human is released. -/
theorem retry_released {action : RecoveryAction} {activeTurn : Bool} (hagrees : r.AttentionAgrees)
    (hstate : r.queue.state = .humanAttentionRequired) (haction : action.actionKind = .retry) :
    L.actionEffect action activeTurn now r = .ok (r.retryAfterAttention now) := by
  have hstrategy := hagrees.2.1 (hagrees.1.1 hstate)
  have hawaits : r.awaitsHuman := by
    unfold awaitsHuman
    rw [hstate, hstrategy]
    rfl
  unfold actionEffect
  rw [haction]
  simp [ensure, hawaits]

/-- The projections agree for every dispatch, and a `RETRY` action releases each dispatch that waits
for a human. -/
def AttentionCoherent (L : Ledger) : Prop :=
  ∀ d r, L.dispatches.get? d = some r →
    r.AttentionAgrees ∧
      (r.queue.state = .humanAttentionRequired → ∀ action activeTurn now,
        action.actionKind = .retry →
          L.actionEffect action activeTurn now r = .ok (r.retryAfterAttention now))

/-- In every run without an overwriting exit attention is coherent in every state. -/
theorem attention_coherent (env : Env) {ops : List Op}
    (hops : Machine.Along (next env) (fun L op => ¬Overwrites L op) {} ops) :
    Machine.Always (next env) AttentionCoherent {} ops := by
  intro before hbefore d r hr
  have hagrees : AttentionAgrees (Machine.run (next env) {} before) := by
    refine (Machine.invariant_along (I := fun L => L.Good env ∧ L.AttentionAgrees) ?_
      ⟨good_empty env, fun d r h => ?_⟩ (hops.initial hbefore)).2
    · exact fun L op h hop => ⟨next_good h.1 op, next_agrees h.1 h.2 hop⟩
    · cases h
  exact ⟨hagrees d r hr, fun hstate action activeTurn now haction =>
    retry_released (hagrees d r hr) hstate haction⟩

/-- A worker that exits with a provider failure, under the given inspection budget. -/
def providerExit (inspectionBudget : ℕ) : List Op :=
  [.acquireHarness nonceSha256 (seconds 600) 0,
    .enqueue sampleId { sampleRequest with inspectionBudget := inspectionBudget } 1] ++
  started 1 ++ [.exit sampleId ⟨41, "birth"⟩ { exitCode := some 79 } 5]

theorem inspection_left :
    ((Machine.run (next .sample) {} (providerExit 4).dropLast).dispatches.get? sampleId).all
      (fun r => r.recovery.inspection.used < r.recovery.inspection.budget) := by
  decide +kernel

/-- With inspections left the exit keeps attention coherent. -/
theorem providerExit_coherent :
    Machine.Always (next .sample) AttentionCoherent {} (providerExit 4) := by
  refine attention_coherent .sample ⟨id, id, id, id, id, ?_, trivial⟩
  rintro ⟨r, l, hr, -, -, -, -, -, hexhausted, -⟩
  have hleft := inspection_left
  rw [show (Machine.run (next .sample) {} (providerExit 4).dropLast).dispatches.get? sampleId =
    some r from hr] at hleft
  exact absurd hexhausted (Nat.not_le.2 (of_decide_eq_true hleft))

/-- Without inspections the exit leaves the queue at human attention and the policy at a
continuation. -/
theorem providerExit_split :
    (Machine.run (next .sample) {} (providerExit 0)).dispatches.get? sampleId |>.any fun r =>
      r.queue.state = .humanAttentionRequired && r.policy.strategy = .sameThreadContinuation := by
  decide

theorem exhausted_exit_disagrees :
    ¬∀ (env : Env) (ops : List Op), Machine.Always (next env) AttentionCoherent {} ops := by
  intro h
  obtain ⟨r, hr, hsplit⟩ := Option.any_eq_true _ _ |>.1 providerExit_split
  simp only [Bool.and_eq_true, decide_eq_true_eq] at hsplit
  have hagrees := (h .sample (providerExit 0) (providerExit 0) List.prefix_rfl sampleId r hr).1
  have hstrategy := hagrees.2.1 (hagrees.1.1 hsplit.1)
  rw [hsplit.2] at hstrategy
  cases hstrategy

end CodexFlow.Ledger
