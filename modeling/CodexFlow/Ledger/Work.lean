import CodexFlow.Ledger.Moves

/-!
# What a call does to the attempts of a dispatch

The queue state, the attempt with its worker, the recovery budgets, the captured integrity and the
recorded actions decide what an attempt may do. Every call is one of the moves below on them.
-/

namespace CodexFlow.Ledger

open Checked DispatchRows

variable {env : Env} {L L' : Ledger} {dispatchId : DispatchId} {r r' s : DispatchRows} {op : Op}
  {now : Time}

/-- The process that a liveness row names. -/
structure Worker where
  attempt : ℕ
  pid : ℕ
  processBirthIdentity : String
  exited : Bool
deriving DecidableEq

/-- The columns that decide what an attempt may do. -/
structure Work where
  state : QueueState
  attempt : ℕ
  worker : Option Worker
  inspection : Budget
  continuation : Budget
  freshThread : Budget
  freshThreadAfterIdle : Bool
  integrity : Option TerminalIntegrity
  controls : List RecoveryControl
deriving DecidableEq

def WorkerLiveness.worker (l : WorkerLiveness) : Worker where
  attempt := l.attempt
  pid := l.pid
  processBirthIdentity := l.processBirthIdentity
  exited := l.exitedAt.isSome

def DispatchRows.work (r : DispatchRows) : Work where
  state := r.queue.state
  attempt := r.queue.attempt
  worker := r.liveness.map (·.worker)
  inspection := r.recovery.inspection
  continuation := r.recovery.continuation
  freshThread := r.recovery.freshThread
  freshThreadAfterIdle := r.recovery.freshThreadAfterIdle
  integrity := r.integrity
  controls := r.controls

namespace Work

variable (w : Work)

def moveTo (state : QueueState) : Work := { w with state := state }

/-- A new attempt waits in the queue. -/
def release : Work := { w with state := .queued, attempt := w.attempt + 1, worker := none }

def cancel (retain : Bool) : Work :=
  { w with state := .cancelled, worker := if retain then w.worker else none }

def record (added : List RecoveryControl) : Work := { w with controls := w.controls ++ added }

@[simp] theorem record_nil : w.record [] = w := by simp [record]

end Work

/-- The call releases a new attempt of the dispatch without looking at its worker; it is no replay
and the dispatch can be requeued. -/
def releases (L : Ledger) (dispatchId : DispatchId) : Op → Bool
  | .recover d _ _ _ => d = dispatchId && (L.dispatches.get? dispatchId).any fun r =>
      r.queue.state ∉ [.completed, .failed, .cancelled, .queued]
  | .retryDispatch d _ _ _ _ => d = dispatchId
  | .action d a _ _ =>
    d = dispatchId && a.actionKind = .retry && (L.findControl a.actionId).isNone
  | .controllerActions q _ =>
    q.bundle.decisionId.dispatchId? = some dispatchId &&
      q.bundle.actions.any (·.isRetry) && (L.findOutbox q.bundle.actionId).isNone
  | _ => false

def Op.presentsResult (dispatchId : DispatchId) : Op → Bool
  | .submit d _ _ => d = dispatchId
  | .commit d _ _ => d = dispatchId
  | .commitRetained d _ _ => d = dispatchId
  | _ => false

/-- A result is all that a captured repair may gain. -/
def SameCapture (before after : Option TerminalIntegrity) : Prop :=
  after.map (·.capture) = before.map (·.capture)

/-- What a call makes of the attempts of one dispatch. -/
inductive Works (env : Env) (L : Ledger) (op : Op) (dispatchId : DispatchId) (r s : DispatchRows) :
    Prop
  | records (added : List RecoveryControl)
      (hadded : ∀ a ∈ added, L.findControl a.actionId = none)
      (h : s.work = r.work.record added)
  | claims (epoch : ℕ) (nonce : String) (program executionCancelled : DispatchId → Bool)
      (now : Time) (hop : op = .claim epoch nonce program executionCancelled now)
      (hnext : (L.nextClaimable now).any (·.1 = dispatchId))
      (hkept : executionCancelled dispatchId = false)
      (h : s.work = r.work.moveTo .claimed)
  | cancels (retain : Bool) (added : List RecoveryControl)
      (hadded : ∀ a ∈ added, L.findControl a.actionId = none)
      (hactive : r.queue.state.isNonterminal)
      (hexited : retain → r.liveness.any (·.exitedAt.isSome))
      (h : s.work = (r.work.cancel retain).record added)
  | acknowledges (actionId : String) (pid : ℕ) (birth : String) (exitCode : Option ℤ) (now : Time)
      (hop : op = .acknowledgeCancellationExit dispatchId actionId pid birth exitCode now)
      (hactive : r.queue.state.isNonterminal)
      (h : s.work = { r.work with
        state := .cancelled, worker := r.work.worker.map fun w => { w with exited := true } })
  | moves (state : QueueState) (epoch : Option ℕ) (now : Time)
      (hop : op = .setState dispatchId state epoch now)
      (hstate : state ≠ .cancelled ∧ state ∈ transitions r.queue.state)
      (h : s.work = r.work.moveTo state)
  | requeues (hop : L.releases dispatchId op) (added : List RecoveryControl)
      (hadded : ∀ a ∈ added, L.findControl a.actionId = none)
      (h : s.work = r.work.release.record added)
  | binds (epoch generation attempt : ℕ) (process : WorkerProcess) (token : String) (lease : ℕ)
      (now : Time) (hop : op = .bindLiveness dispatchId epoch generation attempt process token lease now)
      (hprocess : 0 < process.pid ∧ process.processBirthIdentity ≠ "")
      (hattempt : r.queue.attempt = attempt) (hstate : r.queue.state ∈ [.claimed, .starting, .running])
      (hlive : ∀ l ∈ r.liveness, l.attempt = attempt ∧ l.pid = process.pid ∧
        l.processBirthIdentity = process.processBirthIdentity)
      (h : s.work = { r.work with
        state := if r.queue.state = .claimed then .starting else r.queue.state
        worker := some (r.work.worker.getD
          ⟨attempt, process.pid, process.processBirthIdentity, false⟩) })
  | runs (epoch generation attempt : ℕ) (token threadId : String) (now : Time)
      (hop : op = .bindThread dispatchId epoch generation attempt token threadId now)
      (hstate : r.queue.state ∈ [.claimed, .starting, .running])
      (h : s.work = r.work.moveTo .running)
  | exits (process : WorkerProcess) (exit : WorkerExit) (now : Time)
      (hop : op = .exit dispatchId process exit now)
      (hlive : r.liveness.any (·.exitedAt.isNone))
      (h : s.work = (r.workerExit env dispatchId exit now).work)
  | charges (failure : RetryFailureClass) (evidence : RetryEvidence) (now : Time)
      (hop : op = .retryFailure dispatchId failure evidence now)
      (hactive : r.queue.state.isNonterminal) (charge : Charge)
      (hcharge : r.policy.charge failure = some charge)
      (h : s.work = (r.recordCharge env dispatchId failure evidence charge now).work)
  | attends (hactive : r.queue.state.isNonterminal)
      (h : s.work = r.work.moveTo .humanAttentionRequired)
  | configures (config : RecoveryConfiguration) (now : Time)
      (hop : op = .configureRecovery dispatchId config now)
      (hi : r.recovery.inspection.used ≤ config.inspectionBudget)
      (hc : r.recovery.continuation.used ≤ config.continuationBudget)
      (hf : r.recovery.freshThread.used ≤ config.freshThreadBudget)
      (h : s.work = { r.work with
        inspection := r.recovery.inspection.withBudget config.inspectionBudget hi
        continuation := r.recovery.continuation.withBudget config.continuationBudget hc
        freshThread := r.recovery.freshThread.withBudget config.freshThreadBudget hf
        freshThreadAfterIdle := config.freshThreadAfterIdle })
  | inspects (inspection : Inspection) (now : Time)
      (hdecided : inspection.decided ∈ [.retryWait, .continuationPending, .humanAttentionRequired])
      (h : s.work = (r.recordInspection env inspection now).work)
  | reinspects (hstate : r.queue.state = .recoveryRetryWait)
      (h : s.work = r.work.moveTo .recoveryInspectionPending)
  | continues (epoch : ℕ) (nonce : String) (program : DispatchId → Bool) (current now : Time)
      (hop : op = .beginContinuation dispatchId epoch nonce program current now)
      (hstate : r.queue.state = .recoveryContinuationPending)
      (hidle : r.liveness.all (·.exitedAt.isSome))
      (h : s.work = (r.continueOrClose ⟨epoch, nonce⟩ current).work)
  | grants (action : RecoveryAction) (activeTurn : Bool) (now : Time)
      (hop : op = .action dispatchId action activeTurn now)
      (hchange : action.requestedBudget.any (·.providerTransientBudget.isSome))
      (hpending : !r.cancelPending) (hstate : r.queue.state = .humanAttentionRequired)
      (hbudget : r.recovery.continuation.budget = 3)
      (hc : r.recovery.continuation.used ≤ 4) (added : List RecoveryControl)
      (hadded : ∀ a ∈ added, L.findControl a.actionId = none)
      (h : s.work = (r.grantProvider hc now).work.record added)
  | results (hop : op.presentsResult dispatchId) (hpending : !r.cancelPending)
      (state : QueueState) (hstate : state ∈ [.resultSubmitted, .completed, .failed])
      (integrity : Option TerminalIntegrity) (hcapture : SameCapture r.integrity integrity)
      (h : s.work = { r.work with state := state, integrity := integrity })
  | ingests (raw : String) (now : Time) (hop : op = .ingest dispatchId raw now)
      (hstate : r.queue.state = .recoveryInspectionPending)
      (state : QueueState) (integrity : Option TerminalIntegrity)
      (hcapture : SameCapture r.integrity integrity)
      (h : s.work = { r.work with state := state, integrity := integrity })
  | finishes (hstate : r.queue.state ∈ [.resultSubmitted, .completed, .failed])
      (state : QueueState) (hterminal : state ∈ [.completed, .failed])
      (integrity : Option TerminalIntegrity) (hcapture : SameCapture r.integrity integrity)
      (h : s.work = { r.work with state := state, integrity := integrity })
  | captures (completed : Bool) (capture : TerminalCapture) (allowInsert : Bool) (now : Time)
      (hop : op = .captureIntegrity dispatchId completed (some capture) allowInsert now)
      (hnone : r.integrity = none)
      (h : s.work = { r.work with integrity := some ⟨capture, none⟩ })

theorem Works.stay (h : s.work = r.work) : Works env L op dispatchId r s :=
  .records [] nofun (by rw [h, Work.record_nil])

theorem Works.refl (r : DispatchRows) : Works env L op dispatchId r r := .stay rfl

/-- The attempts of every dispatch move, and a new dispatch was enqueued. -/
structure WorksAll (env : Env) (L : Ledger) (op : Op) (L' : Ledger) : Prop where
  rows : ∀ d r, L.dispatches.get? d = some r →
    ∃ r', L'.dispatches.get? d = some r' ∧ Works env L op d r r'
  fresh : ∀ d r', L.dispatches.get? d = none → L'.dispatches.get? d = some r' →
    ∃ q now sequence created, op = .enqueue d q now ∧ r' = q.rows sequence created

namespace WorksAll

theorem of_dispatches (h : L'.dispatches = L.dispatches) : WorksAll env L op L' where
  rows := fun _ r hr => ⟨r, h ▸ hr, .refl r⟩
  fresh := fun _ _ hnone hr' => absurd ((h ▸ hnone).symm.trans hr') nofun

theorem refl (L : Ledger) : WorksAll env L op L := of_dispatches rfl

theorem of_set (hr : L.dispatches.get? dispatchId = some r)
    (h : L' = { L with dispatches := L.dispatches.set dispatchId r' })
    (hworks : Works env L op dispatchId r r') : WorksAll env L op L' where
  rows := by
    rw [h]
    intro d s hs
    by_cases hd : d = dispatchId
    · subst hd
      obtain rfl := Option.some.inj (hr.symm.trans hs)
      exact ⟨r', Table.get?_set_self hr r', hworks⟩
    · exact ⟨s, (Table.get?_set_ne _ hd _).trans hs, .refl s⟩
  fresh := by
    rw [h]
    intro d s hnone hs
    by_cases hd : d = dispatchId
    · subst hd
      exact absurd (hnone.symm.trans hr) nofun
    · exact absurd (hnone.symm.trans ((Table.get?_set_ne _ hd _).symm.trans hs)) nofun

theorem of_map {f : DispatchId → DispatchRows → DispatchRows}
    (h : L' = { L with dispatches := L.dispatches.map f })
    (hworks : ∀ d r, Works env L op d r (f d r)) : WorksAll env L op L' where
  rows := by
    rw [h]
    exact fun d r hr => ⟨f d r, by simp [Table.get?_map, hr], hworks d r⟩
  fresh := by
    rw [h]
    intro d s hnone hs
    simp [Table.get?_map, hnone] at hs

theorem of_onDispatch {missing : LedgerError} {f : DispatchRows → Checked DispatchRows}
    (h : L.onDispatch dispatchId missing f = .ok L')
    (hf : ∀ r r', L.dispatches.get? dispatchId = some r → f r = .ok r' →
      Works env L op dispatchId r r') : WorksAll env L op L' := by
  obtain ⟨r, r', hr, hbody, rfl⟩ := onDispatch_ok.1 h
  exact of_set hr rfl (hf r r' hr hbody)

theorem of_stay {missing : LedgerError} {f : DispatchRows → Checked DispatchRows}
    (h : L.onDispatch dispatchId missing f = .ok L')
    (hf : ∀ r r', f r = .ok r' → r'.work = r.work) : WorksAll env L op L' :=
  of_onDispatch h fun r r' _ hbody => .stay (hf r r' hbody)

end WorksAll

/-! ### The queue and the workers -/

theorem cancel_works {retain : Bool} (hactive : r.queue.state.isNonterminal)
    (hexited : retain → r.liveness.any (·.exitedAt.isSome)) :
    Works env L op dispatchId r (r.cancel retain now) := by
  refine .cancels retain [] nofun hactive hexited ?_
  rw [Work.record_nil]
  cases retain <;> rfl

theorem cancelQueueRow_spec {epoch : Option ℕ} {retain : Bool}
    (h : L.cancelQueueRow epoch retain now r = .ok r') :
    r.queue.state = .cancelled ∧ r' = r ∨
      r.queue.state.isNonterminal ∧ (retain → r.liveness.any (·.exitedAt.isSome)) ∧
        r' = r.cancel retain now := by
  unfold cancelQueueRow at h
  split_ifs at h with hstate
  · exact .inl ⟨hstate, (pure_eq_ok.1 h).symm⟩
  · simp only [steps_ok] at h
    obtain ⟨hactive, -, -, -, -, hexited, rfl⟩ := h
    exact .inr ⟨hactive, hexited, rfl⟩

theorem cancelQueueRow_works {epoch : Option ℕ} {retain : Bool}
    (h : L.cancelQueueRow epoch retain now r = .ok r') : Works env L op dispatchId r r' := by
  obtain ⟨-, rfl⟩ | ⟨hactive, hexited, rfl⟩ := cancelQueueRow_spec h
  · exact .refl r'
  · exact cancel_works hactive hexited

theorem recordCancelledExit_work {exitCode : Option ℤ} (hlive : r.liveness.isSome) :
    ((r.recordCancelledExit exitCode now).cancel true now).work = { r.work with
      state := .cancelled, worker := r.work.worker.map fun w => { w with exited := true } } := by
  obtain ⟨l, hl⟩ := Option.isSome_iff_exists.1 hlive
  unfold recordCancelledExit
  split_ifs with hexited
  · simp [work, DispatchRows.cancel, RecoveryState.reset, hl, WorkerLiveness.worker]
  · have hsome : l.exitedAt.isSome = true := by
      simpa [hl, Option.isSome_iff_ne_none] using hexited
    simp [work, DispatchRows.cancel, RecoveryState.reset, hl, WorkerLiveness.worker, hsome]

theorem acknowledgeWorkerCancellationExit_works {actionId birth : String} {pid : ℕ}
    {exitCode : Option ℤ}
    (h : L.acknowledgeWorkerCancellationExit env dispatchId actionId pid birth exitCode now =
      .ok L') :
    WorksAll env L (.acknowledgeCancellationExit dispatchId actionId pid birth exitCode now) L' := by
  simp only [acknowledgeWorkerCancellationExit, checks_ok] at h
  obtain ⟨-, -, h⟩ := h
  split at h
  · cases h
  refine .of_onDispatch h fun r r' _ hbody => ?_
  simp only [checks_ok] at hbody
  obtain ⟨-, hbody⟩ := hbody
  split_ifs at hbody with hcancelled
  · cases hbody
    exact .refl _
  · simp only [checks_ok] at hbody
    obtain ⟨hlive, hcancel⟩ := hbody
    have hqueue : (r.recordCancelledExit exitCode now).queue = r.queue := by
      unfold recordCancelledExit
      split_ifs <;> rfl
    obtain ⟨hstate, -⟩ | ⟨hactive, -, rfl⟩ := cancelQueueRow_spec hcancel
    · exact absurd (hqueue ▸ hstate) hcancelled
    · refine .acknowledges actionId pid birth exitCode now rfl (hqueue ▸ hactive) ?_
      obtain ⟨l, hl, -⟩ := (Option.any_eq_true _ _).1 hlive
      exact recordCancelledExit_work (by rw [hl]; rfl)

theorem claimQueueDispatch_works {epoch : ℕ} {nonce : String}
    {program executionCancelled : DispatchId → Bool}
    (h : L.claimQueueDispatch epoch nonce program executionCancelled now = .ok L') :
    WorksAll env L (.claim epoch nonce program executionCancelled now) L' := by
  simp only [claimQueueDispatch, checks_ok] at h
  obtain ⟨-, -, -, h⟩ := h
  split at h
  · exact pure_eq_ok.1 h ▸ .refl L
  · rename_i d r₀ hnext
    simp only [checks_ok] at h
    refine .of_onDispatch h.2 fun r r' _ hbody => ?_
    split_ifs at hbody with hcancelled
    · exact cancelQueueRow_works hbody
    · cases hbody
      refine .claims epoch nonce program executionCancelled now rfl ?_
        (Bool.eq_false_iff.2 hcancelled) rfl
      rw [hnext]
      exact decide_eq_true rfl

theorem setQueueState_works {state : QueueState} {epoch : Option ℕ}
    (h : L.setQueueState dispatchId state epoch now = .ok L') :
    WorksAll env L (.setState dispatchId state epoch now) L' := by
  unfold setQueueState at h
  split_ifs at h with hcancelled
  · exact .of_onDispatch h fun r r' _ hbody => cancelQueueRow_works hbody
  · refine .of_onDispatch h fun r r' _ hbody => ?_
    simp only [steps_ok] at hbody
    obtain ⟨-, hstate, -, rfl⟩ := hbody
    exact .moves state epoch now rfl ⟨hcancelled, hstate⟩ rfl

theorem recoverQueueDispatch_works {epoch : ℕ} {preserve : Bool}
    (h : L.recoverQueueDispatch dispatchId epoch preserve now = .ok L') :
    WorksAll env L (.recover dispatchId epoch preserve now) L' := by
  simp only [recoverQueueDispatch, checks_ok] at h
  refine .of_onDispatch h.2.2 fun r r' hr hbody => ?_
  split at hbody
  · cases hbody
    exact .refl _
  · rename_i hstate
    simp only [steps_ok] at hbody
    obtain ⟨-, rfl⟩ := hbody
    refine .requeues ?_ [] nofun (by rw [Work.record_nil]; rfl)
    simpa [releases, hr] using hstate

theorem issueAttemptCapability_works {request : CapabilityRequest}
    (h : L.issueAttemptCapability dispatchId request now = .ok L') : WorksAll env L op L' := by
  simp only [issueAttemptCapability, checks_ok] at h
  refine .of_stay h.2.2 fun r r' hbody => ?_
  simp only [checks_ok] at hbody
  obtain ⟨-, hbody⟩ := hbody
  split at hbody
  · simp only [steps_ok] at hbody
    obtain ⟨-, rfl⟩ := hbody
    split_ifs <;> rfl
  · cases hbody
    rfl

theorem bindWorkerLiveness_works {epoch generation attempt lease : ℕ} {process : WorkerProcess}
    {token : String}
    (h : L.bindWorkerLiveness dispatchId epoch generation attempt process token lease now = .ok L') :
    WorksAll env L (.bindLiveness dispatchId epoch generation attempt process token lease now) L' := by
  simp only [bindWorkerLiveness, checks_ok] at h
  obtain ⟨-, -, hprocess, -, -, -, h⟩ := h
  refine .of_onDispatch h fun r r' _ hbody => ?_
  simp only [steps_ok] at hbody
  obtain ⟨hclaim, -, hstate, hlive, rfl⟩ := hbody
  simp only [holdsClaim, Bool.and_eq_true, decide_eq_true_eq] at hclaim
  refine .binds epoch generation attempt process token lease now rfl ⟨hprocess.1, hprocess.2.1⟩
    hclaim.1.2 hstate ?_ ?_
  · intro l hl
    have hsame := (Option.all_eq_true _ _).1 hlive l hl
    simp only [Bool.and_eq_true, decide_eq_true_eq] at hsame
    exact ⟨hsame.1.1.1.2, hsame.1.1.2, hsame.1.2⟩
  · cases hl : r.liveness <;> split_ifs <;> simp_all [work, renewCapability, WorkerLiveness.worker, DispatchQueue.moveTo]

theorem bindWorkerThread_works {epoch generation attempt : ℕ} {token threadId : String}
    (h : L.bindWorkerThread env dispatchId epoch generation attempt token threadId now = .ok L') :
    WorksAll env L (.bindThread dispatchId epoch generation attempt token threadId now) L' := by
  simp only [bindWorkerThread, checks_ok] at h
  obtain ⟨-, -, -, -, -, -, h⟩ := h
  refine .of_onDispatch h fun r r' _ hbody => ?_
  simp only [steps_ok] at hbody
  obtain ⟨-, -, -, rfl⟩ := hbody
  split_ifs with hstate
  · exact .runs epoch generation attempt token threadId now rfl hstate rfl
  · exact .refl r

theorem renewWorkerLiveness_works {generation attempt lease : ℕ} {token : String}
    {epoch : Option ℕ}
    (h : L.renewWorkerLiveness env dispatchId generation attempt token lease epoch now = .ok L') :
    WorksAll env L op L' := by
  simp only [renewWorkerLiveness, checks_ok] at h
  obtain ⟨-, -, -, -, h⟩ := h
  refine .of_stay h fun r r' hbody => ?_
  split at hbody
  · cases hbody
  · rename_i l hl
    simp only [steps_ok] at hbody
    obtain ⟨-, -, -, rfl⟩ := hbody
    simp [work, renewCapability, hl, WorkerLiveness.worker]

theorem adoptLiveWorker_works {newEpoch : ℕ} {process : WorkerProcess} {nonce : String}
    (h : L.adoptLiveWorker dispatchId newEpoch process nonce now = .ok L') :
    WorksAll env L op L' := by
  simp only [adoptLiveWorker, checks_ok] at h
  obtain ⟨-, -, -, -, h⟩ := h
  refine .of_stay h fun r r' hbody => ?_
  split at hbody
  · cases hbody
  · simp only [steps_ok] at hbody
    obtain ⟨-, -, rfl⟩ := hbody
    rfl

theorem markWorkerExit_works {process : WorkerProcess} {exit : WorkerExit}
    (h : L.markWorkerExit env dispatchId process exit now = .ok L') :
    WorksAll env L (.exit dispatchId process exit now) L' := by
  simp only [markWorkerExit, checks_ok] at h
  refine .of_onDispatch h.2 fun r r' _ hbody => ?_
  split at hbody
  · cases hbody
  · rename_i l hl
    simp only [steps_ok] at hbody
    obtain ⟨-, rfl⟩ := hbody
    split_ifs with hexited
    · exact .refl r
    · exact .exits process exit now rfl (by simpa [hl] using hexited) rfl

/-! ### Retries and recovery -/

theorem charge_isSome (p : RetryPolicy) (failure : RetryFailureClass) :
    (p.charge failure).isSome =
      (retryColumn failure).any fun column => decide ((column.get p).used < (column.get p).budget) := by
  unfold RetryPolicy.charge
  cases retryColumn failure with
  | none => rfl
  | some column =>
    rw [Option.bind_some, Option.any_some]
    split_ifs with hlt
    · exact (decide_eq_true hlt).symm
    · exact (decide_eq_false hlt).symm

theorem recordExit_charge {exit : WorkerExit} {failure : RetryFailureClass} :
    (((r.markExited now).recordExit exit now).policy.charge failure).isSome =
      (r.policy.charge failure).isSome := by
  rw [charge_isSome, charge_isSome]
  unfold recordExit
  dsimp only
  split
  · cases failure <;> rfl
  · rfl

theorem recordRetryFailure_works {failure : RetryFailureClass} {evidence : RetryEvidence}
    (h : L.recordRetryFailure env dispatchId failure evidence now = .ok L') :
    WorksAll env L (.retryFailure dispatchId failure evidence now) L' := by
  simp only [recordRetryFailure, checks_ok] at h
  refine .of_onDispatch h.2.2 fun r r' _ hbody => ?_
  simp only [checks_ok] at hbody
  obtain ⟨hstate, hbody⟩ := hbody
  split at hbody
  · cases hbody
    exact .refl _
  split at hbody
  · rename_i charge hcharge
    cases hbody
    exact .charges failure evidence now rfl (isNonterminal_of_not_mem hstate) charge hcharge rfl
  · simp only [steps_ok] at hbody
    obtain ⟨-, rfl⟩ := hbody
    exact .attends (isNonterminal_of_not_mem hstate) rfl

theorem retryDispatch_works {strategy : RecoveryStrategy} {state : QueueState} {reason : String}
    (h : L.retryDispatch env dispatchId strategy state reason now = .ok L') :
    WorksAll env L (.retryDispatch dispatchId strategy state reason now) L' := by
  simp only [retryDispatch, checks_ok] at h
  refine .of_onDispatch h.2 fun r r' _ hbody => ?_
  simp only [steps_ok] at hbody
  obtain ⟨-, rfl⟩ := hbody
  exact .requeues (decide_eq_true rfl) [] nofun (by rw [Work.record_nil]; rfl)

theorem configureRecovery_works {config : RecoveryConfiguration}
    (h : L.configureRecovery dispatchId config now = .ok L') :
    WorksAll env L (.configureRecovery dispatchId config now) L' := by
  simp only [configureRecovery, checks_ok] at h
  refine .of_onDispatch h.2.2.2 fun r r' _ hbody => ?_
  simp only [checks_ok] at hbody
  obtain ⟨-, hbody⟩ := hbody
  split_ifs at hbody with hused hfresh
  cases hbody
  exact .configures config now rfl hused.1 hused.2 hfresh rfl

theorem recordRecoveryInspection_works {inspection : Inspection}
    (h : L.recordRecoveryInspection env dispatchId inspection now = .ok L') :
    WorksAll env L op L' := by
  simp only [recordRecoveryInspection, checks_ok] at h
  obtain ⟨-, hdecided, -, -, h⟩ := h
  refine .of_onDispatch h fun r r' _ hbody => ?_
  split at hbody
  · cases hbody
    exact .refl _
  · simp only [steps_ok] at hbody
    obtain ⟨-, rfl⟩ := hbody
    exact .inspects inspection now hdecided rfl

theorem beginRecoveryInspection_works {epoch : ℕ} {current : Time}
    (h : L.beginRecoveryInspection dispatchId epoch current now = .ok L') :
    WorksAll env L op L' := by
  simp only [beginRecoveryInspection, bind_eq_ok] at h
  obtain ⟨-, -, h⟩ := h
  refine .of_onDispatch h fun r r' _ hbody => ?_
  simp only [steps_ok] at hbody
  obtain ⟨-, hstate, -, -, rfl⟩ := hbody
  exact .reinspects hstate rfl

theorem markHumanAttentionRequired_works {reason : String} {failure : Option RetryFailureClass}
    (h : L.markHumanAttentionRequired env dispatchId reason failure now = .ok L') :
    WorksAll env L op L' := by
  simp only [markHumanAttentionRequired, checks_ok] at h
  obtain ⟨-, h⟩ := h
  split at h
  · cases h
  rename_i r hget
  split at h
  · exact pure_eq_ok.1 h ▸ .refl L
  split at h
  · simp only [steps_ok] at h
    obtain ⟨hstate, rfl⟩ := h
    exact .of_set hget rfl (.attends 
      (Life.isNonterminal_of_isEarly (decide_eq_true hstate)) rfl)
  · exact recordRecoveryInspection_works h

theorem beginRecoveryContinuation_works {epoch : ℕ} {nonce : String}
    {program : DispatchId → Bool} {current : Time}
    (h : L.beginRecoveryContinuation dispatchId epoch nonce program current now = .ok L') :
    WorksAll env L (.beginContinuation dispatchId epoch nonce program current now) L' := by
  simp only [beginRecoveryContinuation, checks_ok] at h
  obtain ⟨-, -, -, h⟩ := h
  refine .of_onDispatch h fun r r' _ hbody => ?_
  simp only [steps_ok] at hbody
  obtain ⟨-, -, hstate, hidle, -, rfl⟩ := hbody
  exact .continues epoch nonce program current now rfl hstate hidle rfl

theorem changeBudget_works {action : RecoveryAction} {activeTurn : Bool}
    {change : RetryBudgetChange} (hchange : action.requestedBudget = some change)
    (hpending : !r.cancelPending) {added : List RecoveryControl}
    (hadded : ∀ a ∈ added, L.findControl a.actionId = none)
    (h : r.changeBudget change now = .ok r') :
    Works env L (.action dispatchId action activeTurn now) dispatchId r
      { r' with controls := r'.controls ++ added } := by
  unfold changeBudget at h
  split at h
  · cases h
  split at h
  · cases h
    exact .records added hadded rfl
  · rename_i providerBudget hprovider
    simp only [checks_ok] at h
    obtain ⟨hhuman, -, -, -, hgrants, h⟩ := h
    split_ifs at h with hc
    cases h
    simp only [grantsProvider, Bool.and_eq_true, decide_eq_true_eq] at hgrants
    have hbudget : r.recovery.continuation.budget = 3 := by tauto
    exact .grants action activeTurn now rfl (by rw [hchange, Option.any_some, hprovider]; rfl)
      hpending hhuman.1 hbudget hc added hadded rfl

theorem cancelAction_works {added : List RecoveryControl}
    (hadded : ∀ a ∈ added, L.findControl a.actionId = none) (h : L.cancelAction now r = .ok r') :
    Works env L op dispatchId r { r' with controls := r'.controls ++ added } := by
  unfold cancelAction at h
  split at h
  · cases h
    exact .records added hadded rfl
  · simp only [checks_ok] at h
    obtain ⟨-, rfl⟩ | ⟨hactive, hexited, rfl⟩ := cancelQueueRow_spec h.2
    · exact .records added hadded rfl
    · refine .cancels r.liveness.isSome added hadded hactive hexited ?_
      cases hl : r.liveness <;>
        simp [work, DispatchRows.cancel, RecoveryState.reset, Work.cancel, Work.record, hl]

theorem applyRecoveryAction_works {action : RecoveryAction} {activeTurn : Bool}
    (h : L.applyRecoveryAction env dispatchId action activeTurn now = .ok L') :
    WorksAll env L (.action dispatchId action activeTurn now) L' := by
  simp only [applyRecoveryAction, checks_ok] at h
  obtain ⟨-, -, -, -, -, -, h⟩ := h
  split at h
  · simp only [steps_ok] at h
    exact h.2.2 ▸ .refl L
  · rename_i hfresh
    refine .of_onDispatch h fun r r' _ hbody => ?_
    simp only [steps_ok] at hbody
    obtain ⟨hpending, -, -, applied, happlied, rfl⟩ := hbody
    have hadded : ∀ a ∈ [action.control env now], L.findControl a.actionId = none :=
      List.forall_mem_singleton.2 hfresh
    unfold actionEffect at happlied
    split at happlied
    · split at happlied
      · rename_i change hchange
        exact changeBudget_works hchange hpending hadded happlied
      · cases happlied
    · rename_i hkind
      simp only [steps_ok] at happlied
      obtain ⟨-, rfl⟩ := happlied
      refine .requeues ?_ [action.control env now] hadded rfl
      simp [releases, hkind, hfresh]
    · split at happlied
      · simp only [rebindCompatibility, steps_ok] at happlied
        obtain ⟨-, -, -, -, -, -, -, rfl⟩ := happlied
        exact .records [action.control env now] hadded rfl
      · cases happlied
    · exact cancelAction_works hadded happlied

/-! ### Controller bundles -/

/-- What a bundle makes of the attempts of its dispatch; the actions it records satisfy `fresh`. -/
inductive Bundled (retries : Prop) (fresh : RecoveryControl → Prop) (w : Work) : Work → Prop
  | records (added : List RecoveryControl) (hadded : ∀ a ∈ added, fresh a) :
    Bundled retries fresh w (w.record added)
  | releases (h : retries) (added : List RecoveryControl) (hadded : ∀ a ∈ added, fresh a) :
    Bundled retries fresh w (w.release.record added)
  | cancels (h : w.state.isNonterminal) (added : List RecoveryControl)
      (hadded : ∀ a ∈ added, fresh a) :
    Bundled retries fresh w ((w.cancel false).record added)

namespace Bundled

variable {retries retries' : Prop} {fresh fresh' : RecoveryControl → Prop} {w w' : Work}

theorem refl (w : Work) : Bundled retries fresh w w := by
  have h : Bundled retries fresh w (w.record []) := .records [] nofun
  rwa [Work.record_nil] at h

theorem mono (hretries : retries → retries') (hfresh : ∀ a, fresh a → fresh' a)
    (h : Bundled retries fresh w w') : Bundled retries' fresh' w w' := by
  cases h with
  | records added hadded => exact .records added fun a ha => hfresh a (hadded a ha)
  | releases h added hadded =>
    exact .releases (hretries h) added fun a ha => hfresh a (hadded a ha)
  | cancels h added hadded => exact .cancels h added fun a ha => hfresh a (hadded a ha)

end Bundled

def RecoveryControl.IsOf (actions : List ControllerAction) (a : RecoveryControl) : Prop :=
  ∃ c ∈ actions.filterMap (·.control), a.actionId = c.actionId

theorem controllerEffect_work {action : ControllerAction} (hcontrol : action.control = none)
    (h : L.controllerEffect now r action = .ok r') : r'.work = r.work := by
  cases action with
  | acknowledgeOnly => cases h; rfl
  | requireHumanAttention => cases h; rfl
  | rearmCheckpoint duration => cases h; rfl
  | _ => cases hcontrol

theorem controllerEffect_bundled {action : ControllerAction}
    (h : L.controllerEffect now r action = .ok r') :
    Bundled action.isRetry (RecoveryControl.IsOf [action]) r.work r'.work := by
  cases action with
  | acknowledgeOnly =>
    cases h
    exact .refl _
  | requireHumanAttention =>
    cases h
    exact .refl _
  | rearmCheckpoint duration =>
    cases h
    exact .refl _
  | changeRetryBudget control change =>
    dsimp only [controllerEffect] at h
    split at h
    · cases h
    · cases h
      exact .records _ (List.forall_mem_singleton.2 ⟨control, List.mem_cons_self, rfl⟩)
  | retryDispatch control =>
    simp only [controllerEffect, steps_ok] at h
    obtain ⟨-, rfl⟩ := h
    exact .releases rfl _ (List.forall_mem_singleton.2 ⟨control, List.mem_cons_self, rfl⟩)
  | cancelDispatch control =>
    simp only [controllerEffect, bind_eq_ok, pure_eq_ok] at h
    obtain ⟨cancelled, hcancelled, rfl⟩ := h
    obtain ⟨-, rfl⟩ | ⟨hactive, -, rfl⟩ := cancelQueueRow_spec hcancelled
    · exact .records _ (List.forall_mem_singleton.2 ⟨control, List.mem_cons_self, rfl⟩)
    · exact .cancels hactive _ (List.forall_mem_singleton.2 ⟨control, List.mem_cons_self, rfl⟩)

theorem controllerEffects_work {actions : List ControllerAction}
    (hcontrols : actions.filterMap (·.control) = [])
    (h : L.controllerEffects dispatchId now actions r = .ok r') : r'.work = r.work := by
  induction actions generalizing r with
  | nil =>
    cases h
    rfl
  | cons action actions ih =>
    simp only [controllerEffects, checks_ok] at h
    obtain ⟨-, r₁, hfirst, hrest⟩ := h
    have hnone : action.control = none :=
      List.filterMap_eq_nil_iff.1 hcontrols action List.mem_cons_self
    rw [List.filterMap_cons_none hnone] at hcontrols
    exact (ih hcontrols hrest).trans (controllerEffect_work hnone hfirst)

/-- Only the one recovery action of a bundle is seen by the attempts. -/
theorem controllerEffects_bundled {actions : List ControllerAction}
    (hone : (actions.filterMap (·.control)).length ≤ 1)
    (h : L.controllerEffects dispatchId now actions r = .ok r') :
    Bundled (actions.any (·.isRetry)) (RecoveryControl.IsOf actions) r.work r'.work := by
  induction actions generalizing r with
  | nil =>
    cases h
    exact .refl _
  | cons action actions ih =>
    simp only [controllerEffects, checks_ok] at h
    obtain ⟨-, r₁, hfirst, hrest⟩ := h
    rw [List.any_cons, Bool.or_eq_true]
    cases hcontrol : action.control with
    | none =>
      rw [List.filterMap_cons_none hcontrol] at hone
      rw [← controllerEffect_work hcontrol hfirst]
      refine (ih hone hrest).mono .inr ?_
      rintro a ⟨c, hc, ha⟩
      exact ⟨c, by rwa [List.filterMap_cons_none hcontrol], ha⟩
    | some control =>
      rw [List.filterMap_cons_some hcontrol, List.length_cons] at hone
      have hnil : actions.filterMap (·.control) = [] :=
        List.length_eq_zero_iff.1 (Nat.le_zero.1 (Nat.le_of_succ_le_succ hone))
      rw [controllerEffects_work hnil hrest]
      refine (controllerEffect_bundled hfirst).mono .inl ?_
      rintro a ⟨c, hc, ha⟩
      exact ⟨c, by simpa [hcontrol, hnil] using hc, ha⟩

theorem Commits.works {q : SubmitRequest} {d : ControllerDecision} {kind : WakeKind} {cycle : ℕ}
    (h : Commits env L q now d kind cycle dispatchId r r') :
    Works env L (.controllerActions q now) dispatchId r r' := by
  obtain ⟨hid, hfresh, -, -, -, -, hbody⟩ := h
  simp only [commitBundle, checks_ok] at hbody
  obtain ⟨-, r₁, happly, hbody⟩ := hbody
  split at hbody
  · cases hbody
  rename_i claimant _
  simp only [steps_ok] at hbody
  obtain ⟨-, rfl⟩ := hbody
  simp only [applyControllerActions, checks_ok] at happly
  obtain ⟨-, hone, -, hnew, heffects⟩ := happly
  have hkept : (r₁.mapDecision kind cycle (q.committed env claimant d.revision now)).work = r₁.work :=
    rfl
  have hunused : ∀ a, RecoveryControl.IsOf q.bundle.actions a → L.findControl a.actionId = none := by
    rintro a ⟨c, hc, ha⟩
    rw [ha]
    exact Option.isNone_iff_eq_none.1 (List.all_eq_true.1 hnew c hc)
  have hbundled := (controllerEffects_bundled hone heffects).mono id hunused
  generalize r₁.work = w at hkept hbundled
  cases hbundled with
  | records added hadded => exact .records added hadded hkept
  | releases hretry added hadded =>
    exact .requeues (by simp [releases, hid, hretry, hfresh, DecisionKey.dispatchId?]) added hadded
      hkept
  | cancels hactive added hadded => exact .cancels false added hadded hactive (by rintro ⟨⟩) hkept

/-! ### Results -/

theorem ended_of_isTerminal {state : QueueState} (h : state.isTerminal) :
    state ∈ [.completed, .failed] := by
  revert h
  cases state <;> decide

/-- A finalization leaves a terminal dispatch as it is, or ends a submitted one. -/
theorem finalize_work {request : FinalizeRequest} (h : r.finalize request now = .ok r') :
    r.queue.state ∈ [.completed, .failed, .cancelled] ∧ r' = r ∨
      r.queue.state = .resultSubmitted ∧ ∃ state ∈ [QueueState.completed, .failed],
        r'.work = r.work.moveTo state := by
  obtain ⟨hended, rfl⟩ | ⟨hsubmitted, terminal, hterminal, decisions, wakes, rfl⟩ := finalize_eq h
  · exact .inl ⟨hended, rfl⟩
  · exact .inr ⟨hsubmitted, terminal, ended_of_isTerminal hterminal, rfl⟩

theorem bindIntegrity_capture {digest : String} (h : r.bindIntegrity digest = .ok r') :
    SameCapture r.integrity r'.integrity := by
  unfold bindIntegrity at h
  split at h
  · simp only [steps_ok] at h
    exact h.2 ▸ rfl
  split at h
  · cases h
  · rename_i hi
    simp only [steps_ok] at h
    obtain ⟨-, -, rfl⟩ := h
    rw [SameCapture, hi]
    rfl

theorem commitSubmitted_work {digest : String} (h : r.commitSubmitted digest now = .ok r')
    (hcancelled : r.queue.state ≠ .cancelled) :
    ∃ state ∈ [QueueState.completed, .failed], ∃ integrity, SameCapture r.integrity integrity ∧
      r'.work = { r.work with state := state, integrity := integrity } := by
  simp only [commitSubmitted, bind_eq_ok] at h
  obtain ⟨bound, hbound, hfinal⟩ := h
  have hcapture := bindIntegrity_capture hbound
  obtain ⟨i, rfl⟩ := bindIntegrity_eq hbound
  obtain ⟨hended, rfl⟩ | ⟨-, state, hstate, hwork⟩ := finalize_work hfinal
  · refine ⟨r.queue.state, ?_, i, hcapture, rfl⟩
    simpa [hcancelled] using hended
  · exact ⟨state, hstate, i, hcapture, hwork⟩

theorem submit_works {q : Submission} {p : ParsedResult} (hop : op.presentsResult dispatchId)
    (h : r.submit env q p now = .ok r') : Works env L op dispatchId r r' := by
  obtain ⟨cap, howned, ⟨-, -, rfl⟩ | ⟨-, -, -, rfl⟩ | ⟨-, -, -, rfl⟩⟩ := submit_cases h
  · exact .refl r'
  · exact .refl r'
  · exact .results hop (by rw [howned.notPending]; rfl) .resultSubmitted (by decide) r.integrity rfl rfl

/-- A submission leaves the dispatch uncancelled and moves nothing but its state. -/
theorem submit_work {q : Submission} {p : ParsedResult} (h : r.submit env q p now = .ok r') :
    r.cancelPending = false ∧ r'.queue.state ≠ .cancelled ∧
      r'.work = r.work.moveTo r'.queue.state := by
  obtain ⟨cap, howned, ⟨-, -, rfl⟩ | ⟨-, -, -, rfl⟩ | ⟨-, -, -, rfl⟩⟩ := submit_cases h
  · exact ⟨howned.notPending, howned.notCancelled, rfl⟩
  · exact ⟨howned.notPending, howned.notCancelled, rfl⟩
  · exact ⟨howned.notPending, nofun, rfl⟩

theorem commit_works {q : Submission} {p : ParsedResult} {r₁ r₂ : DispatchRows} {digest : String}
    (hop : op.presentsResult dispatchId) (hwork : r₁.work = r.work)
    (hsubmit : r₁.submit env q p now = .ok r₂)
    (h : r₂.commitSubmitted digest now = .ok r') : Works env L op dispatchId r r' := by
  obtain ⟨hpending, hcancelled, hsubmitted⟩ := submit_work hsubmit
  obtain ⟨state, hstate, i, hcapture, hended⟩ := commitSubmitted_work h hcancelled
  have hcontrols : r₁.controls = r.controls := congrArg Work.controls hwork
  have hkept : r₂.integrity = r.integrity :=
    congrArg Work.integrity (hsubmitted.trans (congrArg (Work.moveTo · _) hwork))
  refine .results hop ?_ state (List.mem_cons_of_mem _ hstate) i (hkept ▸ hcapture) ?_
  · unfold cancelPending at hpending ⊢
    rw [← hcontrols, hpending]
    rfl
  · rw [hended, hsubmitted, hwork]
    rfl

theorem ingestRecoveredResult_works {raw : String}
    (h : L.ingestRecoveredResult env dispatchId raw now = .ok L') :
    WorksAll env L (.ingest dispatchId raw now) L' := by
  refine .of_onDispatch h fun r r' _ hbody => ?_
  simp only [DispatchRows.ingest, checks_ok] at hbody
  obtain ⟨p, -, -, hbody⟩ := hbody
  split at hbody
  · rename_i hterminal
    simp only [checks_ok] at hbody
    have hcapture := bindIntegrity_capture hbody.2
    obtain ⟨i, rfl⟩ := bindIntegrity_eq hbody.2
    have hstate := ended_of_isTerminal hterminal
    exact .finishes (List.mem_cons_of_mem _ hstate) r.queue.state hstate i hcapture rfl
  · simp only [checks_ok] at hbody
    obtain ⟨hstate, bound, hbound, hfinal⟩ := hbody
    have hcapture := bindIntegrity_capture hbound
    obtain ⟨i, rfl⟩ := bindIntegrity_eq hbound
    obtain ⟨hterminal, -⟩ | ⟨-, state, -, hwork⟩ := finalize_work hfinal
    · exact absurd (show QueueState.resultSubmitted ∈ _ from hterminal) (by decide)
    · exact .ingests raw now rfl hstate state i hcapture hwork

theorem captureIntegrity_works {completed allowInsert : Bool} {capture : Option TerminalCapture}
    (h : r.captureIntegrity completed capture allowInsert now = .ok r') :
    Works env L (.captureIntegrity dispatchId completed capture allowInsert now) dispatchId r
      r' := by
  unfold captureIntegrity at h
  split at h
  · simp only [steps_ok] at h
    exact h.2 ▸ .refl r
  split at h
  · cases h
  rename_i c
  simp only [checks_ok] at h
  obtain ⟨-, h⟩ := h
  split at h
  · simp only [steps_ok] at h
    exact h.2 ▸ .refl r
  · rename_i hnone
    simp only [steps_ok] at h
    obtain ⟨-, -, -, rfl⟩ := h
    exact .captures completed c allowInsert now rfl hnone rfl

/-! ### Wakes, gates and notices -/

theorem rearmCheckpoint_works {duration : ℕ}
    (h : L.rearmCheckpoint dispatchId duration now = .ok L') : WorksAll env L op L' := by
  simp only [rearmCheckpoint, checks_ok] at h
  refine .of_stay h.2 fun r r' hbody => ?_
  simp only [steps_ok] at hbody
  obtain ⟨-, -, -, -, rfl⟩ := hbody
  rfl

theorem claimDueCheckpoint_works {epoch : ℕ} {current : Time}
    (h : (L.claimDueCheckpoint epoch current now).map Prod.fst = .ok L') :
    WorksAll env L op L' := by
  obtain ⟨result, hclaim, rfl⟩ := map_eq_ok.1 h
  simp only [claimDueCheckpoint, bind_eq_ok] at hclaim
  obtain ⟨-, -, hclaim⟩ := hclaim
  split at hclaim
  · exact pure_eq_ok.1 hclaim ▸ .refl L
  · rename_i d r hdue
    simp only [bind_eq_ok, pure_eq_ok] at hclaim
    obtain ⟨r', hserve, rfl⟩ := hclaim
    obtain ⟨decisions, rfl⟩ := serveCheckpoint_eq hserve
    exact .of_set (firstDue_spec hdue).1 rfl (.stay rfl)

theorem authorizeSuccessor_works {successor : DispatchId}
    (h : L.authorizeSuccessor dispatchId successor now = .ok L') : WorksAll env L op L' := by
  simp only [authorizeSuccessor, checks_ok] at h
  obtain ⟨-, h⟩ := h
  split at h
  · cases h
  refine .of_stay h fun r r' hbody => ?_
  simp only [steps_ok] at hbody
  obtain ⟨-, -, rfl⟩ := hbody
  split_ifs <;> rfl

theorem recordNotificationAttempt_works {task : Option String} {outcome : NotificationOutcome}
    (h : L.recordNotificationAttempt dispatchId task outcome now = .ok L') :
    WorksAll env L op L' := by
  refine .of_stay h fun r r' hbody => ?_
  simp only [checks_ok] at hbody
  obtain ⟨-, hbody⟩ := hbody
  split at hbody
  · cases hbody
  split at hbody
  · simp only [steps_ok] at hbody
    obtain ⟨-, rfl⟩ := hbody
    rfl
  · simp only [steps_ok] at hbody
    obtain ⟨-, rfl⟩ := hbody
    rfl

theorem enqueueDispatch_works {request : DispatchRequest}
    (h : L.enqueueDispatch env dispatchId request now = .ok L') :
    WorksAll env L (.enqueue dispatchId request now) L' := by
  simp only [enqueueDispatch, checks_ok] at h
  obtain ⟨-, -, -, -, -, -, -, h⟩ := h
  split at h
  · simp only [steps_ok] at h
    exact h.2 ▸ .refl L
  · rename_i hnew
    simp only [steps_ok] at h
    obtain ⟨-, rfl⟩ := h
    refine ⟨fun d r hr => ?_, fun d r' hnone hr' => ?_⟩
    · have hd : d ≠ dispatchId := by
        rintro rfl
        exact Option.some_ne_none r (hr.symm.trans hnew)
      exact ⟨r, by rw [Table.get?_insert_ne _ hd, hr], .refl r⟩
    · by_cases hd : d = dispatchId
      · subst hd
        rw [Table.get?_insert_self hnew] at hr'
        exact ⟨request, now, _, _, rfl, (Option.some.inj hr').symm⟩
      · rw [Table.get?_insert_ne _ hd, hnone] at hr'
        cases hr'

/-! ### One call -/

/-- What a call does to the attempts of each dispatch. -/
theorem body_works (h : L.body env op = .ok L') : WorksAll env L op L' := by
  cases op with
  | enqueue d request now => exact enqueueDispatch_works h
  | acquireHarness nonce lease now =>
    simp only [body, acquireHarness, steps_ok] at h
    obtain ⟨-, -, -, rfl⟩ := h
    exact .of_dispatches rfl
  | renewHarness epoch nonce lease now =>
    simp only [body, renewHarness, checks_ok] at h
    exact .of_dispatches (withHarness_dispatches h.2)
  | requestHarnessShutdown epoch nonce => exact .of_dispatches (withHarness_dispatches h)
  | claim epoch nonce program cancelled now => exact claimQueueDispatch_works h
  | setState d state epoch now => exact setQueueState_works h
  | cancel d epoch now => exact .of_onDispatch h fun r r' _ hbody => cancelQueueRow_works hbody
  | acknowledgeCancellationExit d actionId pid birth code now =>
    exact acknowledgeWorkerCancellationExit_works h
  | recover d epoch preserve now => exact recoverQueueDispatch_works h
  | issueCapability d request now => exact issueAttemptCapability_works h
  | bindLiveness d epoch generation attempt process token lease now =>
    exact bindWorkerLiveness_works h
  | bindThread d epoch generation attempt token thread now => exact bindWorkerThread_works h
  | renewLiveness d generation attempt token lease epoch now => exact renewWorkerLiveness_works h
  | adopt d epoch process nonce now => exact adoptLiveWorker_works h
  | exit d process exit now => exact markWorkerExit_works h
  | retryFailure d failure evidence now => exact recordRetryFailure_works h
  | retryDispatch d strategy state reason now => exact retryDispatch_works h
  | configureRecovery d config now => exact configureRecovery_works h
  | inspection d inspection now => exact recordRecoveryInspection_works h
  | beginInspection d epoch current now => exact beginRecoveryInspection_works h
  | requireAttention d reason failure now => exact markHumanAttentionRequired_works h
  | beginContinuation d epoch nonce program current now => exact beginRecoveryContinuation_works h
  | action d action activeTurn now => exact applyRecoveryAction_works h
  | submit d submission now =>
    refine .of_onDispatch h fun r r' _ hbody => ?_
    simp only [bind_eq_ok] at hbody
    obtain ⟨p, -, hsubmit⟩ := hbody
    exact submit_works (decide_eq_true rfl) hsubmit
  | captureIntegrity d completed capture allowInsert now =>
    exact .of_onDispatch h fun r r' _ hbody => captureIntegrity_works hbody
  | finalize d request now =>
    refine .of_onDispatch h fun r r' _ hbody => ?_
    obtain ⟨-, rfl⟩ | ⟨hsubmitted, state, hstate, hwork⟩ := finalize_work hbody
    · exact .refl r'
    · exact .finishes (hsubmitted ▸ List.mem_cons_self) state hstate r.integrity rfl hwork
  | commit d submission now =>
    refine .of_onDispatch h fun r r' _ hbody => ?_
    simp only [DispatchRows.commit, checks_ok] at hbody
    obtain ⟨p, -, -, submitted, hsubmit, hcommit⟩ := hbody
    exact commit_works (decide_eq_true rfl) rfl hsubmit hcommit
  | commitRetained d submission now =>
    refine .of_onDispatch h fun r r' _ hbody => ?_
    simp only [commitRetained, checks_ok] at hbody
    obtain ⟨p, -, -, -, -, submitted, hsubmit, hcommit⟩ := hbody
    have hrenewed : (r.renewCapability submission.generation submission.attempt
        (now + seconds 30)).work = r.work := rfl
    exact commit_works (decide_eq_true rfl) hrenewed hsubmit hcommit
  | ingest d raw now => exact ingestRecoveredResult_works h
  | authorizeSuccessor source successor now => exact authorizeSuccessor_works h
  | claimCheckpoint epoch current now => exact claimDueCheckpoint_works h
  | rearmCheckpoint d duration now => exact rearmCheckpoint_works h
  | decision d kind cycle call now =>
    obtain ⟨-, r, decision, p, hr, -, -, rfl⟩ := onDispatchDecision_ok.1 h
    exact .of_set hr rfl (.stay rfl)
  | programDecision event capable call now => exact .of_dispatches (onProgramDecision_dispatches h)
  | controllerActions q now =>
    obtain ⟨-, ⟨rfl, -⟩ | ⟨d, kind, cycle, decision, r, r', hcommits, rfl⟩⟩ :=
      submitControllerActions_cases h
    · exact .refl L'
    · exact .of_set hcommits.rows rfl hcommits.works
  | openDecision d q now =>
    refine .of_stay h fun r r' hbody => ?_
    simp only [openDecision, ensureControllerDecision, steps_ok] at hbody
    obtain ⟨-, r₁, ⟨-, rfl⟩, rfl⟩ := hbody
    split_ifs <;> rfl
  | replan d kind cycle revision reason now =>
    simp only [body, authorizeReplan, checks_ok] at h
    refine .of_stay h.2 fun r r' hbody => ?_
    unfold replan at hbody
    split at hbody
    · cases hbody
    · simp only [steps_ok] at hbody
      obtain ⟨-, -, -, r₁, hinsert, rfl⟩ := hbody
      obtain ⟨decisions, rfl⟩ := insertWake_eq hinsert
      rfl
  | reconcileInflightWakes now =>
    cases h
    exact .of_map rfl fun _ _ => .stay rfl
  | reconcileExhaustedWakes now =>
    cases h
    exact .of_map rfl fun _ _ => .stay rfl
  | refreshProfile q now =>
    simp only [body, authorizeProfileRefresh, bind_eq_ok, pure_eq_ok] at h
    obtain ⟨-, -, -, -, rfl⟩ := h
    refine .of_map rfl fun _ r => .stay ?_
    unfold refreshProfile
    split_ifs <;> rfl
  | programEvent event f deadline now => exact .of_dispatches (recordProgramEvent_dispatches h)
  | reconcileStaleDecisions facts isOpen now =>
    exact .of_dispatches (reconcileStaleDecisions_dispatches h)
  | claimProgramDecision event q f minted now =>
    exact .of_dispatches (claimProgramDecision_dispatches h)
  | programActions event q f effects now =>
    exact .of_dispatches (submitProgramActions_dispatches h)
  | programEffect event q f now => exact .of_dispatches (recordProgramEffect_dispatches h)
  | armRefreshFence starts now => exact .of_dispatches (armHarnessRefreshFence_dispatches h)
  | notificationAttempt d task outcome now => exact recordNotificationAttempt_works h

/-- The rows of a dispatch after an accepted call. -/
theorem perform_works (h : L.perform env op = .ok L') (hr : L.dispatches.get? dispatchId = some r) :
    ∃ r', L'.dispatches.get? dispatchId = some r' ∧ Works env L op dispatchId r r' :=
  (body_works (perform_ok.1 h).2.1).rows dispatchId r hr

theorem next_works (env : Env) (op : Op) (hr : L.dispatches.get? dispatchId = some r) :
    ∃ r', (L.next env op).dispatches.get? dispatchId = some r' ∧
      Works env L op dispatchId r r' := by
  obtain hsame | ⟨-, hbody, -⟩ := next_cases env L op
  · exact ⟨r, by rw [hsame, hr], .refl r⟩
  · exact (body_works hbody).rows dispatchId r hr

end CodexFlow.Ledger
