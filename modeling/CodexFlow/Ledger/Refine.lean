import CodexFlow.Ledger.Life

/-!
# Refinement of the queue and worker operations

Between transactions the recovery state is a function of the queue state. Under that invariant each
operation on the rows of a dispatch is one step of its life.
-/

namespace CodexFlow.Ledger

open Checked

variable {env : Env} {L L' : Ledger} {keys : List DispatchId} {dispatchId : DispatchId}
  {r r' : DispatchRows} {c : Cause} {now : Time}

/-! ### The invariant -/

/-- Idle recovery stands beside an early or a cancelled state only. -/
def DispatchRows.Settled (r : DispatchRows) : Prop :=
  r.recovery.recoveryState = .none → r.queue.state.isEarly ∨ r.queue.state = .cancelled

structure DispatchRows.Good (env : Env) (keys : List DispatchId) (dispatchId : DispatchId)
    (r : DispatchRows) : Prop where
  valid : r.Valid env keys dispatchId
  settled : r.Settled

def QueueState.recoveryKind : QueueState → RecoveryKind
  | recoveryInspectionPending => .inspectionPending
  | recoveryRetryWait => .retryWait
  | recoveryContinuationPending => .continuationPending
  | humanAttentionRequired => .humanAttentionRequired
  | completed => .completed
  | failed => .failed
  | _ => .none

namespace DispatchRows

theorem Valid.queueState_eq (h : r.Valid env keys dispatchId) {s : QueueState}
    (hs : r.recovery.recoveryState.queueState = some s) : r.queue.state = s :=
  h.recovery.2.2.2.2.2.2.2 s (by simp [hs])

namespace Good

variable (h : r.Good env keys dispatchId)
include h

theorem recoveryKind : r.recovery.recoveryState = r.queue.state.recoveryKind := by
  cases hk : r.recovery.recoveryState with
  | none =>
    obtain hearly | hcancelled := h.settled hk
    · cases hq : r.queue.state <;> simp_all [QueueState.isEarly, QueueState.recoveryKind]
    · rw [hcancelled]
      rfl
  | _ =>
    rw [h.valid.queueState_eq (by rw [hk]; rfl)]
    rfl

theorem ne_submitted : r.queue.state ≠ .resultSubmitted ∧ r.queue.state ≠ .finalizing := by
  cases hk : r.recovery.recoveryState with
  | none =>
    obtain hearly | hcancelled := h.settled hk
    · constructor <;> intro hq <;> rw [hq] at hearly <;> exact absurd hearly (by decide)
    · rw [hcancelled]
      decide
  | _ =>
    rw [h.valid.queueState_eq (by rw [hk]; rfl)]
    decide

theorem raw_eq_none (hq : r.queue.state.isNonterminal) : r.queue.raw = none :=
  (h.valid.queue.2.2.2.1 hq).1

theorem recorded : r.life.Recorded := by
  have hne := h.ne_submitted
  show (r.queue.raw.map (·.sha256)).isSome = r.queue.state.isTerminal
  rw [Option.isSome_map]
  cases hq : r.queue.state with
  | completed => exact (h.valid.queue.2.2.1 (by simp [hq])).1
  | failed => exact (h.valid.queue.2.2.1 (by simp [hq])).1
  | cancelled => rw [(h.valid.queue.2.2.2.2 hq).1]; rfl
  | resultSubmitted => exact absurd hq hne.1
  | finalizing => exact absurd hq hne.2
  | _ => rw [h.raw_eq_none (by rw [hq]; rfl)]; rfl

end Good

/-- The rows `r'` are again settled, and the call took one step of the life. -/
structure Refines (c : Cause) (r r' : DispatchRows) : Prop where
  settled : r'.Settled
  step : Life.Step c r.life r'.life

theorem Settled.congr (h : r.Settled)
    (hk : r'.recovery.recoveryState = r.recovery.recoveryState)
    (hq : r'.queue.state = r.queue.state) : r'.Settled := by
  unfold Settled
  rw [hk, hq]
  exact h

theorem Refines.stay (h : r.Settled) (hlife : r'.life = r.life)
    (hk : r'.recovery.recoveryState = r.recovery.recoveryState) : Refines c r r' where
  settled := h.congr hk (congrArg Life.state hlife)
  step := hlife ▸ .stay c r.life

theorem Refines.refl (h : r.Settled) : Refines c r r := .stay h rfl rfl

theorem settled_of_early (h : r.queue.state.isEarly) : r.Settled := fun _ => .inl h

theorem settled_of_recovery (h : r.recovery.recoveryState ≠ .none) : r.Settled :=
  fun hk => absurd hk h

end DispatchRows

open DispatchRows

/-! ### Lookups -/

theorem onDispatch_ok {missing : LedgerError} {f : DispatchRows → Checked DispatchRows} :
    L.onDispatch dispatchId missing f = .ok L' ↔
      ∃ r r', L.dispatches.get? dispatchId = some r ∧ f r = .ok r' ∧
        L' = { L with dispatches := L.dispatches.set dispatchId r' } := by
  unfold onDispatch
  cases L.dispatches.get? dispatchId with
  | none => simp
  | some r =>
    simp only [bind_eq_ok, pure_eq_ok, Option.some.injEq, exists_and_left, exists_eq_left']
    exact exists_congr fun r' => and_congr_right fun _ => eq_comm

theorem nextClaimable_spec {r₀ : DispatchRows} (h : L.nextClaimable now = some (dispatchId, r₀)) :
    L.dispatches.get? dispatchId = some r₀ ∧ L.isClaimable now (dispatchId, r₀) := by
  obtain ⟨hmem, hclaim⟩ := List.mem_filter.1 (List.argmin_mem h)
  exact ⟨Table.get?_eq_some.2 hmem, hclaim⟩

/-! ### The queue -/

theorem cancel_life {retain : Bool} (hraw : r.queue.raw = none) :
    (r.cancel retain now).life = { r.life with state := .cancelled, strategy := .none } := by
  simp only [life, rawSha256, hraw, DispatchRows.cancel, RetryPolicy.settle, Option.map_none]
  rfl

theorem cancelQueueRow_refines {epoch : Option ℕ} {retain : Bool} (hr : r.Settled)
    (h : L.cancelQueueRow epoch retain now r = .ok r') : Refines c r r' := by
  unfold cancelQueueRow at h
  split_ifs at h
  · cases h
    exact .refl hr
  · simp only [steps_ok] at h
    obtain ⟨hnon, -, -, hraw, -, -, rfl⟩ := h
    have hraw' : r.queue.raw = none := by
      simpa using (Bool.and_eq_true_iff.1 hraw).1
    exact ⟨fun _ => .inr rfl, cancel_life hraw' ▸ .cancel hnon⟩

/-- One dispatch is rewritten, by a step of its life when its rows were good and are valid. -/
def Updates (env : Env) (c : Cause) (dispatchId : DispatchId) (L L' : Ledger) : Prop :=
  ∃ r r', L.dispatches.get? dispatchId = some r ∧
    L'.dispatches = L.dispatches.set dispatchId r' ∧
    (r.Good env L.dispatches.keys dispatchId → r'.Valid env L.dispatches.keys dispatchId →
      Refines c r r')

theorem Updates.of_onDispatch {missing : LedgerError} {f : DispatchRows → Checked DispatchRows}
    (h : L.onDispatch dispatchId missing f = .ok L')
    (hf : ∀ r r', L.dispatches.get? dispatchId = some r → f r = .ok r' →
      r.Good env L.dispatches.keys dispatchId → r'.Valid env L.dispatches.keys dispatchId →
      Refines c r r') : Updates env c dispatchId L L' := by
  obtain ⟨r, r', hr, hbody, rfl⟩ := onDispatch_ok.1 h
  exact ⟨r, r', hr, rfl, hf r r' hr hbody⟩

theorem cancelQueueDispatch_updates {epoch : Option ℕ}
    (h : L.cancelQueueDispatch dispatchId epoch now = .ok L') :
    Updates env c dispatchId L L' :=
  .of_onDispatch h fun _ _ _ hbody hgood _ => cancelQueueRow_refines hgood.settled hbody

theorem recordCancelledExit_frame {exitCode : Option ℤ} :
    (r.recordCancelledExit exitCode now).life = r.life ∧
      ((r.recordCancelledExit exitCode now).recovery.recoveryState = r.recovery.recoveryState) := by
  unfold DispatchRows.recordCancelledExit
  split_ifs
  · exact ⟨rfl, rfl⟩
  · exact ⟨rfl, rfl⟩

theorem acknowledgeWorkerCancellationExit_updates {actionId birth : String} {pid : ℕ}
    {exitCode : Option ℤ}
    (h : L.acknowledgeWorkerCancellationExit env dispatchId actionId pid birth exitCode now =
      .ok L') : Updates env c dispatchId L L' := by
  simp only [acknowledgeWorkerCancellationExit, checks_ok] at h
  obtain ⟨-, -, h⟩ := h
  split at h
  · cases h
  · refine .of_onDispatch h fun r r' _ hbody hgood _ => ?_
    simp only [checks_ok] at hbody
    obtain ⟨-, hbody⟩ := hbody
    split_ifs at hbody
    · cases hbody
      exact .refl hgood.settled
    · simp only [checks_ok] at hbody
      obtain ⟨hlife, hk⟩ := recordCancelledExit_frame (r := r)
      have hmid := hgood.settled.congr hk (congrArg Life.state hlife)
      obtain ⟨hsettled, hstep⟩ := cancelQueueRow_refines (c := c) hmid hbody.2
      exact ⟨hsettled, hlife ▸ hstep⟩

theorem claimQueueDispatch_updates {epoch : ℕ} {nonce : String}
    {program executionCancelled : DispatchId → Bool}
    (h : L.claimQueueDispatch epoch nonce program executionCancelled now = .ok L') :
    L' = L ∨ ∃ d, Updates env c d L L' := by
  simp only [claimQueueDispatch, checks_ok] at h
  obtain ⟨-, -, -, h⟩ := h
  split at h
  · exact .inl (pure_eq_ok.1 h).symm
  · rename_i d r₀ hnext
    obtain ⟨hget, hclaim⟩ := nextClaimable_spec hnext
    simp only [checks_ok] at h
    refine .inr ⟨d, .of_onDispatch h.2 fun r r' hr hbody hgood _ => ?_⟩
    split_ifs at hbody
    · exact cancelQueueRow_refines hgood.settled hbody
    · cases hbody
      -- the selected row is the one that is written
      obtain rfl : r₀ = r := Option.some.inj (hget.symm.trans hr)
      have hqueued : r₀.queue.state = .queued := by
        simp only [isClaimable, Bool.and_eq_true, decide_eq_true_eq] at hclaim
        exact hclaim.1.1.1
      exact ⟨settled_of_early rfl, .move (by simp [life, hqueued, QueueState.isEarly]) rfl⟩

/-! ### Moves -/

theorem transitions_early {a b : QueueState} (ha : a.isEarly) (hb : b ∈ transitions a) :
    b.isEarly ∨ b = .cancelled ∨ b ∈ [.resultSubmitted, .completed, .failed] := by
  cases a <;> cases b <;> revert ha hb <;> decide

theorem transitions_late {a b : QueueState} (ha : ¬a.isEarly) (hb : b ∈ transitions a) :
    b = a ∨ a.recoveryKind.queueState = some a ∨ a = .resultSubmitted ∨ a = .finalizing := by
  cases a <;> cases b <;> revert ha hb <;> decide

/-- A move that validation lets through stays, or goes from one early state to another. -/
theorem setQueueState_updates {state : QueueState} {epoch : Option ℕ}
    (h : L.setQueueState dispatchId state epoch now = .ok L') :
    Updates env c dispatchId L L' := by
  unfold setQueueState at h
  split_ifs at h with hcancel
  · exact cancelQueueDispatch_updates h
  · refine .of_onDispatch h fun r r' _ hbody hgood hvalid => ?_
    simp only [steps_ok] at hbody
    obtain ⟨-, hmem, -, rfl⟩ := hbody
    by_cases hsame : state = r.queue.state
    · exact .stay hgood.settled (by rw [hsame]; rfl) rfl
    by_cases hearly : r.queue.state.isEarly
    · have hto : state.isEarly := by
        obtain hto | hto | hto := transitions_early hearly hmem
        · exact hto
        · exact absurd hto hcancel
        · -- a submitted or terminal state needs a result, which an early row does not have
          have hraw : r.queue.raw.isSome := (hvalid.queue.2.2.1 hto).1
          rw [hgood.raw_eq_none (Life.isNonterminal_of_isEarly hearly)] at hraw
          exact absurd hraw (by decide)
      exact ⟨settled_of_early hto, .move hearly hto⟩
    · exfalso
      obtain hto | hto | hto := transitions_late hearly hmem
      · exact hsame hto
      · -- the recovery state pins the queue state, also of the rows written
        rw [← hgood.recoveryKind] at hto
        exact hsame (hvalid.queueState_eq hto)
      · exact hto.elim hgood.ne_submitted.1 hgood.ne_submitted.2

theorem recoverQueueDispatch_updates {newEpoch : ℕ} {preserve : Bool}
    (h : L.recoverQueueDispatch dispatchId newEpoch preserve now = .ok L') :
    Updates env .recover dispatchId L L' := by
  simp only [recoverQueueDispatch, checks_ok] at h
  obtain ⟨-, -, h⟩ := h
  refine .of_onDispatch h fun r r' _ hbody hgood _ => ?_
  split at hbody
  · cases hbody
    exact .refl hgood.settled
  · rename_i hstate
    simp only [steps_ok] at hbody
    obtain ⟨hpending, rfl⟩ := hbody
    have hne := hgood.ne_submitted
    have hearly : r.queue.state.isEarly := by
      generalize r.queue.state = state at *
      cases state <;> revert hstate hpending hne <;> decide
    refine ⟨settled_of_early rfl, .release rfl ?_ ?_ (.inr ⟨rfl, hearly⟩)⟩
    · exact Life.isTerminal_of_isNonterminal (Life.isNonterminal_of_isEarly hearly)
    · intro hcancelled
      exact absurd hcancelled (Life.ne_cancelled_of_isNonterminal
        (Life.isNonterminal_of_isEarly hearly))

/-! ### Workers -/

theorem issueAttemptCapability_updates {request : CapabilityRequest}
    (h : L.issueAttemptCapability dispatchId request now = .ok L') :
    Updates env c dispatchId L L' := by
  simp only [issueAttemptCapability, checks_ok] at h
  obtain ⟨-, -, h⟩ := h
  refine .of_onDispatch h fun r r' _ hbody hgood _ => ?_
  simp only [checks_ok] at hbody
  obtain ⟨-, hbody⟩ := hbody
  split at hbody
  · simp only [steps_ok] at hbody
    obtain ⟨-, rfl⟩ := hbody
    split_ifs
    · exact .stay hgood.settled rfl rfl
    · exact .refl hgood.settled
  · cases hbody
    exact .stay hgood.settled rfl rfl

theorem bindWorkerLiveness_updates {epoch generation attempt lease : ℕ} {process : WorkerProcess}
    {token : String}
    (h : L.bindWorkerLiveness dispatchId epoch generation attempt process token lease now = .ok L') :
    Updates env c dispatchId L L' := by
  simp only [bindWorkerLiveness, checks_ok] at h
  obtain ⟨-, -, -, -, -, -, h⟩ := h
  refine .of_onDispatch h fun r r' _ hbody hgood _ => ?_
  simp only [steps_ok] at hbody
  obtain ⟨-, -, -, -, rfl⟩ := hbody
  by_cases hclaimed : r.queue.state = .claimed
  · simp only [hclaimed, if_true]
    exact ⟨settled_of_early rfl, .move (by simp [life, hclaimed, QueueState.isEarly]) rfl⟩
  · simp only [hclaimed, if_false]
    exact .stay hgood.settled rfl rfl

theorem bindWorkerThread_updates {epoch generation attempt : ℕ} {token threadId : String}
    (h : L.bindWorkerThread env dispatchId epoch generation attempt token threadId now = .ok L') :
    Updates env c dispatchId L L' := by
  simp only [bindWorkerThread, checks_ok] at h
  obtain ⟨-, -, -, -, -, -, h⟩ := h
  refine .of_onDispatch h fun r r' _ hbody hgood _ => ?_
  simp only [steps_ok] at hbody
  obtain ⟨-, -, -, rfl⟩ := hbody
  split_ifs with hactive
  · have hearly : r.queue.state.isEarly := by
      generalize r.queue.state = state at hactive
      cases state <;> revert hactive <;> decide
    exact ⟨settled_of_early rfl, .move hearly rfl⟩
  · exact .refl hgood.settled

theorem renewWorkerLiveness_updates {generation attempt lease : ℕ} {token : String}
    {epoch : Option ℕ}
    (h : L.renewWorkerLiveness env dispatchId generation attempt token lease epoch now = .ok L') :
    Updates env c dispatchId L L' := by
  simp only [renewWorkerLiveness, checks_ok] at h
  obtain ⟨-, -, -, -, h⟩ := h
  refine .of_onDispatch h fun r r' _ hbody hgood _ => ?_
  split at hbody
  · cases hbody
  · simp only [steps_ok] at hbody
    obtain ⟨-, -, -, rfl⟩ := hbody
    exact .stay hgood.settled rfl rfl

theorem adoptLiveWorker_updates {newEpoch : ℕ} {process : WorkerProcess} {nonce : String}
    (h : L.adoptLiveWorker dispatchId newEpoch process nonce now = .ok L') :
    Updates env c dispatchId L L' := by
  simp only [adoptLiveWorker, checks_ok] at h
  obtain ⟨-, -, -, -, h⟩ := h
  refine .of_onDispatch h fun r r' _ hbody hgood _ => ?_
  split at hbody
  · cases hbody
  · simp only [steps_ok] at hbody
    obtain ⟨-, -, rfl⟩ := hbody
    exact .stay hgood.settled rfl rfl

end CodexFlow.Ledger
