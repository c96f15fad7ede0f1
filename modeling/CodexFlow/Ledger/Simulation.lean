import CodexFlow.Ledger.RefineResult

/-!
# The ledger simulates the lives of its dispatches

Every call, accepted or not, keeps the rows good and takes at most one step of the life of each
dispatch.
-/

namespace CodexFlow.Ledger

open Checked DispatchRows

variable {env : Env} {L L' : Ledger} {dispatchId : DispatchId} {r r' : DispatchRows} {c : Cause}
  {now : Time}

/-! ### The remaining operations -/

theorem rearmCheckpoint_updates {duration : ℕ}
    (h : L.rearmCheckpoint dispatchId duration now = .ok L') : Updates env c dispatchId L L' := by
  simp only [rearmCheckpoint, checks_ok] at h
  obtain ⟨-, h⟩ := h
  refine .of_onDispatch h fun r r' _ hbody hgood _ => ?_
  simp only [steps_ok] at hbody
  obtain ⟨-, -, -, -, rfl⟩ := hbody
  exact .stay hgood.settled rfl rfl

theorem firstDue_spec {current : Time} {r : DispatchRows}
    (h : L.firstDue current = some (dispatchId, r)) :
    L.dispatches.get? dispatchId = some r ∧ r.checkpointDue current := by
  obtain ⟨hmem, hdue⟩ := List.mem_filter.1 (List.argmin_mem h)
  exact ⟨Table.get?_eq_some.2 hmem, hdue⟩

theorem serveCheckpoint_eq {current : Time} (h : r.serveCheckpoint current now = .ok r') :
    ∃ decisions, r' = { r with
      binding := r.binding.disarm current, decisions := decisions
      wakes := r.wakes ++ [r.checkpointWake.wake current] } := by
  simp only [serveCheckpoint, checks_ok] at h
  obtain ⟨decisions, rfl⟩ := insertWake_eq h.2
  exact ⟨decisions, rfl⟩

theorem claimDueCheckpoint_updates {epoch : ℕ} {current : Time}
    (h : (L.claimDueCheckpoint epoch current now).map Prod.fst = .ok L') :
    L' = L ∨ ∃ d, Updates env c d L L' := by
  obtain ⟨result, hclaim, rfl⟩ := map_eq_ok.1 h
  simp only [claimDueCheckpoint, bind_eq_ok] at hclaim
  obtain ⟨-, -, hclaim⟩ := hclaim
  split at hclaim
  · rw [← pure_eq_ok.1 hclaim]
    exact .inl rfl
  · rename_i d r hdue
    simp only [bind_eq_ok, pure_eq_ok] at hclaim
    obtain ⟨r', hserve, rfl⟩ := hclaim
    obtain ⟨decisions, rfl⟩ := serveCheckpoint_eq hserve
    exact .inr ⟨d, r, _, (firstDue_spec hdue).1, rfl, fun hgood _ =>
      .stay hgood.settled rfl rfl⟩

theorem waits_append (r : DispatchRows) (successor : DispatchId) (now : Time) :
    ({ r with successors := r.successors ++ [⟨successor, now, none⟩] } : DispatchRows).waits =
      r.waits ++ [successor] := by
  simp [waits]

theorem authorizeSuccessor_updates {successor : DispatchId}
    (h : L.authorizeSuccessor dispatchId successor now = .ok L') :
    Updates env (.gate successor) dispatchId L L' := by
  simp only [authorizeSuccessor, checks_ok] at h
  obtain ⟨-, h⟩ := h
  split at h
  · cases h
  refine .of_onDispatch h fun r r' _ hbody hgood _ => ?_
  simp only [steps_ok] at hbody
  obtain ⟨-, -, rfl⟩ := hbody
  split_ifs
  · exact .refl hgood.settled
  · refine ⟨hgood.settled.congr rfl rfl, ?_⟩
    have hstep := Life.Step.gate (ℓ := r.life) successor
    rw [show r.life.waits = r.waits from rfl, ← waits_append r successor now] at hstep
    exact hstep

theorem onDecision_ok {kind : WakeKind} {cycle : ℕ} {missing : LedgerError}
    {f : DecisionRows → Checked DecisionRows} :
    r.onDecision kind cycle missing f = .ok r' ↔
      ∃ d p, r.decision? kind cycle = some d ∧ f ⟨d, r.wake? kind cycle⟩ = .ok p ∧
        r' = r.setDecision kind cycle p := by
  unfold onDecision
  cases r.decision? kind cycle with
  | none => simp
  | some d =>
    simp only [bind_eq_ok, pure_eq_ok, Option.some.injEq, exists_and_left, exists_eq_left']
    exact exists_congr fun p => and_congr_right fun _ => eq_comm

theorem onDispatchDecision_ok {kind : WakeKind} {cycle : ℕ} {op : DecisionOp} :
    L.onDispatchDecision env dispatchId kind cycle op now = .ok L' ↔
      op.check env now = .ok () ∧ ∃ r d p, L.dispatches.get? dispatchId = some r ∧
        r.decision? kind cycle = some d ∧
        op.run env (L.decisionContext (.dispatch dispatchId kind cycle) none) now
          ⟨d, r.wake? kind cycle⟩ = .ok p ∧
        L' = { L with dispatches :=
          L.dispatches.set dispatchId (r.setDecision kind cycle p) } := by
  simp only [onDispatchDecision, bind_eq_ok, onDispatch_ok, onDecision_ok]
  constructor
  · rintro ⟨⟨⟩, hcheck, r, r', hr, ⟨d, p, hd, hp, rfl⟩, rfl⟩
    exact ⟨hcheck, r, d, p, hr, hd, hp, rfl⟩
  · rintro ⟨hcheck, r, d, p, hr, hd, hp, rfl⟩
    exact ⟨(), hcheck, r, _, hr, ⟨d, p, hd, hp, rfl⟩, rfl⟩

theorem onDispatchDecision_updates {kind : WakeKind} {cycle : ℕ} {op : DecisionOp}
    (h : L.onDispatchDecision env dispatchId kind cycle op now = .ok L') :
    Updates env c dispatchId L L' := by
  obtain ⟨-, r, d, p, hr, -, -, rfl⟩ := onDispatchDecision_ok.1 h
  exact ⟨r, _, hr, rfl, fun hgood _ => .stay hgood.settled rfl rfl⟩

theorem createControllerDecision_updates {q : OpenRequest}
    (h : L.createControllerDecision dispatchId q now = .ok L') : Updates env c dispatchId L L' := by
  refine .of_onDispatch h fun r r' _ hbody hgood _ => ?_
  simp only [openDecision, ensureControllerDecision, steps_ok] at hbody
  obtain ⟨-, r₁, ⟨-, rfl⟩, rfl⟩ := hbody
  split_ifs
  · exact .refl hgood.settled
  · exact .stay hgood.settled rfl rfl
  · exact .stay hgood.settled rfl rfl
  · exact .stay hgood.settled rfl rfl

theorem authorizeReplan_updates {kind : WakeKind} {cycle revision : ℕ} {reason : String}
    (h : L.authorizeReplan env dispatchId kind cycle revision reason now = .ok L') :
    Updates env c dispatchId L L' := by
  simp only [authorizeReplan, checks_ok] at h
  refine .of_onDispatch h.2 fun r r' _ hbody hgood _ => ?_
  unfold replan at hbody
  split at hbody
  · cases hbody
  · simp only [steps_ok] at hbody
    obtain ⟨-, -, -, r₁, hinsert, rfl⟩ := hbody
    obtain ⟨decisions, rfl⟩ := insertWake_eq hinsert
    exact .stay hgood.settled rfl rfl

theorem recordNotificationAttempt_updates {task : Option String} {outcome : NotificationOutcome}
    (h : L.recordNotificationAttempt dispatchId task outcome now = .ok L') :
    Updates env c dispatchId L L' := by
  refine .of_onDispatch h fun r r' _ hbody hgood _ => ?_
  simp only [checks_ok] at hbody
  obtain ⟨-, hbody⟩ := hbody
  split at hbody
  · cases hbody
  split at hbody
  · simp only [steps_ok] at hbody
    obtain ⟨-, rfl⟩ := hbody
    exact .stay hgood.settled rfl rfl
  · simp only [steps_ok] at hbody
    obtain ⟨-, rfl⟩ := hbody
    exact .refl hgood.settled

theorem withHarness_dispatches {epoch : ℕ} {nonce : String}
    {f : HarnessAuthority → HarnessAuthority} (h : L.withHarness epoch nonce f = .ok L') :
    L'.dispatches = L.dispatches := by
  simp only [withHarness, steps_ok] at h
  obtain ⟨-, rfl⟩ := h
  rfl

/-! ### Programs

The operations on program decisions leave every dispatch as it was. -/

theorem onProgramDecision_dispatches {event : ProgramEvent} {capable : Bool} {op : DecisionOp}
    (h : L.onProgramDecision env event capable op now = .ok L') :
    L'.dispatches = L.dispatches := by
  simp only [onProgramDecision, bind_eq_ok] at h
  obtain ⟨-, -, h⟩ := h
  split at h
  · cases h
  · simp only [bind_eq_ok, pure_eq_ok] at h
    obtain ⟨-, -, -, -, rfl⟩ := h
    rfl

theorem ensureProgramDecision_dispatches {event : ProgramEvent} {f : ProgramFacts}
    {deadline : Option Time} (h : L.ensureProgramDecision event f deadline now = .ok L') :
    L'.dispatches = L.dispatches := by
  simp only [ensureProgramDecision, checks_ok] at h
  obtain ⟨-, -, -, h⟩ := h
  split at h
  · exact pure_eq_ok.1 h ▸ rfl
  · simp only [steps_ok] at h
    obtain ⟨-, rfl⟩ := h
    rfl

theorem recordProgramEvent_dispatches {event : ProgramEvent} {f : ProgramFacts}
    {deadline : Option Time} (h : L.recordProgramEvent event f deadline now = .ok L') :
    L'.dispatches = L.dispatches := by
  simp only [recordProgramEvent, bind_eq_ok] at h
  obtain ⟨-, -, h⟩ := h
  rw [ensureProgramDecision_dispatches h]
  split_ifs
  · rfl
  · rfl

theorem openCoalesced_dispatches {facts : String → ProgramFacts} {programs : List String}
    (h : openCoalesced facts now programs L = .ok L') : L'.dispatches = L.dispatches := by
  induction programs generalizing L with
  | nil => exact pure_eq_ok.1 h ▸ rfl
  | cons programId programs ih =>
    simp only [openCoalesced, bind_eq_ok] at h
    obtain ⟨L₁, hfirst, hrest⟩ := h
    rw [ih hrest, ensureProgramDecision_dispatches hfirst]

theorem reconcileStaleDecisions_dispatches {facts : String → ProgramFacts} {isOpen : String → Bool}
    (h : L.reconcileStaleDecisions facts isOpen now = .ok L') : L'.dispatches = L.dispatches := by
  simp only [reconcileStaleDecisions, bind_eq_ok] at h
  obtain ⟨-, -, h⟩ := h
  rw [openCoalesced_dispatches h]

theorem claimProgramDecision_dispatches {event : ProgramEvent} {q : ClaimRequest} {f : ProgramFacts}
    {minted : String} (h : L.claimProgramDecision env event q f minted now = .ok L') :
    L'.dispatches = L.dispatches := by
  simp only [claimProgramDecision, bind_eq_ok] at h
  obtain ⟨-, -, h⟩ := h
  split at h
  · cases h
  · simp only [bind_eq_ok, pure_eq_ok] at h
    obtain ⟨-, -, -, -, -, -, -, -, -, -, -, -, -, -, -, -, rfl⟩ := h
    rfl

theorem submitProgramActions_dispatches {event : ProgramEvent} {q : ProgramSubmitRequest}
    {f : ProgramFacts} {effects : Checked Unit}
    (h : L.submitProgramActions env event q f effects now = .ok L') :
    L'.dispatches = L.dispatches := by
  simp only [submitProgramActions, bind_eq_ok] at h
  obtain ⟨-, -, -, -, h⟩ := h
  split at h
  · cases h
  simp only [bind_eq_ok] at h
  obtain ⟨-, -, -, -, h⟩ := h
  split at h
  · simp only [bind_eq_ok, pure_eq_ok] at h
    obtain ⟨-, -, -, -, rfl⟩ := h
    rfl
  · simp only [bind_eq_ok] at h
    obtain ⟨-, -, -, -, h⟩ := h
    split at h
    · cases h
    · simp only [bind_eq_ok, pure_eq_ok] at h
      obtain ⟨-, -, rfl⟩ := h
      rfl

theorem recordProgramEffect_dispatches {event : ProgramEvent} {q : EffectOutcome} {f : ProgramFacts}
    (h : L.recordProgramEffect event q f now = .ok L') : L'.dispatches = L.dispatches := by
  unfold recordProgramEffect at h
  split at h
  · cases h
  simp only [bind_eq_ok] at h
  obtain ⟨-, -, -, -, h⟩ := h
  split_ifs at h
  · rw [ensureProgramDecision_dispatches h]
  · exact pure_eq_ok.1 h ▸ rfl

theorem armHarnessRefreshFence_dispatches {starts : Checked Unit}
    (h : L.armHarnessRefreshFence starts now = .ok L') : L'.dispatches = L.dispatches := by
  simp only [armHarnessRefreshFence, bind_eq_ok, pure_eq_ok] at h
  obtain ⟨-, -, -, -, rfl⟩ := h
  rfl

/-! ### One call -/

def DecisionKey.dispatchId? : DecisionKey → Option DispatchId
  | .dispatch d .. => some d
  | .program _ => none

/-- The dispatch a call names; the scans name none. -/
def Op.target : Op → Option DispatchId
  | .enqueue d .. => some d
  | .acquireHarness .. => none
  | .renewHarness .. => none
  | .requestHarnessShutdown .. => none
  | .claim .. => none
  | .setState d .. => some d
  | .cancel d .. => some d
  | .acknowledgeCancellationExit d .. => some d
  | .recover d .. => some d
  | .issueCapability d .. => some d
  | .bindLiveness d .. => some d
  | .bindThread d .. => some d
  | .renewLiveness d .. => some d
  | .adopt d .. => some d
  | .exit d .. => some d
  | .retryFailure d .. => some d
  | .retryDispatch d .. => some d
  | .configureRecovery d .. => some d
  | .inspection d .. => some d
  | .beginInspection d .. => some d
  | .requireAttention d .. => some d
  | .beginContinuation d .. => some d
  | .action d .. => some d
  | .submit d .. => some d
  | .captureIntegrity d .. => some d
  | .finalize d .. => some d
  | .commit d .. => some d
  | .commitRetained d .. => some d
  | .ingest d .. => some d
  | .authorizeSuccessor d .. => some d
  | .claimCheckpoint .. => none
  | .rearmCheckpoint d .. => some d
  | .decision d .. => some d
  | .programDecision .. => none
  | .controllerActions q _ => q.bundle.decisionId.dispatchId?
  | .openDecision d .. => some d
  | .replan d .. => some d
  | .reconcileInflightWakes _ => none
  | .reconcileExhaustedWakes _ => none
  | .refreshProfile .. => none
  | .programEvent .. => none
  | .reconcileStaleDecisions .. => none
  | .claimProgramDecision .. => none
  | .programActions .. => none
  | .programEffect .. => none
  | .armRefreshFence .. => none
  | .notificationAttempt d .. => some d

def SubmitRequest.cause (q : SubmitRequest) : Cause :=
  match q.bundle.decisionId with
  | .dispatch .. => controllerCause q.bundle.actions
  | .program _ => .other

def Op.cause : Op → Cause
  | .recover .. => .recover
  | .retryDispatch .. => .decision
  | .action _ a _ _ => a.cause
  | .controllerActions q _ => q.cause
  | .exit .. => .exit
  | .authorizeSuccessor _ successor _ => .gate successor
  | _ => .other

theorem RecoveryAction.cause_mem (a : RecoveryAction) : a.cause ∈ [.action, .grant, .other] := by
  unfold RecoveryAction.cause
  split_ifs
  · decide
  · decide
  · decide

theorem SubmitRequest.cause_mem (q : SubmitRequest) : q.cause ∈ [.action, .other] := by
  unfold cause controllerCause
  split
  · split_ifs
    · decide
    · decide
  · decide

theorem Op.eq_retryDispatch {op : Op} (h : op.cause = .decision) :
    ∃ d strategy state reason now, op = .retryDispatch d strategy state reason now := by
  cases op with
  | retryDispatch d strategy state reason now => exact ⟨d, strategy, state, reason, now, rfl⟩
  | action d a activeTurn now =>
    have hmem := a.cause_mem
    rw [show a.cause = .decision from h] at hmem
    exact absurd hmem (by decide)
  | controllerActions q now =>
    have hmem := q.cause_mem
    rw [show q.cause = .decision from h] at hmem
    exact absurd hmem (by decide)
  | _ => cases h

theorem Op.eq_exit {op : Op} (h : op.cause = .exit) :
    ∃ d process exit now, op = .exit d process exit now := by
  cases op with
  | exit d process exit now => exact ⟨d, process, exit, now, rfl⟩
  | action d a activeTurn now =>
    have hmem := a.cause_mem
    rw [show a.cause = .exit from h] at hmem
    exact absurd hmem (by decide)
  | controllerActions q now =>
    have hmem := q.cause_mem
    rw [show q.cause = .exit from h] at hmem
    exact absurd hmem (by decide)
  | _ => cases h

theorem Op.eq_authorizeSuccessor {op : Op} {successor : DispatchId}
    (h : op.cause = .gate successor) :
    ∃ source now, op = .authorizeSuccessor source successor now := by
  cases op with
  | authorizeSuccessor source successor' now =>
    cases h
    exact ⟨source, now, rfl⟩
  | action d a activeTurn now =>
    have hmem := a.cause_mem
    rw [show a.cause = .gate successor from h] at hmem
    simp at hmem
  | controllerActions q now =>
    have hmem := q.cause_mem
    rw [show q.cause = .gate successor from h] at hmem
    simp at hmem
  | _ => cases h

/-- What the body of a call does to the tables. -/
inductive Effect (env : Env) (op : Op) (L L' : Ledger) : Prop
  | unchanged (h : L'.dispatches = L.dispatches)
  | enqueued (dispatchId : DispatchId) (request : DispatchRequest) (sequence : ℕ) (now : Time)
      (hop : op.target = some dispatchId) (hnew : L.dispatches.get? dispatchId = none)
      (h : L'.dispatches = L.dispatches.insert dispatchId (request.rows sequence now))
  | updated (dispatchId : DispatchId) (hop : op.target.all (· = dispatchId))
      (h : Updates env op.cause dispatchId L L')
  | scanned (f : DispatchId → DispatchRows → DispatchRows) (hop : op.target = none)
      (hlife : ∀ d r, (f d r).life = r.life)
      (hkind : ∀ d r, (f d r).recovery.recoveryState = r.recovery.recoveryState)
      (h : L'.dispatches = L.dispatches.map f)

namespace Effect

variable {op : Op}

theorem of_updates (h : Updates env op.cause dispatchId L L') (hop : op.target = some dispatchId) :
    Effect env op L L' := .updated dispatchId (by simp [hop]) h

theorem of_scan (hop : op.target = none)
    (h : L' = L ∨ ∃ d, Updates env op.cause d L L') : Effect env op L L' := by
  obtain rfl | ⟨d, hd⟩ := h
  · exact .unchanged rfl
  · exact .updated d (by simp [hop]) hd

theorem of_targeted (hop : op.target = some dispatchId)
    (h : L' = L ∨ Updates env op.cause dispatchId L L') : Effect env op L L' := by
  obtain rfl | hd := h
  · exact .unchanged rfl
  · exact of_updates hd hop

end Effect

theorem enqueueDispatch_effect {request : DispatchRequest}
    (h : L.enqueueDispatch env dispatchId request now = .ok L') :
    Effect env (.enqueue dispatchId request now) L L' := by
  simp only [enqueueDispatch, checks_ok] at h
  obtain ⟨-, -, -, -, -, -, -, h⟩ := h
  split at h
  · simp only [steps_ok] at h
    exact .unchanged (h.2 ▸ rfl)
  · rename_i hnew
    simp only [steps_ok] at h
    obtain ⟨-, rfl⟩ := h
    exact .enqueued dispatchId request _ _ rfl hnew rfl

theorem submitControllerActions_effect {q : SubmitRequest}
    (h : L.submitControllerActions env q now = .ok L') :
    Effect env (.controllerActions q now) L L' := by
  obtain rfl | ⟨d, kind, cycle, hid, hupdates⟩ := submitControllerActions_updates h
  · exact .unchanged rfl
  · have hcause : q.cause = controllerCause q.bundle.actions := by
      unfold SubmitRequest.cause
      rw [hid]
    exact .of_updates (show Updates env q.cause d L L' from hcause ▸ hupdates)
      (by simp [Op.target, hid, DecisionKey.dispatchId?])

theorem refreshProfile_frame (r : DispatchRows) (q : ProfileRefresh) (now : Time) :
    (r.refreshProfile q now).life = r.life ∧
      (r.refreshProfile q now).recovery.recoveryState = r.recovery.recoveryState := by
  unfold DispatchRows.refreshProfile
  split_ifs
  · exact ⟨rfl, rfl⟩
  · exact ⟨rfl, rfl⟩
  · exact ⟨rfl, rfl⟩

theorem authorizeProfileRefresh_effect {q : ProfileRefresh}
    (h : L.authorizeProfileRefresh q now = .ok L') : Effect env (.refreshProfile q now) L L' := by
  simp only [authorizeProfileRefresh, bind_eq_ok, pure_eq_ok] at h
  obtain ⟨-, -, -, -, rfl⟩ := h
  exact .scanned _ rfl (fun _ r => (refreshProfile_frame r q now).1)
    (fun _ r => (refreshProfile_frame r q now).2) rfl

theorem body_effect {op : Op} (h : L.body env op = .ok L') : Effect env op L L' := by
  cases op with
  | enqueue d request now => exact enqueueDispatch_effect h
  | acquireHarness nonce lease now =>
    simp only [body, acquireHarness, steps_ok] at h
    obtain ⟨-, -, -, rfl⟩ := h
    exact .unchanged rfl
  | renewHarness epoch nonce lease now =>
    simp only [body, renewHarness, checks_ok] at h
    exact .unchanged (withHarness_dispatches h.2)
  | requestHarnessShutdown epoch nonce => exact .unchanged (withHarness_dispatches h)
  | claim epoch nonce program cancelled now => exact .of_scan rfl (claimQueueDispatch_updates h)
  | setState d state epoch now => exact .of_updates (setQueueState_updates h) rfl
  | cancel d epoch now => exact .of_updates (cancelQueueDispatch_updates h) rfl
  | acknowledgeCancellationExit d actionId pid birth code now =>
    exact .of_updates (acknowledgeWorkerCancellationExit_updates h) rfl
  | recover d epoch preserve now => exact .of_updates (recoverQueueDispatch_updates h) rfl
  | issueCapability d request now => exact .of_updates (issueAttemptCapability_updates h) rfl
  | bindLiveness d epoch generation attempt process token lease now =>
    exact .of_updates (bindWorkerLiveness_updates h) rfl
  | bindThread d epoch generation attempt token thread now =>
    exact .of_updates (bindWorkerThread_updates h) rfl
  | renewLiveness d generation attempt token lease epoch now =>
    exact .of_updates (renewWorkerLiveness_updates h) rfl
  | adopt d epoch process nonce now => exact .of_updates (adoptLiveWorker_updates h) rfl
  | exit d process exit now => exact .of_updates (markWorkerExit_updates h) rfl
  | retryFailure d failure evidence now => exact .of_updates (recordRetryFailure_updates h) rfl
  | retryDispatch d strategy state reason now => exact .of_updates (retryDispatch_updates h) rfl
  | configureRecovery d config now => exact .of_updates (configureRecovery_updates h) rfl
  | inspection d inspection now => exact .of_updates (recordRecoveryInspection_updates h) rfl
  | beginInspection d epoch current now => exact .of_updates (beginRecoveryInspection_updates h) rfl
  | requireAttention d reason failure now =>
    exact .of_targeted rfl (markHumanAttentionRequired_updates h)
  | beginContinuation d epoch nonce program current now =>
    exact .of_updates (beginRecoveryContinuation_updates h) rfl
  | action d action activeTurn now => exact .of_targeted rfl (applyRecoveryAction_updates h)
  | submit d submission now => exact .of_updates (submitQueueResult_updates h) rfl
  | captureIntegrity d completed capture allowInsert now =>
    exact .of_updates (captureDispatchTerminalIntegrity_updates h) rfl
  | finalize d request now => exact .of_updates (finalizeQueueResult_updates h) rfl
  | commit d submission now => exact .of_updates (commitQueueResult_updates h) rfl
  | commitRetained d submission now => exact .of_updates (commitRetainedQueueResult_updates h) rfl
  | ingest d raw now => exact .of_updates (ingestRecoveredResult_updates h) rfl
  | authorizeSuccessor source successor now => exact .of_updates (authorizeSuccessor_updates h) rfl
  | claimCheckpoint epoch current now => exact .of_scan rfl (claimDueCheckpoint_updates h)
  | rearmCheckpoint d duration now => exact .of_updates (rearmCheckpoint_updates h) rfl
  | decision d kind cycle op now => exact .of_updates (onDispatchDecision_updates h) rfl
  | programDecision event capable op now => exact .unchanged (onProgramDecision_dispatches h)
  | controllerActions q now => exact submitControllerActions_effect h
  | openDecision d q now => exact .of_updates (createControllerDecision_updates h) rfl
  | replan d kind cycle revision reason now => exact .of_updates (authorizeReplan_updates h) rfl
  | reconcileInflightWakes now =>
    cases h
    exact .scanned (fun _ r => r.reconcileInflight now) rfl (fun _ _ => rfl) (fun _ _ => rfl) rfl
  | reconcileExhaustedWakes now =>
    cases h
    exact .scanned (fun _ r => r.reconcileExhausted now) rfl (fun _ _ => rfl) (fun _ _ => rfl) rfl
  | refreshProfile q now => exact authorizeProfileRefresh_effect h
  | programEvent event f deadline now => exact .unchanged (recordProgramEvent_dispatches h)
  | reconcileStaleDecisions facts isOpen now =>
    exact .unchanged (reconcileStaleDecisions_dispatches h)
  | claimProgramDecision event q f minted now =>
    exact .unchanged (claimProgramDecision_dispatches h)
  | programActions event q f effects now => exact .unchanged (submitProgramActions_dispatches h)
  | programEffect event q f now => exact .unchanged (recordProgramEffect_dispatches h)
  | armRefreshFence starts now => exact .unchanged (armHarnessRefreshFence_dispatches h)
  | notificationAttempt d task outcome now =>
    exact .of_updates (recordNotificationAttempt_updates h) rfl

/-! ### Runs -/

/-- The rows of every dispatch are good, and those of the programs valid. -/
structure Good (env : Env) (L : Ledger) : Prop where
  rows : ∀ d r, L.dispatches.get? d = some r → r.Good env L.dispatches.keys d
  programs : ∀ entry ∈ L.programDecisions.entries, entry.2.Valid env entry.1

theorem good_empty (env : Env) : Good env {} where
  rows := by
    intro d r h
    cases h
  programs := by
    intro entry h
    cases h

theorem Valid.rows (hL : L.Valid env) (hr : L.dispatches.get? dispatchId = some r) :
    r.Valid env L.dispatches.keys dispatchId := hL.1 (dispatchId, r) (Table.get?_eq_some.1 hr)

theorem Good.of_valid (hvalid : L.Valid env)
    (hsettled : ∀ d r, L.dispatches.get? d = some r → r.Settled) : L.Good env where
  rows := fun d r h => ⟨hvalid.rows h, hsettled d r h⟩
  programs := hvalid.2

theorem Good.to_valid (hL : L.Good env) : L.Valid env :=
  ⟨fun entry hmem => (hL.rows entry.1 entry.2 (Table.get?_eq_some.2 hmem)).valid, hL.programs⟩

theorem valid_set (hL : L.Valid env) (hr : r.Valid env L.dispatches.keys dispatchId) :
    Valid env { L with dispatches := L.dispatches.set dispatchId r } := by
  refine ⟨fun entry hmem => ?_, hL.2⟩
  rw [Table.keys_set]
  exact Table.forall_set (P := fun d s => s.Valid env L.dispatches.keys d)
    (fun d s _ hs => hL.rows hs) hr entry.1 entry.2 (Table.get?_eq_some.2 hmem)

theorem perform_ok {op : Op} :
    L.perform env op = .ok L' ↔ L.Valid env ∧ L.body env op = .ok L' ∧ L'.Valid env := by
  simp only [perform, transaction, steps_ok, id]
  constructor
  · rintro ⟨hbefore, L₁, hbody, hafter, rfl⟩
    exact ⟨hbefore, hbody, hafter⟩
  · rintro ⟨hbefore, hbody, hafter⟩
    exact ⟨hbefore, L', hbody, hafter, rfl⟩

/-- A call either is refused and changes nothing, or its body ran between two validations. -/
theorem next_cases (env : Env) (L : Ledger) (op : Op) :
    L.next env op = L ∨
      L.Valid env ∧ L.body env op = .ok (L.next env op) ∧ (L.next env op).Valid env := by
  unfold next
  cases h : L.perform env op with
  | error e => exact .inl rfl
  | ok L' => exact .inr (perform_ok.1 h)

theorem next_valid (hL : L.Valid env) (op : Op) : (L.next env op).Valid env := by
  obtain hsame | ⟨-, -, hvalid⟩ := next_cases env L op
  · rw [hsame]
    exact hL
  · exact hvalid

/-- A call that changed the ledger was accepted. -/
theorem perform_of_next_ne {op : Op} (h : L.next env op ≠ L) :
    L.perform env op = .ok (L.next env op) := by
  obtain hsame | haccepted := next_cases env L op
  · exact absurd hsame h
  · exact perform_ok.2 haccepted

theorem settled_rows (q : DispatchRequest) (sequence : ℕ) : (q.rows sequence now).Settled :=
  settled_of_early rfl

theorem next_good (hL : L.Good env) (op : Op) : (L.next env op).Good env := by
  obtain hsame | ⟨-, hbody, hvalid⟩ := next_cases env L op
  · rw [hsame]
    exact hL
  refine .of_valid hvalid ?_
  generalize L.next env op = L' at hbody hvalid
  cases body_effect hbody with
  | unchanged h =>
    rw [h]
    exact fun d r hr => (hL.rows d r hr).settled
  | enqueued d q sequence now _ hnew h =>
    rw [h]
    intro d' r hr
    by_cases hd : d' = d
    · subst hd
      rw [Table.get?_insert_self hnew] at hr
      exact Option.some.inj hr ▸ settled_rows q sequence
    · rw [Table.get?_insert_ne _ hd] at hr
      exact (hL.rows d' r hr).settled
  | updated d _ h =>
    obtain ⟨r, r', hr, h, hrefines⟩ := h
    have hkeys : L'.dispatches.keys = L.dispatches.keys := by rw [h, Table.keys_set]
    have hr' : L'.dispatches.get? d = some r' := by rw [h, Table.get?_set_self hr]
    have hvalid' : r'.Valid env L.dispatches.keys d := hkeys ▸ hvalid.rows hr'
    rw [h]
    exact Table.forall_set (P := fun _ s => s.Settled) (fun d' s _ hs => (hL.rows d' s hs).settled)
      (hrefines (hL.rows d r hr) hvalid').settled
  | scanned f _ hlife hkind h =>
    rw [h]
    intro d r hr
    obtain ⟨r₀, hr₀, rfl⟩ := Option.map_eq_some_iff.1 (Table.get?_map _ f d ▸ hr)
    exact (hL.rows d r₀ hr₀).settled.congr (hkind d r₀) (congrArg Life.state (hlife d r₀))

/-- What a call does to the rows of one dispatch: a step of their life, and nothing at all when it
names another dispatch. -/
theorem next_step (hL : L.Good env) (op : Op) (hr : L.dispatches.get? dispatchId = some r) :
    ∃ r', (L.next env op).dispatches.get? dispatchId = some r' ∧
      Life.Step op.cause r.life r'.life ∧ (op.target.all (· = dispatchId) ∨ r' = r) := by
  obtain hsame | ⟨-, hbody, hvalid⟩ := next_cases env L op
  · exact ⟨r, by rw [hsame, hr], .stay _ _, .inr rfl⟩
  generalize L.next env op = L' at hbody hvalid
  cases body_effect hbody with
  | unchanged h => exact ⟨r, h ▸ hr, .stay _ _, .inr rfl⟩
  | enqueued d q sequence now _ hnew h =>
    have hd : dispatchId ≠ d := by
      rintro rfl
      exact Option.some_ne_none r (hr.symm.trans hnew)
    exact ⟨r, by rw [h, Table.get?_insert_ne _ hd, hr], .stay _ _, .inr rfl⟩
  | updated d hop h =>
    obtain ⟨r₀, r', hr₀, h, hrefines⟩ := h
    by_cases hd : dispatchId = d
    · subst hd
      obtain rfl : r₀ = r := Option.some.inj (hr₀.symm.trans hr)
      have hr' : L'.dispatches.get? dispatchId = some r' := by rw [h, Table.get?_set_self hr]
      have hkeys : L'.dispatches.keys = L.dispatches.keys := by rw [h, Table.keys_set]
      have hvalid' : r'.Valid env L.dispatches.keys dispatchId := hkeys ▸ hvalid.rows hr'
      exact ⟨r', hr', (hrefines (hL.rows dispatchId r₀ hr₀) hvalid').step, .inl hop⟩
    · exact ⟨r, by rw [h, Table.get?_set_ne _ hd, hr], .stay _ _, .inr rfl⟩
  | scanned f hop hlife _ h =>
    refine ⟨f dispatchId r, by rw [h, Table.get?_map, hr]; rfl, ?_, .inl (by simp [hop])⟩
    rw [hlife]
    exact .stay _ _

/-- A dispatch that a call creates starts queued, with its first attempt and nothing spent. -/
def Life.fresh : Life where
  state := .queued
  attempt := 1
  result := none
  strategy := .none
  used := fun _ => 0
  granted := 0
  waits := []

theorem rows_life (q : DispatchRequest) (sequence : ℕ) :
    (q.rows sequence now).life = Life.fresh := by
  refine congrArg (fun used => Life.mk _ _ _ _ used _ _) (funext fun k => ?_)
  cases k <;> rfl

theorem next_new (op : Op) (hnone : L.dispatches.get? dispatchId = none)
    (hr : (L.next env op).dispatches.get? dispatchId = some r) :
    ∃ q sequence now, r = DispatchRequest.rows q sequence now := by
  obtain hsame | ⟨-, hbody, -⟩ := next_cases env L op
  · rw [hsame, hnone] at hr
    cases hr
  generalize L.next env op = L' at hbody hr
  cases body_effect hbody with
  | unchanged h =>
    rw [h, hnone] at hr
    cases hr
  | enqueued d q sequence now _ hnew h =>
    rw [h] at hr
    by_cases hd : dispatchId = d
    · subst hd
      rw [Table.get?_insert_self hnew] at hr
      exact ⟨q, sequence, now, (Option.some.inj hr).symm⟩
    · rw [Table.get?_insert_ne _ hd, hnone] at hr
      cases hr
  | updated d _ h =>
    obtain ⟨r₀, r', hr₀, h, -⟩ := h
    have hd : dispatchId ≠ d := by
      rintro rfl
      exact Option.some_ne_none r₀ (hr₀.symm.trans hnone)
    rw [h, Table.get?_set_ne _ hd, hnone] at hr
    cases hr
  | scanned f _ _ _ h =>
    rw [h, Table.get?_map, hnone] at hr
    cases hr

theorem run_good (env : Env) (ops : List Op) : (Machine.run (next env) {} ops).Good env :=
  Machine.invariant (I := Good env) (fun _ op h => next_good h op) (good_empty env) ops

theorem Reachable.good (h : L.Reachable env) : L.Good env := by
  obtain ⟨ops, rfl⟩ := h
  exact run_good env ops

/-- What the rows of a new dispatch have and calls keep holds of every dispatch. -/
theorem Reachable.rows {I : DispatchRows → Prop} (h : L.Reachable env)
    (hnew : ∀ q sequence now, I (DispatchRequest.rows q sequence now))
    (hstep : ∀ (L : Ledger) op r r', L.Good env → (L.next env op).Good env →
      L.dispatches.get? dispatchId = some r →
      (L.next env op).dispatches.get? dispatchId = some r' → I r → I r')
    (hr : L.dispatches.get? dispatchId = some r) : I r := by
  obtain ⟨ops, rfl⟩ := h
  refine (@Machine.invariant _ _ (next env)
    (fun L => L.Good env ∧ ∀ r, L.dispatches.get? dispatchId = some r → I r) ?_ _
    ⟨good_empty env, fun r hr => nomatch hr⟩ ops).2 r hr
  rintro L op ⟨hL, hI⟩
  refine ⟨next_good hL op, fun r' hr' => ?_⟩
  cases hr : L.dispatches.get? dispatchId with
  | none =>
    obtain ⟨q, sequence, now, rfl⟩ := next_new op hr hr'
    exact hnew q sequence now
  | some r => exact hstep L op r r' hL (next_good hL op) hr hr' (hI r hr)

end CodexFlow.Ledger
