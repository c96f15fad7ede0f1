import CodexFlow.Ledger.Work

/-!
# The identity of a dispatch

The facts that a dispatch is enqueued with, apart from its budgets. Only the configuration of
recovery, a compatibility rebind and a profile refresh rewrite one of them.
-/

namespace CodexFlow.Ledger

open Checked DispatchRows

variable {env : Env} {L L' : Ledger} {dispatchId : DispatchId} {r r' s : DispatchRows} {op : Op}
  {now : Time}

/-! ### The identity of a dispatch -/

/-- The compared columns of `dispatch_queue`. -/
structure QueueFacts where
  runId : String
  milestoneId : String
  role : String
  generation : ℕ
  backend : Backend
  workspacePath : String
  resultContractSha256 : String
deriving DecidableEq

/-- The compared columns of `queue_bindings`. -/
structure BindingFacts where
  sourceThreadId : Option String
  nativeProfileSha256 : Option String
  nativeCompatibilitySha256 : Option String
deriving DecidableEq

/-- The compared columns of `recovery_state` that are no budgets. -/
structure RecoveryFacts where
  providerEnvKey : Option String
  profileSha256 : Option String
deriving DecidableEq

structure Identity where
  queue : QueueFacts
  binding : BindingFacts
  recovery : RecoveryFacts
deriving DecidableEq

def DispatchQueue.facts (q : DispatchQueue) : QueueFacts where
  runId := q.runId
  milestoneId := q.milestoneId
  role := q.role
  generation := q.generation
  backend := q.backend
  workspacePath := q.workspacePath
  resultContractSha256 := q.resultContractSha256

def QueueBinding.facts (b : QueueBinding) : BindingFacts where
  sourceThreadId := b.sourceThreadId
  nativeProfileSha256 := b.nativeProfileSha256
  nativeCompatibilitySha256 := b.nativeCompatibilitySha256

def RecoveryState.facts (s : RecoveryState) : RecoveryFacts where
  providerEnvKey := s.providerEnvKey
  profileSha256 := s.profileSha256

def DispatchRows.identity (r : DispatchRows) : Identity where
  queue := r.queue.facts
  binding := r.binding.facts
  recovery := r.recovery.facts

def Identifies (L L' : Ledger) : Prop :=
  ∀ d r, L.dispatches.get? d = some r →
    ∃ r', L'.dispatches.get? d = some r' ∧ r'.identity = r.identity

namespace Identifies

theorem of_dispatches (h : L'.dispatches = L.dispatches) : Identifies L L' :=
  fun _ r hr => ⟨r, h ▸ hr, rfl⟩

theorem refl (L : Ledger) : Identifies L L := of_dispatches rfl

theorem of_set (hr : L.dispatches.get? dispatchId = some r)
    (h : L' = { L with dispatches := L.dispatches.set dispatchId r' })
    (hidentity : r'.identity = r.identity) : Identifies L L' := by
  rw [h]
  intro d s hs
  by_cases hd : d = dispatchId
  · subst hd
    obtain rfl := Option.some.inj (hr.symm.trans hs)
    exact ⟨r', Table.get?_set_self hr r', hidentity⟩
  · exact ⟨s, (Table.get?_set_ne _ hd _).trans hs, rfl⟩

theorem of_map {f : DispatchId → DispatchRows → DispatchRows}
    (h : L' = { L with dispatches := L.dispatches.map f })
    (hidentity : ∀ d r, (f d r).identity = r.identity) : Identifies L L' := by
  rw [h]
  exact fun d r hr => ⟨f d r, by simp [Table.get?_map, hr], hidentity d r⟩

theorem of_onDispatch {missing : LedgerError} {f : DispatchRows → Checked DispatchRows}
    (h : L.onDispatch dispatchId missing f = .ok L')
    (hf : ∀ r r', f r = .ok r' → r'.identity = r.identity) : Identifies L L' := by
  obtain ⟨r, r', hr, hbody, rfl⟩ := onDispatch_ok.1 h
  exact of_set hr rfl (hf r r' hbody)

end Identifies

/-! ### What keeps the identity -/

@[simp] theorem disarm_facts (b : QueueBinding) : (b.disarm now).facts = b.facts := by
  unfold QueueBinding.disarm
  split_ifs <;> rfl

@[simp] theorem binding_ite_facts {c : Prop} [Decidable c] (b : QueueBinding) :
    (if c then b.disarm now else b).facts = b.facts := by
  split_ifs
  · exact disarm_facts b
  · rfl

@[simp] theorem queue_ite_facts {c : Prop} [Decidable c] (q : DispatchQueue) (state : QueueState) :
    (if c then q.moveTo state now else q).facts = q.facts := by
  split_ifs <;> rfl

@[simp] theorem prepareFor_facts (s : RecoveryState) (failure : RetryFailureClass) (budget : ℕ) :
    (s.prepareFor failure budget now).facts = s.facts := by
  unfold RecoveryState.prepareFor
  split
  · split_ifs <;> rfl
  · rfl
  · rfl

theorem identity_eq (hqueue : r'.queue.facts = r.queue.facts)
    (hbinding : r'.binding.facts = r.binding.facts)
    (hrecovery : r'.recovery.facts = r.recovery.facts) : r'.identity = r.identity := by
  unfold DispatchRows.identity
  rw [hqueue, hbinding, hrecovery]

theorem cancelQueueRow_identity {epoch : Option ℕ} {retain : Bool}
    (h : L.cancelQueueRow epoch retain now r = .ok r') : r'.identity = r.identity := by
  obtain ⟨-, rfl⟩ | ⟨-, -, rfl⟩ := cancelQueueRow_spec h <;> rfl

theorem recordCharge_identity {failure : RetryFailureClass} {evidence : RetryEvidence}
    {charge : Charge} :
    (r.recordCharge env dispatchId failure evidence charge now).identity = r.identity := by
  have hprepared := @prepareFor_facts now r.recovery failure r.policy.providerTransient.budget
  unfold recordCharge
  dsimp only
  split
  · split <;> exact identity_eq rfl rfl hprepared
  · split <;> exact identity_eq rfl rfl hprepared

theorem applyExitRetryPolicy_identity {failure : RetryFailureClass} {context : ExitContext} :
    (r.applyExitRetryPolicy env dispatchId failure context now).identity = r.identity := by
  have hprepared := @prepareFor_facts now r.recovery failure r.policy.providerTransient.budget
  unfold applyExitRetryPolicy
  split
  · unfold spendAtExit
    dsimp only
    split
    · exact identity_eq rfl rfl hprepared
    · split <;> exact identity_eq rfl rfl hprepared
  · split_ifs
    · rfl
    · refine identity_eq ?_ rfl rfl
      unfold closeAtExit
      dsimp only
      split_ifs <;> rfl

theorem workerExit_identity {exit : WorkerExit} :
    (r.workerExit env dispatchId exit now).identity = r.identity := by
  unfold workerExit
  split
  · rfl
  · rw [applyExitRetryPolicy_identity]
    exact identity_eq (queue_ite_facts ..) rfl rfl

theorem recordInspection_identity {inspection : Inspection} :
    (r.recordInspection env inspection now).identity = r.identity :=
  identity_eq (queue_ite_facts ..) (binding_ite_facts ..) rfl

theorem continueOrClose_identity {claim : Claim} :
    (r.continueOrClose claim now).identity = r.identity := by
  unfold continueOrClose
  split_ifs <;> rfl

theorem insertWake_identity {w : NewWake} {current : Time}
    (h : r.insertWake w current now = .ok r') : r'.identity = r.identity := by
  obtain ⟨decisions, rfl⟩ := insertWake_eq h
  rfl

theorem submit_identity {q : Submission} {p : ParsedResult} (h : r.submit env q p now = .ok r') :
    r'.identity = r.identity := by
  obtain ⟨cap, -, ⟨-, -, rfl⟩ | ⟨-, -, -, rfl⟩ | ⟨-, -, -, rfl⟩⟩ := submit_cases h <;> rfl

theorem finalize_identity {request : FinalizeRequest} (h : r.finalize request now = .ok r') :
    r'.identity = r.identity := by
  obtain ⟨-, rfl⟩ | ⟨-, terminal, -, decisions, wakes, rfl⟩ := finalize_eq h
  · rfl
  · rfl

theorem commitSubmitted_identity {digest : String} (h : r.commitSubmitted digest now = .ok r') :
    r'.identity = r.identity := by
  simp only [commitSubmitted, bind_eq_ok] at h
  obtain ⟨bound, hbound, hfinal⟩ := h
  obtain ⟨i, rfl⟩ := bindIntegrity_eq hbound
  have hended := finalize_identity hfinal
  exact hended

theorem controllerEffect_identity {action : ControllerAction}
    (h : L.controllerEffect now r action = .ok r') : r'.identity = r.identity := by
  cases action with
  | acknowledgeOnly => cases h; rfl
  | requireHumanAttention => cases h; rfl
  | rearmCheckpoint duration => cases h; rfl
  | changeRetryBudget control change =>
    dsimp only [controllerEffect] at h
    split at h
    · cases h
    · cases h
      rfl
  | retryDispatch control =>
    simp only [controllerEffect, steps_ok] at h
    obtain ⟨-, rfl⟩ := h
    rfl
  | cancelDispatch control =>
    simp only [controllerEffect, bind_eq_ok, pure_eq_ok] at h
    obtain ⟨cancelled, hcancelled, rfl⟩ := h
    exact (cancelQueueRow_identity hcancelled : cancelled.identity = r.identity)

theorem controllerEffects_identity {actions : List ControllerAction}
    (h : L.controllerEffects dispatchId now actions r = .ok r') : r'.identity = r.identity := by
  induction actions generalizing r with
  | nil =>
    cases h
    rfl
  | cons action actions ih =>
    simp only [controllerEffects, checks_ok] at h
    obtain ⟨-, r₁, hfirst, hrest⟩ := h
    exact (ih hrest).trans (controllerEffect_identity hfirst)

theorem Commits.identity {q : SubmitRequest} {d : ControllerDecision} {kind : WakeKind} {cycle : ℕ}
    (h : Commits env L q now d kind cycle dispatchId r r') : r'.identity = r.identity := by
  obtain ⟨-, -, -, -, -, -, hbody⟩ := h
  simp only [commitBundle, checks_ok] at hbody
  obtain ⟨-, r₁, happly, hbody⟩ := hbody
  split at hbody
  · cases hbody
  simp only [steps_ok] at hbody
  obtain ⟨-, rfl⟩ := hbody
  simp only [applyControllerActions, checks_ok] at happly
  obtain ⟨-, -, -, -, heffects⟩ := happly
  exact (controllerEffects_identity heffects : r₁.identity = r.identity)

theorem ingest_identity {raw : String} (h : r.ingest env raw now = .ok r') :
    r'.identity = r.identity := by
  simp only [DispatchRows.ingest, checks_ok] at h
  obtain ⟨p, -, -, h⟩ := h
  split at h
  · simp only [checks_ok] at h
    obtain ⟨i, rfl⟩ := bindIntegrity_eq h.2
    rfl
  · simp only [checks_ok] at h
    obtain ⟨-, bound, hbound, hfinal⟩ := h
    obtain ⟨i, rfl⟩ := bindIntegrity_eq hbound
    have hended := finalize_identity hfinal
    exact hended

theorem captureIntegrity_identity {completed allowInsert : Bool} {capture : Option TerminalCapture}
    (h : r.captureIntegrity completed capture allowInsert now = .ok r') :
    r'.identity = r.identity := by
  unfold captureIntegrity at h
  split at h
  · simp only [steps_ok] at h
    exact h.2 ▸ rfl
  split at h
  · cases h
  simp only [checks_ok] at h
  obtain ⟨-, h⟩ := h
  split at h
  · simp only [steps_ok] at h
    exact h.2 ▸ rfl
  · simp only [steps_ok] at h
    obtain ⟨-, -, -, rfl⟩ := h
    rfl

theorem changeBudget_identity {change : RetryBudgetChange}
    (h : r.changeBudget change now = .ok r') : r'.identity = r.identity := by
  unfold changeBudget at h
  split at h
  · cases h
  split at h
  · cases h
    rfl
  · simp only [checks_ok] at h
    obtain ⟨-, -, -, -, -, h⟩ := h
    split_ifs at h
    cases h
    rfl

theorem cancelAction_identity (h : L.cancelAction now r = .ok r') : r'.identity = r.identity := by
  unfold cancelAction at h
  split at h
  · cases h
    rfl
  · simp only [checks_ok] at h
    exact cancelQueueRow_identity h.2

/-! ### Calls that keep the identity -/

def Op.rewritesIdentity : Op → Bool
  | .configureRecovery .. => true
  | .action _ a _ _ => a.actionKind = .compatibilityRebind
  | .refreshProfile .. => true
  | _ => false

theorem applyRecoveryAction_identifies {action : RecoveryAction} {activeTurn : Bool}
    (hkind : action.actionKind ≠ .compatibilityRebind)
    (h : L.applyRecoveryAction env dispatchId action activeTurn now = .ok L') :
    Identifies L L' := by
  simp only [applyRecoveryAction, checks_ok] at h
  obtain ⟨-, -, -, -, -, -, h⟩ := h
  split at h
  · simp only [steps_ok] at h
    exact h.2.2 ▸ .refl L
  · refine .of_onDispatch h fun r r' hbody => ?_
    simp only [steps_ok] at hbody
    obtain ⟨-, -, -, applied, happlied, rfl⟩ := hbody
    refine (?_ : applied.identity = r.identity)
    unfold actionEffect at happlied
    split at happlied
    · split at happlied
      · exact changeBudget_identity happlied
      · cases happlied
    · simp only [steps_ok] at happlied
      obtain ⟨-, rfl⟩ := happlied
      exact identity_eq rfl (disarm_facts _) rfl
    · rename_i hrebind
      exact absurd hrebind hkind
    · exact cancelAction_identity happlied

theorem claimQueueDispatch_identifies {epoch : ℕ} {nonce : String}
    {program executionCancelled : DispatchId → Bool}
    (h : L.claimQueueDispatch epoch nonce program executionCancelled now = .ok L') :
    Identifies L L' := by
  simp only [claimQueueDispatch, checks_ok] at h
  obtain ⟨-, -, -, h⟩ := h
  split at h
  · exact pure_eq_ok.1 h ▸ .refl L
  · simp only [checks_ok] at h
    refine .of_onDispatch h.2 fun r r' hbody => ?_
    split_ifs at hbody
    · exact cancelQueueRow_identity hbody
    · cases hbody
      rfl

theorem setQueueState_identifies {state : QueueState} {epoch : Option ℕ}
    (h : L.setQueueState dispatchId state epoch now = .ok L') : Identifies L L' := by
  unfold setQueueState at h
  split_ifs at h
  · exact .of_onDispatch h fun r r' hbody => cancelQueueRow_identity hbody
  · refine .of_onDispatch h fun r r' hbody => ?_
    simp only [steps_ok] at hbody
    obtain ⟨-, -, -, rfl⟩ := hbody
    rfl

theorem acknowledgeWorkerCancellationExit_identifies {actionId birth : String} {pid : ℕ}
    {exitCode : Option ℤ}
    (h : L.acknowledgeWorkerCancellationExit env dispatchId actionId pid birth exitCode now =
      .ok L') : Identifies L L' := by
  simp only [acknowledgeWorkerCancellationExit, checks_ok] at h
  obtain ⟨-, -, h⟩ := h
  split at h
  · cases h
  refine .of_onDispatch h fun r r' hbody => ?_
  simp only [checks_ok] at hbody
  obtain ⟨-, hbody⟩ := hbody
  split_ifs at hbody
  · cases hbody
    rfl
  · simp only [checks_ok] at hbody
    refine (cancelQueueRow_identity hbody.2).trans ?_
    unfold recordCancelledExit
    split_ifs <;> rfl

theorem recoverQueueDispatch_identifies {epoch : ℕ} {preserve : Bool}
    (h : L.recoverQueueDispatch dispatchId epoch preserve now = .ok L') : Identifies L L' := by
  simp only [recoverQueueDispatch, checks_ok] at h
  refine .of_onDispatch h.2.2 fun r r' hbody => ?_
  split at hbody
  · cases hbody
    rfl
  · simp only [steps_ok] at hbody
    obtain ⟨-, rfl⟩ := hbody
    rfl

theorem issueAttemptCapability_identifies {request : CapabilityRequest}
    (h : L.issueAttemptCapability dispatchId request now = .ok L') : Identifies L L' := by
  simp only [issueAttemptCapability, checks_ok] at h
  refine .of_onDispatch h.2.2 fun r r' hbody => ?_
  simp only [checks_ok] at hbody
  obtain ⟨-, hbody⟩ := hbody
  split at hbody
  · simp only [steps_ok] at hbody
    obtain ⟨-, rfl⟩ := hbody
    split_ifs <;> rfl
  · cases hbody
    rfl

theorem bindWorkerLiveness_identifies {epoch generation attempt lease : ℕ}
    {process : WorkerProcess} {token : String}
    (h : L.bindWorkerLiveness dispatchId epoch generation attempt process token lease now =
      .ok L') : Identifies L L' := by
  simp only [bindWorkerLiveness, checks_ok] at h
  obtain ⟨-, -, -, -, -, -, h⟩ := h
  refine .of_onDispatch h fun r r' hbody => ?_
  simp only [steps_ok] at hbody
  obtain ⟨-, -, -, -, rfl⟩ := hbody
  exact identity_eq (queue_ite_facts ..) rfl rfl

theorem bindWorkerThread_identifies {epoch generation attempt : ℕ} {token threadId : String}
    (h : L.bindWorkerThread env dispatchId epoch generation attempt token threadId now = .ok L') :
    Identifies L L' := by
  simp only [bindWorkerThread, checks_ok] at h
  obtain ⟨-, -, -, -, -, -, h⟩ := h
  refine .of_onDispatch h fun r r' hbody => ?_
  simp only [steps_ok] at hbody
  obtain ⟨-, -, -, rfl⟩ := hbody
  split_ifs <;> rfl

theorem renewWorkerLiveness_identifies {generation attempt lease : ℕ} {token : String}
    {epoch : Option ℕ}
    (h : L.renewWorkerLiveness env dispatchId generation attempt token lease epoch now = .ok L') :
    Identifies L L' := by
  simp only [renewWorkerLiveness, checks_ok] at h
  obtain ⟨-, -, -, -, h⟩ := h
  refine .of_onDispatch h fun r r' hbody => ?_
  split at hbody
  · cases hbody
  · simp only [steps_ok] at hbody
    obtain ⟨-, -, -, rfl⟩ := hbody
    rfl

theorem adoptLiveWorker_identifies {newEpoch : ℕ} {process : WorkerProcess} {nonce : String}
    (h : L.adoptLiveWorker dispatchId newEpoch process nonce now = .ok L') : Identifies L L' := by
  simp only [adoptLiveWorker, checks_ok] at h
  obtain ⟨-, -, -, -, h⟩ := h
  refine .of_onDispatch h fun r r' hbody => ?_
  split at hbody
  · cases hbody
  · simp only [steps_ok] at hbody
    obtain ⟨-, -, rfl⟩ := hbody
    rfl

theorem markWorkerExit_identifies {process : WorkerProcess} {exit : WorkerExit}
    (h : L.markWorkerExit env dispatchId process exit now = .ok L') : Identifies L L' := by
  simp only [markWorkerExit, checks_ok] at h
  refine .of_onDispatch h.2 fun r r' hbody => ?_
  split at hbody
  · cases hbody
  · simp only [steps_ok] at hbody
    obtain ⟨-, rfl⟩ := hbody
    split_ifs
    · rfl
    · exact workerExit_identity

theorem recordRetryFailure_identifies {failure : RetryFailureClass} {evidence : RetryEvidence}
    (h : L.recordRetryFailure env dispatchId failure evidence now = .ok L') : Identifies L L' := by
  simp only [recordRetryFailure, checks_ok] at h
  refine .of_onDispatch h.2.2 fun r r' hbody => ?_
  simp only [checks_ok] at hbody
  obtain ⟨-, hbody⟩ := hbody
  split at hbody
  · cases hbody
    rfl
  split at hbody
  · cases hbody
    exact recordCharge_identity
  · simp only [steps_ok] at hbody
    obtain ⟨-, rfl⟩ := hbody
    rfl

theorem recordRecoveryInspection_identifies {inspection : Inspection}
    (h : L.recordRecoveryInspection env dispatchId inspection now = .ok L') : Identifies L L' := by
  simp only [recordRecoveryInspection, checks_ok] at h
  obtain ⟨-, -, -, -, h⟩ := h
  refine .of_onDispatch h fun r r' hbody => ?_
  split at hbody
  · cases hbody
    rfl
  · simp only [steps_ok] at hbody
    obtain ⟨-, rfl⟩ := hbody
    exact recordInspection_identity

theorem markHumanAttentionRequired_identifies {reason : String} {failure : Option RetryFailureClass}
    (h : L.markHumanAttentionRequired env dispatchId reason failure now = .ok L') :
    Identifies L L' := by
  simp only [markHumanAttentionRequired, checks_ok] at h
  obtain ⟨-, h⟩ := h
  split at h
  · cases h
  rename_i r hget
  split at h
  · exact pure_eq_ok.1 h ▸ .refl L
  split at h
  · simp only [steps_ok] at h
    obtain ⟨-, rfl⟩ := h
    exact .of_set hget rfl (identity_eq rfl (disarm_facts _) rfl)
  · exact recordRecoveryInspection_identifies h

theorem claimDueCheckpoint_identifies {epoch : ℕ} {current : Time}
    (h : (L.claimDueCheckpoint epoch current now).map Prod.fst = .ok L') : Identifies L L' := by
  obtain ⟨result, hclaim, rfl⟩ := map_eq_ok.1 h
  simp only [claimDueCheckpoint, bind_eq_ok] at hclaim
  obtain ⟨-, -, hclaim⟩ := hclaim
  split at hclaim
  · exact pure_eq_ok.1 hclaim ▸ .refl L
  · rename_i d r hdue
    simp only [bind_eq_ok, pure_eq_ok] at hclaim
    obtain ⟨r', hserve, rfl⟩ := hclaim
    obtain ⟨decisions, rfl⟩ := serveCheckpoint_eq hserve
    exact .of_set (firstDue_spec hdue).1 rfl (identity_eq rfl (disarm_facts _) rfl)

theorem enqueueDispatch_identifies {request : DispatchRequest}
    (h : L.enqueueDispatch env dispatchId request now = .ok L') : Identifies L L' := by
  simp only [enqueueDispatch, checks_ok] at h
  obtain ⟨-, -, -, -, -, -, -, h⟩ := h
  split at h
  · simp only [steps_ok] at h
    exact h.2 ▸ .refl L
  · rename_i hnew
    simp only [steps_ok] at h
    obtain ⟨-, rfl⟩ := h
    intro d r hr
    have hd : d ≠ dispatchId := by
      rintro rfl
      exact Option.some_ne_none r (hr.symm.trans hnew)
    exact ⟨r, by rw [Table.get?_insert_ne _ hd, hr], rfl⟩

theorem body_identifies (hop : op.rewritesIdentity = false) (h : L.body env op = .ok L') :
    Identifies L L' := by
  cases op with
  | enqueue d request now => exact enqueueDispatch_identifies h
  | acquireHarness nonce lease now =>
    simp only [body, acquireHarness, steps_ok] at h
    obtain ⟨-, -, -, rfl⟩ := h
    exact .refl _
  | renewHarness epoch nonce lease now =>
    simp only [body, renewHarness, checks_ok] at h
    exact .of_dispatches (withHarness_dispatches h.2)
  | requestHarnessShutdown epoch nonce => exact .of_dispatches (withHarness_dispatches h)
  | claim epoch nonce program cancelled now => exact claimQueueDispatch_identifies h
  | setState d state epoch now => exact setQueueState_identifies h
  | cancel d epoch now => exact .of_onDispatch h fun r r' hbody => cancelQueueRow_identity hbody
  | acknowledgeCancellationExit d actionId pid birth code now =>
    exact acknowledgeWorkerCancellationExit_identifies h
  | recover d epoch preserve now => exact recoverQueueDispatch_identifies h
  | issueCapability d request now => exact issueAttemptCapability_identifies h
  | bindLiveness d epoch generation attempt process token lease now =>
    exact bindWorkerLiveness_identifies h
  | bindThread d epoch generation attempt token thread now => exact bindWorkerThread_identifies h
  | renewLiveness d generation attempt token lease epoch now =>
    exact renewWorkerLiveness_identifies h
  | adopt d epoch process nonce now => exact adoptLiveWorker_identifies h
  | exit d process exit now => exact markWorkerExit_identifies h
  | retryFailure d failure evidence now => exact recordRetryFailure_identifies h
  | retryDispatch d strategy state reason now =>
    simp only [body, retryDispatch, checks_ok] at h
    refine .of_onDispatch h.2 fun r r' hbody => ?_
    simp only [steps_ok] at hbody
    obtain ⟨-, rfl⟩ := hbody
    rfl
  | configureRecovery d config now => cases hop
  | inspection d inspection now => exact recordRecoveryInspection_identifies h
  | beginInspection d epoch current now =>
    simp only [body, beginRecoveryInspection, bind_eq_ok] at h
    obtain ⟨-, -, h⟩ := h
    refine .of_onDispatch h fun r r' hbody => ?_
    simp only [steps_ok] at hbody
    obtain ⟨-, -, -, -, rfl⟩ := hbody
    rfl
  | requireAttention d reason failure now => exact markHumanAttentionRequired_identifies h
  | beginContinuation d epoch nonce program current now =>
    simp only [body, beginRecoveryContinuation, checks_ok] at h
    obtain ⟨-, -, -, h⟩ := h
    refine .of_onDispatch h fun r r' hbody => ?_
    simp only [steps_ok] at hbody
    obtain ⟨-, -, -, -, -, rfl⟩ := hbody
    exact continueOrClose_identity
  | action d action activeTurn now =>
    exact applyRecoveryAction_identifies
      (fun hkind => by simp [Op.rewritesIdentity, hkind] at hop) h
  | submit d submission now =>
    refine .of_onDispatch h fun r r' hbody => ?_
    simp only [bind_eq_ok] at hbody
    obtain ⟨p, -, hsubmit⟩ := hbody
    exact submit_identity hsubmit
  | captureIntegrity d completed capture allowInsert now =>
    exact .of_onDispatch h fun r r' hbody => captureIntegrity_identity hbody
  | finalize d request now => exact .of_onDispatch h fun r r' hbody => finalize_identity hbody
  | commit d submission now =>
    refine .of_onDispatch h fun r r' hbody => ?_
    simp only [DispatchRows.commit, checks_ok] at hbody
    obtain ⟨p, -, -, submitted, hsubmit, hcommit⟩ := hbody
    exact (commitSubmitted_identity hcommit).trans (submit_identity hsubmit)
  | commitRetained d submission now =>
    refine .of_onDispatch h fun r r' hbody => ?_
    simp only [commitRetained, checks_ok] at hbody
    obtain ⟨p, -, -, -, -, submitted, hsubmit, hcommit⟩ := hbody
    have hsubmitted := submit_identity hsubmit
    exact (commitSubmitted_identity hcommit).trans hsubmitted
  | ingest d raw now => exact .of_onDispatch h fun r r' hbody => ingest_identity hbody
  | authorizeSuccessor source successor now =>
    simp only [body, authorizeSuccessor, checks_ok] at h
    obtain ⟨-, h⟩ := h
    split at h
    · cases h
    refine .of_onDispatch h fun r r' hbody => ?_
    simp only [steps_ok] at hbody
    obtain ⟨-, -, rfl⟩ := hbody
    split_ifs <;> rfl
  | claimCheckpoint epoch current now => exact claimDueCheckpoint_identifies h
  | rearmCheckpoint d duration now =>
    simp only [body, rearmCheckpoint, checks_ok] at h
    refine .of_onDispatch h.2 fun r r' hbody => ?_
    simp only [steps_ok] at hbody
    obtain ⟨-, -, -, -, rfl⟩ := hbody
    rfl
  | decision d kind cycle call now =>
    obtain ⟨-, r, decision, p, hr, -, -, rfl⟩ := onDispatchDecision_ok.1 h
    exact .of_set hr rfl rfl
  | programDecision event capable call now => exact .of_dispatches (onProgramDecision_dispatches h)
  | controllerActions q now =>
    obtain ⟨-, ⟨rfl, -⟩ | ⟨d, kind, cycle, decision, r, r', hcommits, rfl⟩⟩ :=
      submitControllerActions_cases h
    · exact .refl L'
    · exact .of_set hcommits.rows rfl hcommits.identity
  | openDecision d q now =>
    refine .of_onDispatch h fun r r' hbody => ?_
    simp only [openDecision, ensureControllerDecision, steps_ok] at hbody
    obtain ⟨-, r₁, ⟨-, rfl⟩, rfl⟩ := hbody
    split_ifs <;> rfl
  | replan d kind cycle revision reason now =>
    simp only [body, authorizeReplan, checks_ok] at h
    refine .of_onDispatch h.2 fun r r' hbody => ?_
    unfold replan at hbody
    split at hbody
    · cases hbody
    · simp only [steps_ok] at hbody
      obtain ⟨-, -, -, r₁, hinsert, rfl⟩ := hbody
      have hinserted := insertWake_identity hinsert
      exact hinserted
  | reconcileInflightWakes now =>
    cases h
    exact .of_map rfl fun _ _ => rfl
  | reconcileExhaustedWakes now =>
    cases h
    exact .of_map rfl fun _ _ => rfl
  | refreshProfile q now => cases hop
  | programEvent event f deadline now => exact .of_dispatches (recordProgramEvent_dispatches h)
  | reconcileStaleDecisions facts isOpen now =>
    exact .of_dispatches (reconcileStaleDecisions_dispatches h)
  | claimProgramDecision event q f minted now =>
    exact .of_dispatches (claimProgramDecision_dispatches h)
  | programActions event q f effects now => exact .of_dispatches (submitProgramActions_dispatches h)
  | programEffect event q f now => exact .of_dispatches (recordProgramEffect_dispatches h)
  | armRefreshFence starts now => exact .of_dispatches (armHarnessRefreshFence_dispatches h)
  | notificationAttempt d task outcome now =>
    refine .of_onDispatch h fun r r' hbody => ?_
    simp only [checks_ok] at hbody
    obtain ⟨-, hbody⟩ := hbody
    split at hbody
    · cases hbody
    split at hbody
    · simp only [steps_ok] at hbody
      obtain ⟨-, rfl⟩ := hbody
      rfl
    · simp only [steps_ok] at hbody
      obtain ⟨-, rfl⟩ := hbody
      rfl

end CodexFlow.Ledger
