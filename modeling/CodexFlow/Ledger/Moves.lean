import CodexFlow.Ledger.Simulation

/-!
# What a call does to the controller tables

Most calls keep the wakes and the decisions of a dispatch. The others are named here once: a
cancellation, a finalization, an inserted wake, a call on one decision, a committed bundle and the
scans.
-/

namespace CodexFlow.Ledger

open Checked DispatchRows

variable {env : Env} {L L' : Ledger} {dispatchId : DispatchId} {r r' r'' : DispatchRows} {op : Op}
  {now : Time}

namespace DispatchRows

/-- The wakes, the decisions and the presence of both outboxes are kept. -/
structure Tables (r r' : DispatchRows) : Prop where
  decisions : r'.decisions = r.decisions
  wakes : r'.wakes = r.wakes
  successorOutbox : r'.successorOutbox.isSome = r.successorOutbox.isSome
  notificationOutbox : r'.notificationOutbox.isSome = r.notificationOutbox.isSome

theorem Tables.trans (h : r.Tables r') (h' : r'.Tables r'') : r.Tables r'' :=
  ⟨h'.decisions.trans h.decisions, h'.wakes.trans h.wakes,
    h'.successorOutbox.trans h.successorOutbox, h'.notificationOutbox.trans h.notificationOutbox⟩

/-- The terminal status is kept too. -/
structure Keeps (r r' : DispatchRows) : Prop extends Tables r r' where
  terminalStatus : r'.queue.terminalStatus = r.queue.terminalStatus

theorem Keeps.refl (r : DispatchRows) : r.Keeps r := ⟨⟨rfl, rfl, rfl, rfl⟩, rfl⟩

theorem Keeps.trans (h : r.Keeps r') (h' : r'.Keeps r'') : r.Keeps r'' :=
  ⟨h.toTables.trans h'.toTables, h'.terminalStatus.trans h.terminalStatus⟩

theorem terminalStatus_ite {c : Prop} [Decidable c] {q q' q'' : DispatchQueue}
    (h : q.terminalStatus = q''.terminalStatus) (h' : q'.terminalStatus = q''.terminalStatus) :
    (if c then q else q').terminalStatus = q''.terminalStatus := by
  split_ifs
  · exact h
  · exact h'

theorem Keeps.cancel {retain retain' : Bool} (h : r.Keeps r') :
    (r.cancel retain now).Keeps (r'.cancel retain' now) :=
  ⟨⟨congrArg (List.map _) h.decisions, congrArg (List.filter _) h.wakes, h.successorOutbox,
    h.notificationOutbox⟩, rfl⟩

structure Inserts (w : NewWake) (deadline created now : Time) (r r' : DispatchRows) : Prop where
  fresh : ¬r.hasWake w.kind w.cycleSequence
  cycle : 1 ≤ w.cycleSequence ∧ w.cycleSequence ≤ 64
  decisions : r'.decisions = if r.hasDecision w.kind w.cycleSequence then r.decisions
    else r.decisions ++ [w.decisionUntil now deadline]
  wakes : r'.wakes = r.wakes ++ [w.wake created]
  successorOutbox : r'.successorOutbox = r.successorOutbox
  notificationOutbox : r'.notificationOutbox = r.notificationOutbox

theorem insertWake_inserts {w : NewWake} {current : Time}
    (h : r.insertWake w current now = .ok r') :
    r.Inserts w (current + seconds 300) current now r' := by
  simp only [insertWake, ensureControllerDecision, steps_ok] at h
  obtain ⟨r₁, ⟨hcycle, rfl⟩, hfresh, rfl⟩ := h
  split_ifs at hfresh with hdecision
  · exact ⟨by simpa using hfresh, hcycle, by rw [if_pos hdecision, if_pos hdecision],
      by rw [if_pos hdecision], by rw [if_pos hdecision], by rw [if_pos hdecision]⟩
  · exact ⟨by simpa [hasWake] using hfresh, hcycle, by rw [if_neg hdecision, if_neg hdecision],
      by rw [if_neg hdecision], by rw [if_neg hdecision], by rw [if_neg hdecision]⟩

end DispatchRows

/-- What a call makes of the controller tables of one dispatch. -/
inductive Moves (env : Env) (L : Ledger) (op : Op) (dispatchId : DispatchId) (r : DispatchRows) :
    DispatchRows → Prop
  | keeps {s : DispatchRows} (h : r.Keeps s) : Moves env L op dispatchId r s
  | cancels {s : DispatchRows} (retain : Bool) (now : Time) (h : (r.cancel retain now).Keeps s) :
    Moves env L op dispatchId r s
  | accepts {s : DispatchRows} (h : r.Tables s) (hstate : ¬s.queue.state.isNonterminal) :
    Moves env L op dispatchId r s
  | finalizes {r₁ s : DispatchRows} (htables : r.Tables r₁) (terminal : QueueState)
      (hterminal : terminal.isTerminal) (task : Option String) (now : Time)
      (hstate : s.queue.state = terminal)
      (h : (r₁.terminate terminal task now).Inserts (r₁.terminalWake terminal)
        (now + seconds 300) now now s) : Moves env L op dispatchId r s
  | serves {s : DispatchRows} (w : NewWake) (current now : Time) (hqueue : s.queue = r.queue)
      (h : r.Inserts w (current + seconds 300) current now s) : Moves env L op dispatchId r s
  | decides (kind : WakeKind) (cycle : ℕ) (call : DecisionOp) (now : Time) (d : ControllerDecision)
      (p : DecisionRows) (hop : op = .decision dispatchId kind cycle call now)
      (hcheck : call.check env now = .ok ()) (hd : r.decision? kind cycle = some d)
      (hrun : call.run env (L.decisionContext (.dispatch dispatchId kind cycle) none) now
        ⟨d, r.wake? kind cycle⟩ = .ok p) :
    Moves env L op dispatchId r (r.setDecision kind cycle p)
  | commits {s : DispatchRows} (q : SubmitRequest) (now : Time) (kind : WakeKind) (cycle : ℕ)
      (d : ControllerDecision) (hop : op = .controllerActions q now)
      (h : Commits env L q now d kind cycle dispatchId r s) : Moves env L op dispatchId r s
  | opens {s : DispatchRows} (q : OpenRequest) (now : Time) (h : r.openDecision q now = .ok s) :
    Moves env L op dispatchId r s
  | replans {s : DispatchRows} (kind : WakeKind) (cycle revision : ℕ) (now : Time)
      (h : r.replan kind cycle revision now = .ok s) : Moves env L op dispatchId r s
  | reconcilesInflight (now : Time) : Moves env L op dispatchId r (r.reconcileInflight now)
  | reconcilesExhausted (now : Time) : Moves env L op dispatchId r (r.reconcileExhausted now)
  | refreshes (q : ProfileRefresh) (now : Time) :
    Moves env L op dispatchId r (r.refreshProfile q now)

/-- The call rewrites no table of the harness or of a program. -/
def Op.onRows : Op → Bool
  | .acquireHarness .. | .renewHarness .. | .requestHarnessShutdown .. | .armRefreshFence .. => false
  | .programDecision .. | .programEvent .. | .reconcileStaleDecisions .. => false
  | .claimProgramDecision .. | .programActions .. | .programEffect .. => false
  | _ => true

structure MovesAll (env : Env) (L : Ledger) (op : Op) (L' : Ledger) : Prop where
  rows : ∀ d r, L.dispatches.get? d = some r →
    ∃ r', L'.dispatches.get? d = some r' ∧ Moves env L op d r r'
  rest : op.onRows → L'.programDecisions = L.programDecisions ∧ L'.harness = L.harness

namespace MovesAll

theorem refl (L : Ledger) : MovesAll env L op L where
  rows := fun _ r hr => ⟨r, hr, .keeps (.refl r)⟩
  rest := fun _ => ⟨rfl, rfl⟩

theorem of_dispatches (h : L'.dispatches = L.dispatches) (hop : op.onRows = false) :
    MovesAll env L op L' where
  rows := fun _ r hr => ⟨r, h ▸ hr, .keeps (.refl r)⟩
  rest := fun hrows => absurd (hrows.symm.trans hop) Bool.noConfusion

theorem of_set (hr : L.dispatches.get? dispatchId = some r)
    (h : L' = { L with dispatches := L.dispatches.set dispatchId r' })
    (hmoves : Moves env L op dispatchId r r') : MovesAll env L op L' where
  rows := by
    rw [h]
    intro d s hs
    by_cases hd : d = dispatchId
    · subst hd
      obtain rfl := Option.some.inj (hr.symm.trans hs)
      exact ⟨r', Table.get?_set_self hr r', hmoves⟩
    · exact ⟨s, (Table.get?_set_ne _ hd _).trans hs, .keeps (.refl s)⟩
  rest := fun _ => h ▸ ⟨rfl, rfl⟩

theorem of_map {f : DispatchId → DispatchRows → DispatchRows}
    (h : L' = { L with dispatches := L.dispatches.map f })
    (hmoves : ∀ d r, Moves env L op d r (f d r)) : MovesAll env L op L' where
  rows := by
    rw [h]
    exact fun d r hr => ⟨f d r, by simp [Table.get?_map, hr], hmoves d r⟩
  rest := fun _ => h ▸ ⟨rfl, rfl⟩

theorem of_onDispatch {missing : LedgerError} {f : DispatchRows → Checked DispatchRows}
    (h : L.onDispatch dispatchId missing f = .ok L')
    (hf : ∀ r r', L.dispatches.get? dispatchId = some r → f r = .ok r' →
      Moves env L op dispatchId r r') : MovesAll env L op L' := by
  obtain ⟨r, r', hr, hbody, rfl⟩ := onDispatch_ok.1 h
  exact of_set hr rfl (hf r r' hr hbody)

theorem of_kept {missing : LedgerError} {f : DispatchRows → Checked DispatchRows}
    (h : L.onDispatch dispatchId missing f = .ok L')
    (hf : ∀ r r', f r = .ok r' → r.Keeps r') : MovesAll env L op L' :=
  of_onDispatch h fun r r' _ hbody => .keeps (hf r r' hbody)

end MovesAll

/-! ### The queue and the workers -/

theorem cancelQueueRow_cases {epoch : Option ℕ} {retain : Bool}
    (h : L.cancelQueueRow epoch retain now r = .ok r') :
    r' = r ∨ r' = r.cancel retain now := by
  unfold cancelQueueRow at h
  split_ifs at h
  · exact .inl (pure_eq_ok.1 h).symm
  · simp only [steps_ok] at h
    obtain ⟨-, -, -, -, -, -, rfl⟩ := h
    exact .inr rfl

theorem cancelQueueRow_moves {epoch : Option ℕ} {retain : Bool}
    (h : L.cancelQueueRow epoch retain now r = .ok r') : Moves env L op dispatchId r r' := by
  obtain rfl | rfl := cancelQueueRow_cases h
  · exact .keeps (.refl r')
  · exact .cancels retain now (.refl _)

theorem acknowledgeWorkerCancellationExit_moves {actionId birth : String} {pid : ℕ}
    {exitCode : Option ℤ}
    (h : L.acknowledgeWorkerCancellationExit env dispatchId actionId pid birth exitCode now =
      .ok L') : MovesAll env L op L' := by
  simp only [acknowledgeWorkerCancellationExit, checks_ok] at h
  obtain ⟨-, -, h⟩ := h
  split at h
  · cases h
  refine .of_onDispatch h fun r r' _ hbody => ?_
  simp only [checks_ok] at hbody
  obtain ⟨-, hbody⟩ := hbody
  split_ifs at hbody
  · cases hbody
    exact .keeps (.refl _)
  · simp only [checks_ok] at hbody
    have hexit : r.Keeps (r.recordCancelledExit exitCode now) := by
      unfold recordCancelledExit
      split_ifs
      · exact ⟨⟨rfl, rfl, rfl, rfl⟩, rfl⟩
      · exact .refl r
    obtain rfl | rfl := cancelQueueRow_cases hbody.2
    · exact .keeps hexit
    · exact .cancels true now hexit.cancel

theorem claimQueueDispatch_moves {epoch : ℕ} {nonce : String}
    {program executionCancelled : DispatchId → Bool}
    (h : L.claimQueueDispatch epoch nonce program executionCancelled now = .ok L') :
    MovesAll env L op L' := by
  simp only [claimQueueDispatch, checks_ok] at h
  obtain ⟨-, -, -, h⟩ := h
  split at h
  · exact pure_eq_ok.1 h ▸ .refl L
  · simp only [checks_ok] at h
    refine .of_onDispatch h.2 fun r r' _ hbody => ?_
    split_ifs at hbody
    · exact cancelQueueRow_moves hbody
    · cases hbody
      exact .keeps ⟨⟨rfl, rfl, rfl, rfl⟩, rfl⟩

theorem setQueueState_moves {state : QueueState} {epoch : Option ℕ}
    (h : L.setQueueState dispatchId state epoch now = .ok L') : MovesAll env L op L' := by
  unfold setQueueState at h
  split_ifs at h
  · exact .of_onDispatch h fun r r' _ hbody => cancelQueueRow_moves hbody
  · refine .of_kept h fun r r' hbody => ?_
    simp only [steps_ok] at hbody
    obtain ⟨-, -, -, rfl⟩ := hbody
    exact ⟨⟨rfl, rfl, rfl, rfl⟩, rfl⟩

theorem recoverQueueDispatch_moves {epoch : ℕ} {preserve : Bool}
    (h : L.recoverQueueDispatch dispatchId epoch preserve now = .ok L') :
    MovesAll env L op L' := by
  simp only [recoverQueueDispatch, checks_ok] at h
  refine .of_kept h.2.2 fun r r' hbody => ?_
  split at hbody
  · cases hbody
    exact .refl _
  · simp only [steps_ok] at hbody
    obtain ⟨-, rfl⟩ := hbody
    exact ⟨⟨rfl, rfl, rfl, rfl⟩, rfl⟩

theorem issueAttemptCapability_moves {request : CapabilityRequest}
    (h : L.issueAttemptCapability dispatchId request now = .ok L') : MovesAll env L op L' := by
  simp only [issueAttemptCapability, checks_ok] at h
  refine .of_kept h.2.2 fun r r' hbody => ?_
  simp only [checks_ok] at hbody
  obtain ⟨-, hbody⟩ := hbody
  split at hbody
  · simp only [steps_ok] at hbody
    obtain ⟨-, rfl⟩ := hbody
    split_ifs
    · exact ⟨⟨rfl, rfl, rfl, rfl⟩, rfl⟩
    · exact .refl r
  · cases hbody
    exact ⟨⟨rfl, rfl, rfl, rfl⟩, rfl⟩

theorem bindWorkerLiveness_moves {epoch generation attempt lease : ℕ} {process : WorkerProcess}
    {token : String}
    (h : L.bindWorkerLiveness dispatchId epoch generation attempt process token lease now = .ok L') :
    MovesAll env L op L' := by
  simp only [bindWorkerLiveness, checks_ok] at h
  obtain ⟨-, -, -, -, -, -, h⟩ := h
  refine .of_kept h fun r r' hbody => ?_
  simp only [steps_ok] at hbody
  obtain ⟨-, -, -, -, rfl⟩ := hbody
  exact ⟨⟨rfl, rfl, rfl, rfl⟩, terminalStatus_ite rfl rfl⟩

theorem bindWorkerThread_moves {epoch generation attempt : ℕ} {token threadId : String}
    (h : L.bindWorkerThread env dispatchId epoch generation attempt token threadId now = .ok L') :
    MovesAll env L op L' := by
  simp only [bindWorkerThread, checks_ok] at h
  obtain ⟨-, -, -, -, -, -, h⟩ := h
  refine .of_kept h fun r r' hbody => ?_
  simp only [steps_ok] at hbody
  obtain ⟨-, -, -, rfl⟩ := hbody
  split_ifs
  · exact ⟨⟨rfl, rfl, rfl, rfl⟩, rfl⟩
  · exact .refl r

theorem renewWorkerLiveness_moves {generation attempt lease : ℕ} {token : String}
    {epoch : Option ℕ}
    (h : L.renewWorkerLiveness env dispatchId generation attempt token lease epoch now = .ok L') :
    MovesAll env L op L' := by
  simp only [renewWorkerLiveness, checks_ok] at h
  obtain ⟨-, -, -, -, h⟩ := h
  refine .of_kept h fun r r' hbody => ?_
  split at hbody
  · cases hbody
  · simp only [steps_ok] at hbody
    obtain ⟨-, -, -, rfl⟩ := hbody
    exact ⟨⟨rfl, rfl, rfl, rfl⟩, rfl⟩

theorem adoptLiveWorker_moves {newEpoch : ℕ} {process : WorkerProcess} {nonce : String}
    (h : L.adoptLiveWorker dispatchId newEpoch process nonce now = .ok L') :
    MovesAll env L op L' := by
  simp only [adoptLiveWorker, checks_ok] at h
  obtain ⟨-, -, -, -, h⟩ := h
  refine .of_kept h fun r r' hbody => ?_
  split at hbody
  · cases hbody
  · simp only [steps_ok] at hbody
    obtain ⟨-, -, rfl⟩ := hbody
    exact ⟨⟨rfl, rfl, rfl, rfl⟩, rfl⟩

/-! ### Retries and recovery -/

theorem spent_keeps (policy : RetryPolicy) (recovery : RecoveryState) :
    r.Keeps { r with policy := policy, recovery := recovery } :=
  ⟨⟨rfl, rfl, rfl, rfl⟩, rfl⟩

theorem delayed_keeps (policy : RetryPolicy) (recovery : RecoveryState) (availableAt : Time) :
    r.Keeps { r with
      policy := policy, recovery := recovery
      queue := { r.queue with availableAt := availableAt, updatedAt := now } } :=
  ⟨⟨rfl, rfl, rfl, rfl⟩, rfl⟩

theorem releaseToQueue_keeps (availableAt : Time) :
    r.Keeps (r.releaseToQueue availableAt now) :=
  ⟨⟨rfl, rfl, rfl, rfl⟩, rfl⟩

theorem spendAtExit_keeps {failure : RetryFailureClass} {context : ExitContext} {charge : Charge} :
    r.Keeps (r.spendAtExit env dispatchId failure context charge now) := by
  unfold spendAtExit
  dsimp only
  split
  · exact (spent_keeps _ _).trans (releaseToQueue_keeps _)
  split
  · exact delayed_keeps _ _ _
  · exact spent_keeps _ _

theorem applyExitRetryPolicy_keeps {failure : RetryFailureClass} {context : ExitContext} :
    r.Keeps (r.applyExitRetryPolicy env dispatchId failure context now) := by
  unfold applyExitRetryPolicy
  split
  · exact spendAtExit_keeps
  · split_ifs
    · exact ⟨⟨rfl, rfl, rfl, rfl⟩, rfl⟩
    · exact ⟨⟨rfl, rfl, rfl, rfl⟩, terminalStatus_ite rfl rfl⟩

theorem markWorkerExit_moves {process : WorkerProcess} {exit : WorkerExit}
    (h : L.markWorkerExit env dispatchId process exit now = .ok L') : MovesAll env L op L' := by
  simp only [markWorkerExit, checks_ok] at h
  refine .of_kept h.2 fun r r' hbody => ?_
  split at hbody
  · cases hbody
  · simp only [steps_ok] at hbody
    obtain ⟨-, rfl⟩ := hbody
    unfold workerExit
    split_ifs
    · exact .refl r
    · exact ⟨⟨rfl, rfl, rfl, rfl⟩, rfl⟩
    · have hexit : r.Keeps ((r.markExited now).recordExit exit now) :=
        ⟨⟨rfl, rfl, rfl, rfl⟩, terminalStatus_ite rfl rfl⟩
      exact hexit.trans
        applyExitRetryPolicy_keeps

theorem recordCharge_keeps {failure : RetryFailureClass} {evidence : RetryEvidence}
    {charge : Charge} : r.Keeps (r.recordCharge env dispatchId failure evidence charge now) := by
  unfold recordCharge
  dsimp only
  split
  · split
    · exact (spent_keeps _ _).trans (releaseToQueue_keeps _)
    · exact spent_keeps _ _
  split
  · exact delayed_keeps _ _ _
  · exact spent_keeps _ _

theorem recordRetryFailure_moves {failure : RetryFailureClass} {evidence : RetryEvidence}
    (h : L.recordRetryFailure env dispatchId failure evidence now = .ok L') :
    MovesAll env L op L' := by
  simp only [recordRetryFailure, checks_ok] at h
  refine .of_kept h.2.2 fun r r' hbody => ?_
  simp only [checks_ok] at hbody
  obtain ⟨-, hbody⟩ := hbody
  split at hbody
  · cases hbody
    exact .refl _
  split at hbody
  · cases hbody
    exact recordCharge_keeps
  · simp only [steps_ok] at hbody
    obtain ⟨-, rfl⟩ := hbody
    exact ⟨⟨rfl, rfl, rfl, rfl⟩, rfl⟩

theorem retryDispatch_moves {strategy : RecoveryStrategy} {state : QueueState} {reason : String}
    (h : L.retryDispatch env dispatchId strategy state reason now = .ok L') :
    MovesAll env L op L' := by
  simp only [retryDispatch, checks_ok] at h
  refine .of_kept h.2 fun r r' hbody => ?_
  simp only [steps_ok] at hbody
  obtain ⟨-, rfl⟩ := hbody
  exact ⟨⟨rfl, rfl, rfl, rfl⟩, rfl⟩

theorem configureRecovery_moves {config : RecoveryConfiguration}
    (h : L.configureRecovery dispatchId config now = .ok L') : MovesAll env L op L' := by
  simp only [configureRecovery, checks_ok] at h
  refine .of_kept h.2.2.2 fun r r' hbody => ?_
  simp only [checks_ok] at hbody
  obtain ⟨-, hbody⟩ := hbody
  split_ifs at hbody
  cases hbody
  exact ⟨⟨rfl, rfl, rfl, rfl⟩, rfl⟩

theorem recordRecoveryInspection_moves {inspection : Inspection}
    (h : L.recordRecoveryInspection env dispatchId inspection now = .ok L') :
    MovesAll env L op L' := by
  simp only [recordRecoveryInspection, checks_ok] at h
  obtain ⟨-, -, -, -, h⟩ := h
  refine .of_kept h fun r r' hbody => ?_
  split at hbody
  · cases hbody
    exact .refl _
  · simp only [steps_ok] at hbody
    obtain ⟨-, rfl⟩ := hbody
    exact ⟨⟨rfl, rfl, rfl, rfl⟩, terminalStatus_ite rfl rfl⟩

theorem beginRecoveryInspection_moves {epoch : ℕ} {current : Time}
    (h : L.beginRecoveryInspection dispatchId epoch current now = .ok L') :
    MovesAll env L op L' := by
  simp only [beginRecoveryInspection, bind_eq_ok] at h
  obtain ⟨-, -, h⟩ := h
  refine .of_kept h fun r r' hbody => ?_
  simp only [steps_ok] at hbody
  obtain ⟨-, -, -, -, rfl⟩ := hbody
  exact ⟨⟨rfl, rfl, rfl, rfl⟩, rfl⟩

theorem markHumanAttentionRequired_moves {reason : String} {failure : Option RetryFailureClass}
    (h : L.markHumanAttentionRequired env dispatchId reason failure now = .ok L') :
    MovesAll env L op L' := by
  simp only [markHumanAttentionRequired, checks_ok] at h
  obtain ⟨-, h⟩ := h
  split at h
  · cases h
  rename_i r hget
  split at h
  · exact pure_eq_ok.1 h ▸ .refl L
  split at h
  · simp only [steps_ok] at h
    obtain ⟨-, rfl⟩ := h
    exact .of_set hget rfl (.keeps ⟨⟨rfl, rfl, rfl, rfl⟩, rfl⟩)
  · exact recordRecoveryInspection_moves h

theorem continueOrClose_keeps {claim : Claim} : r.Keeps (r.continueOrClose claim now) := by
  unfold continueOrClose
  split_ifs <;> exact ⟨⟨rfl, rfl, rfl, rfl⟩, rfl⟩

theorem beginRecoveryContinuation_moves {epoch : ℕ} {nonce : String}
    {program : DispatchId → Bool} {current : Time}
    (h : L.beginRecoveryContinuation dispatchId epoch nonce program current now = .ok L') :
    MovesAll env L op L' := by
  simp only [beginRecoveryContinuation, checks_ok] at h
  obtain ⟨-, -, -, h⟩ := h
  refine .of_kept h fun r r' hbody => ?_
  simp only [steps_ok] at hbody
  obtain ⟨-, -, -, -, -, rfl⟩ := hbody
  exact continueOrClose_keeps

theorem changeBudget_keeps {change : RetryBudgetChange} (h : r.changeBudget change now = .ok r') :
    r.Keeps r' := by
  unfold changeBudget at h
  split at h
  · cases h
  split at h
  · cases h
    exact ⟨⟨rfl, rfl, rfl, rfl⟩, rfl⟩
  · simp only [checks_ok] at h
    obtain ⟨-, -, -, -, -, h⟩ := h
    split_ifs at h
    cases h
    exact ⟨⟨rfl, rfl, rfl, rfl⟩, rfl⟩

theorem cancelAction_cases (h : L.cancelAction now r = .ok r') :
    r.Keeps r' ∨ ∃ retain, r' = r.cancel retain now := by
  unfold cancelAction at h
  split at h
  · cases h
    exact .inl ⟨⟨rfl, rfl, rfl, rfl⟩, rfl⟩
  · simp only [checks_ok] at h
    obtain rfl | rfl := cancelQueueRow_cases h.2
    · exact .inl (.refl _)
    · exact .inr ⟨_, rfl⟩

theorem actionEffect_cases {action : RecoveryAction} {activeTurn : Bool}
    (h : L.actionEffect action activeTurn now r = .ok r') :
    r.Keeps r' ∨ ∃ retain, r' = r.cancel retain now := by
  unfold actionEffect at h
  split at h
  · split at h
    · exact .inl (changeBudget_keeps h)
    · cases h
  · simp only [steps_ok] at h
    obtain ⟨-, rfl⟩ := h
    exact .inl ⟨⟨rfl, rfl, rfl, rfl⟩, rfl⟩
  · split at h
    · simp only [rebindCompatibility, steps_ok] at h
      obtain ⟨-, -, -, -, -, -, -, rfl⟩ := h
      exact .inl ⟨⟨rfl, rfl, rfl, rfl⟩, rfl⟩
    · cases h
  · exact cancelAction_cases h

theorem applyRecoveryAction_moves {action : RecoveryAction} {activeTurn : Bool}
    (h : L.applyRecoveryAction env dispatchId action activeTurn now = .ok L') :
    MovesAll env L op L' := by
  simp only [applyRecoveryAction, checks_ok] at h
  obtain ⟨-, -, -, -, -, -, h⟩ := h
  split at h
  · simp only [steps_ok] at h
    exact h.2.2 ▸ .refl L
  · refine .of_onDispatch h fun r r' _ hbody => ?_
    simp only [steps_ok] at hbody
    obtain ⟨-, -, -, applied, happlied, rfl⟩ := hbody
    obtain hkeeps | ⟨retain, rfl⟩ := actionEffect_cases happlied
    · exact .keeps (hkeeps.trans ⟨⟨rfl, rfl, rfl, rfl⟩, rfl⟩)
    · exact .cancels retain now ⟨⟨rfl, rfl, rfl, rfl⟩, rfl⟩

/-! ### Results -/

theorem finalize_moves {r₁ : DispatchRows} {request : FinalizeRequest} (htables : r.Tables r₁)
    (h : r₁.finalize request now = .ok r') : Moves env L op dispatchId r r' := by
  unfold finalize at h
  split at h
  · rename_i hterminal
    cases h
    refine .accepts htables ?_
    generalize r'.queue.state = state at hterminal
    revert hterminal
    cases state <;> decide
  simp only [checks_ok] at h
  obtain ⟨-, -, -, hwake⟩ := h
  have hterminal : QueueState.isTerminal
      (if isFailure (r₁.queue.terminalStatus.getD "") then .failed else .completed) := by
    split_ifs
    · rfl
    · rfl
  generalize (if isFailure (r₁.queue.terminalStatus.getD "") then QueueState.failed
    else QueueState.completed) = terminal at hterminal hwake
  obtain ⟨decisions, heq⟩ := insertWake_eq hwake
  exact .finalizes htables terminal hterminal request.notifySourceTask now (heq ▸ rfl)
    (insertWake_inserts hwake)

theorem bindIntegrity_keeps {digest : String} (h : r.bindIntegrity digest = .ok r') :
    r.Keeps r' := by
  obtain ⟨i, rfl⟩ := bindIntegrity_eq h
  exact ⟨⟨rfl, rfl, rfl, rfl⟩, rfl⟩

theorem submit_keeps {s : Submission} {p : ParsedResult} (h : r.submit env s p now = .ok r') :
    r' = r ∨ r.Tables r' ∧ r'.queue.state = .resultSubmitted := by
  obtain ⟨cap, -, ⟨-, -, rfl⟩ | ⟨-, -, -, rfl⟩ | ⟨-, -, -, rfl⟩⟩ := submit_cases h
  · exact .inl rfl
  · exact .inl rfl
  · exact .inr ⟨⟨rfl, rfl, rfl, rfl⟩, rfl⟩

theorem submit_tables {s : Submission} {p : ParsedResult} (h : r.submit env s p now = .ok r') :
    r.Tables r' := by
  obtain rfl | ⟨htables, -⟩ := submit_keeps h
  · exact ⟨rfl, rfl, rfl, rfl⟩
  · exact htables

theorem commitSubmitted_moves {r₁ : DispatchRows} {digest : String} (htables : r.Tables r₁)
    (h : r₁.commitSubmitted digest now = .ok r') : Moves env L op dispatchId r r' := by
  simp only [commitSubmitted, bind_eq_ok] at h
  obtain ⟨bound, hbound, hfinal⟩ := h
  have hsettled : bound.Tables { bound with policy := bound.policy.settle none now } :=
    ⟨rfl, rfl, rfl, rfl⟩
  exact finalize_moves ((htables.trans (bindIntegrity_keeps hbound).toTables).trans hsettled) hfinal

theorem ingestRecoveredResult_moves {raw : String}
    (h : L.ingestRecoveredResult env dispatchId raw now = .ok L') : MovesAll env L op L' := by
  refine .of_onDispatch h fun r r' _ hbody => ?_
  simp only [DispatchRows.ingest, checks_ok] at hbody
  obtain ⟨p, -, -, hbody⟩ := hbody
  split at hbody
  · simp only [checks_ok] at hbody
    exact .keeps (bindIntegrity_keeps hbody.2)
  · simp only [checks_ok] at hbody
    obtain ⟨-, bound, hbound, hfinal⟩ := hbody
    have haccepted : r.Tables (r.acceptRecovered p now) := ⟨rfl, rfl, rfl, rfl⟩
    exact finalize_moves (haccepted.trans (bindIntegrity_keeps hbound).toTables) hfinal

theorem captureIntegrity_keeps {completed allowInsert : Bool} {capture : Option TerminalCapture}
    (h : r.captureIntegrity completed capture allowInsert now = .ok r') : r.Keeps r' := by
  unfold captureIntegrity at h
  split at h
  · simp only [steps_ok] at h
    exact h.2 ▸ .refl r
  split at h
  · cases h
  simp only [checks_ok] at h
  obtain ⟨-, h⟩ := h
  split at h
  · simp only [steps_ok] at h
    exact h.2 ▸ .refl r
  · simp only [steps_ok] at h
    obtain ⟨-, -, -, rfl⟩ := h
    exact ⟨⟨rfl, rfl, rfl, rfl⟩, rfl⟩

/-! ### Wakes, gates and notices -/

theorem rearmCheckpoint_moves {duration : ℕ}
    (h : L.rearmCheckpoint dispatchId duration now = .ok L') : MovesAll env L op L' := by
  simp only [rearmCheckpoint, checks_ok] at h
  refine .of_kept h.2 fun r r' hbody => ?_
  simp only [steps_ok] at hbody
  obtain ⟨-, -, -, -, rfl⟩ := hbody
  exact ⟨⟨rfl, rfl, rfl, rfl⟩, rfl⟩

theorem claimDueCheckpoint_moves {epoch : ℕ} {current : Time}
    (h : (L.claimDueCheckpoint epoch current now).map Prod.fst = .ok L') :
    MovesAll env L op L' := by
  obtain ⟨result, hclaim, rfl⟩ := map_eq_ok.1 h
  simp only [claimDueCheckpoint, bind_eq_ok] at hclaim
  obtain ⟨-, -, hclaim⟩ := hclaim
  split at hclaim
  · exact pure_eq_ok.1 hclaim ▸ .refl L
  · rename_i d r hdue
    simp only [bind_eq_ok, pure_eq_ok] at hclaim
    obtain ⟨r', hserve, rfl⟩ := hclaim
    refine .of_set (firstDue_spec hdue).1 rfl ?_
    have hqueue : r'.queue = r.queue := by
      obtain ⟨decisions, rfl⟩ := serveCheckpoint_eq hserve
      rfl
    simp only [serveCheckpoint, checks_ok] at hserve
    obtain ⟨hfresh, hcycle, hdecisions, hwakes, hsuccessor, hnotification⟩ :=
      insertWake_inserts hserve.2
    exact .serves r.checkpointWake current now hqueue
      ⟨hfresh, hcycle, hdecisions, hwakes, hsuccessor, hnotification⟩

theorem authorizeSuccessor_moves {successor : DispatchId}
    (h : L.authorizeSuccessor dispatchId successor now = .ok L') : MovesAll env L op L' := by
  simp only [authorizeSuccessor, checks_ok] at h
  obtain ⟨-, h⟩ := h
  split at h
  · cases h
  refine .of_kept h fun r r' hbody => ?_
  simp only [steps_ok] at hbody
  obtain ⟨-, -, rfl⟩ := hbody
  split_ifs
  · exact .refl r
  · exact ⟨⟨rfl, rfl, rfl, rfl⟩, rfl⟩

theorem recordNotificationAttempt_moves {task : Option String} {outcome : NotificationOutcome}
    (h : L.recordNotificationAttempt dispatchId task outcome now = .ok L') :
    MovesAll env L op L' := by
  refine .of_kept h fun r r' hbody => ?_
  simp only [checks_ok] at hbody
  obtain ⟨-, hbody⟩ := hbody
  split at hbody
  · cases hbody
  rename_i n hn
  split at hbody
  · simp only [steps_ok] at hbody
    obtain ⟨-, rfl⟩ := hbody
    exact ⟨⟨rfl, rfl, rfl, by rw [hn]; rfl⟩, rfl⟩
  · simp only [steps_ok] at hbody
    exact hbody.2 ▸ .refl r

theorem enqueueDispatch_moves {request : DispatchRequest}
    (h : L.enqueueDispatch env dispatchId request now = .ok L') : MovesAll env L op L' := by
  simp only [enqueueDispatch, checks_ok] at h
  obtain ⟨-, -, -, -, -, -, -, h⟩ := h
  split at h
  · simp only [steps_ok] at h
    exact h.2 ▸ .refl L
  · rename_i hnew
    simp only [steps_ok] at h
    obtain ⟨-, rfl⟩ := h
    refine ⟨fun d r hr => ?_, fun _ => ⟨rfl, rfl⟩⟩
    have hd : d ≠ dispatchId := by
      rintro rfl
      exact Option.some_ne_none r (hr.symm.trans hnew)
    exact ⟨r, by rw [Table.get?_insert_ne _ hd, hr], .keeps (.refl r)⟩

/-! ### One call -/

/-- What a call does, it does to the rows of each dispatch. -/
theorem body_moves (h : L.body env op = .ok L') : MovesAll env L op L' := by
  cases op with
  | enqueue d request now => exact enqueueDispatch_moves h
  | acquireHarness nonce lease now =>
    simp only [body, acquireHarness, steps_ok] at h
    obtain ⟨-, -, -, rfl⟩ := h
    exact .of_dispatches rfl rfl
  | renewHarness epoch nonce lease now =>
    simp only [body, renewHarness, checks_ok] at h
    exact .of_dispatches (withHarness_dispatches h.2) rfl
  | requestHarnessShutdown epoch nonce => exact .of_dispatches (withHarness_dispatches h) rfl
  | claim epoch nonce program cancelled now => exact claimQueueDispatch_moves h
  | setState d state epoch now => exact setQueueState_moves h
  | cancel d epoch now => exact .of_onDispatch h fun r r' _ hbody => cancelQueueRow_moves hbody
  | acknowledgeCancellationExit d actionId pid birth code now =>
    exact acknowledgeWorkerCancellationExit_moves h
  | recover d epoch preserve now => exact recoverQueueDispatch_moves h
  | issueCapability d request now => exact issueAttemptCapability_moves h
  | bindLiveness d epoch generation attempt process token lease now =>
    exact bindWorkerLiveness_moves h
  | bindThread d epoch generation attempt token thread now => exact bindWorkerThread_moves h
  | renewLiveness d generation attempt token lease epoch now => exact renewWorkerLiveness_moves h
  | adopt d epoch process nonce now => exact adoptLiveWorker_moves h
  | exit d process exit now => exact markWorkerExit_moves h
  | retryFailure d failure evidence now => exact recordRetryFailure_moves h
  | retryDispatch d strategy state reason now => exact retryDispatch_moves h
  | configureRecovery d config now => exact configureRecovery_moves h
  | inspection d inspection now => exact recordRecoveryInspection_moves h
  | beginInspection d epoch current now => exact beginRecoveryInspection_moves h
  | requireAttention d reason failure now => exact markHumanAttentionRequired_moves h
  | beginContinuation d epoch nonce program current now => exact beginRecoveryContinuation_moves h
  | action d action activeTurn now => exact applyRecoveryAction_moves h
  | submit d submission now =>
    refine .of_onDispatch h fun r r' _ hbody => ?_
    simp only [bind_eq_ok] at hbody
    obtain ⟨p, -, hsubmit⟩ := hbody
    obtain rfl | ⟨htables, hstate⟩ := submit_keeps hsubmit
    · exact .keeps (.refl r')
    · exact .accepts htables (by rw [hstate]; decide)
  | captureIntegrity d completed capture allowInsert now =>
    exact .of_kept h fun r r' hbody => captureIntegrity_keeps hbody
  | finalize d request now => exact .of_onDispatch h fun r r' _ hbody => finalize_moves (Keeps.refl r).toTables hbody
  | commit d submission now =>
    refine .of_onDispatch h fun r r' _ hbody => ?_
    simp only [DispatchRows.commit, checks_ok] at hbody
    obtain ⟨p, -, -, submitted, hsubmit, hcommit⟩ := hbody
    exact commitSubmitted_moves (submit_tables hsubmit) hcommit
  | commitRetained d submission now =>
    refine .of_onDispatch h fun r r' _ hbody => ?_
    simp only [commitRetained, checks_ok] at hbody
    obtain ⟨p, -, -, -, -, submitted, hsubmit, hcommit⟩ := hbody
    have hrenewed : r.Tables
        (r.renewCapability submission.generation submission.attempt (now + seconds 30)) :=
      ⟨rfl, rfl, rfl, rfl⟩
    exact commitSubmitted_moves (hrenewed.trans (submit_tables hsubmit)) hcommit
  | ingest d raw now => exact ingestRecoveredResult_moves h
  | authorizeSuccessor source successor now => exact authorizeSuccessor_moves h
  | claimCheckpoint epoch current now => exact claimDueCheckpoint_moves h
  | rearmCheckpoint d duration now => exact rearmCheckpoint_moves h
  | decision d kind cycle call now =>
    obtain ⟨hcheck, r, decision, p, hr, hd, hrun, rfl⟩ := onDispatchDecision_ok.1 h
    exact .of_set hr rfl (.decides kind cycle call now decision p rfl hcheck hd hrun)
  | programDecision event capable call now => exact .of_dispatches (onProgramDecision_dispatches h) rfl
  | controllerActions q now =>
    obtain ⟨-, ⟨rfl, -⟩ | ⟨d, kind, cycle, decision, r, r', hcommits, rfl⟩⟩ :=
      submitControllerActions_cases h
    · exact .refl L'
    · exact .of_set hcommits.rows rfl (.commits q now kind cycle decision rfl hcommits)
  | openDecision d q now => exact .of_onDispatch h fun r r' _ hbody => .opens q now hbody
  | replan d kind cycle revision reason now =>
    simp only [body, authorizeReplan, checks_ok] at h
    exact .of_onDispatch h.2 fun r r' _ hbody => .replans kind cycle revision now hbody
  | reconcileInflightWakes now =>
    cases h
    exact .of_map rfl fun _ _ => .reconcilesInflight now
  | reconcileExhaustedWakes now =>
    cases h
    exact .of_map rfl fun _ _ => .reconcilesExhausted now
  | refreshProfile q now =>
    simp only [body, authorizeProfileRefresh, bind_eq_ok, pure_eq_ok] at h
    obtain ⟨-, -, -, -, rfl⟩ := h
    exact .of_map rfl fun _ _ => .refreshes q now
  | programEvent event f deadline now => exact .of_dispatches (recordProgramEvent_dispatches h) rfl
  | reconcileStaleDecisions facts isOpen now =>
    exact .of_dispatches (reconcileStaleDecisions_dispatches h) rfl
  | claimProgramDecision event q f minted now =>
    exact .of_dispatches (claimProgramDecision_dispatches h) rfl
  | programActions event q f effects now => exact .of_dispatches (submitProgramActions_dispatches h) rfl
  | programEffect event q f now => exact .of_dispatches (recordProgramEffect_dispatches h) rfl
  | armRefreshFence starts now => exact .of_dispatches (armHarnessRefreshFence_dispatches h) rfl
  | notificationAttempt d task outcome now => exact recordNotificationAttempt_moves h

theorem next_moves (env : Env) (op : Op) (hr : L.dispatches.get? dispatchId = some r) :
    ∃ r', (L.next env op).dispatches.get? dispatchId = some r' ∧
      Moves env L op dispatchId r r' := by
  obtain hsame | ⟨-, hbody, -⟩ := next_cases env L op
  · exact ⟨r, by rw [hsame, hr], .keeps (.refl r)⟩
  · exact (body_moves hbody).rows dispatchId r hr

end CodexFlow.Ledger
