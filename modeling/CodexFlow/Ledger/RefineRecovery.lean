import CodexFlow.Ledger.RefineRetry

/-!
# Refinement of the recovery operations

The steps of inspections, continuations and actions, of an operator or of a controller.
-/

namespace CodexFlow.Ledger

open Checked DispatchRows

variable {env : Env} {L L' : Ledger} {keys : List DispatchId} {dispatchId : DispatchId}
  {r r' : DispatchRows} {c : Cause} {now : Time}

theorem configureRecovery_updates {config : RecoveryConfiguration}
    (h : L.configureRecovery dispatchId config now = .ok L') : Updates env c dispatchId L L' := by
  simp only [configureRecovery, checks_ok] at h
  obtain ⟨-, -, -, h⟩ := h
  refine .of_onDispatch h fun r r' _ hbody hgood _ => ?_
  simp only [checks_ok] at hbody
  obtain ⟨-, hbody⟩ := hbody
  split_ifs at hbody
  cases hbody
  exact .stay hgood.settled rfl rfl

/-! ### Inspections -/

theorem isPending_of_recovery (hgood : r.Good env keys dispatchId)
    (h : r.recovery.recoveryState ∈ [.inspectionPending, .retryWait, .continuationPending]) :
    r.queue.state.isPending := by
  rw [hgood.recoveryKind] at h
  generalize r.queue.state = state at h
  cases state <;> revert h <;> decide

theorem isNonterminal_of_isPending {s : QueueState} (h : s.isPending) : s.isNonterminal := by
  cases s <;> revert h <;> decide

theorem usedBy_inspected (p : RetryPolicy) (s : RecoveryState) (k : Counter) :
    usedBy p s k ≤ usedBy p { s with inspection := s.inspection.spendCapped } k := by
  cases k with
  | inspection => exact s.inspection.le_spendCapped_used
  | _ => exact Nat.le_refl _

theorem recordInspection_refines {inspection : Inspection} (hpending : r.queue.state.isPending)
    (hdecided :
      inspection.decided ∈ [.retryWait, .continuationPending, .humanAttentionRequired]) :
    Refines c r (r.recordInspection env inspection now) := by
  have hnon := isNonterminal_of_isPending hpending
  have hused : ∀ k, r.life.used k ≤ _ := usedBy_inspected r.policy r.recovery
  have hmem : r.queue.state ∈ [.recoveryInspectionPending, .recoveryRetryWait,
      .recoveryContinuationPending] := of_decide_eq_true hpending
  unfold recordInspection
  dsimp only
  simp only [if_pos hmem]
  generalize hnext : (if r.recovery.inspection.budget ≤ r.recovery.inspection.used then
    RecoveryKind.humanAttentionRequired else inspection.decided) = next
  have hnext' : next ∈ [.retryWait, .continuationPending, .humanAttentionRequired] := by
    rw [← hnext]
    split_ifs
    · decide
    · exact hdecided
  cases next with
  | humanAttentionRequired =>
    exact ⟨settled_of_recovery RecoveryKind.noConfusion, .attend hnon hused⟩
  | retryWait =>
    exact ⟨settled_of_recovery RecoveryKind.noConfusion,
      .inspect hnon rfl (.inr ⟨rfl, Life.ne_attention_of_isPending hpending⟩) hused⟩
  | continuationPending =>
    exact ⟨settled_of_recovery RecoveryKind.noConfusion,
      .inspect hnon rfl (.inr ⟨rfl, Life.ne_attention_of_isPending hpending⟩) hused⟩
  | _ => exact absurd hnext' (by decide)

theorem recordRecoveryInspection_updates {inspection : Inspection}
    (h : L.recordRecoveryInspection env dispatchId inspection now = .ok L') :
    Updates env c dispatchId L L' := by
  simp only [recordRecoveryInspection, checks_ok] at h
  obtain ⟨-, hdecided, -, -, h⟩ := h
  refine .of_onDispatch h fun r r' _ hbody hgood _ => ?_
  split at hbody
  · cases hbody
    exact .refl hgood.settled
  · simp only [steps_ok] at hbody
    obtain ⟨hkind, rfl⟩ := hbody
    exact recordInspection_refines (isPending_of_recovery hgood hkind) hdecided

theorem beginRecoveryInspection_updates {epoch : ℕ} {current : Time}
    (h : L.beginRecoveryInspection dispatchId epoch current now = .ok L') :
    Updates env c dispatchId L L' := by
  simp only [beginRecoveryInspection, bind_eq_ok] at h
  obtain ⟨-, -, h⟩ := h
  refine .of_onDispatch h fun r r' _ hbody hgood _ => ?_
  simp only [steps_ok] at hbody
  obtain ⟨-, hstate, -, -, rfl⟩ := hbody
  refine ⟨settled_of_recovery RecoveryKind.noConfusion,
    .inspect (by simp [life, hstate, QueueState.isNonterminal]) rfl (.inr ⟨rfl, ?_⟩)
      fun _ => Nat.le_refl _⟩
  simp [life, hstate]

/-- A human is asked for, unless one already is or the dispatch has ended. -/
theorem markHumanAttentionRequired_updates {reason : String} {failure : Option RetryFailureClass}
    (h : L.markHumanAttentionRequired env dispatchId reason failure now = .ok L') :
    L' = L ∨ Updates env c dispatchId L L' := by
  simp only [markHumanAttentionRequired, checks_ok] at h
  obtain ⟨-, h⟩ := h
  split at h
  · cases h
  rename_i r hget
  split at h
  · exact .inl (pure_eq_ok.1 h).symm
  split at h
  · simp only [steps_ok] at h
    obtain ⟨hearly, rfl⟩ := h
    refine .inr ⟨r, _, hget, rfl, fun _ _ => ?_⟩
    have hnon : r.queue.state.isNonterminal :=
      Life.isNonterminal_of_isEarly (decide_eq_true hearly)
    exact ⟨settled_of_recovery RecoveryKind.noConfusion, .attend hnon fun _ => Nat.le_refl _⟩
  · exact .inr (recordRecoveryInspection_updates h)

/-! ### Continuations -/

theorem resume_refines {claim : Claim} {continuation freshThread : Budget} {fresh : Bool}
    (hnon : r.queue.state.isNonterminal)
    (hc : continuation.used = r.recovery.continuation.used + 1)
    (hf : r.recovery.freshThread.used ≤ freshThread.used) :
    Refines c r (r.resume claim continuation freshThread fresh now) where
  settled := settled_of_early rfl
  step := by
    refine .resume hnon (fun k => ?_) hc
    cases k with
    | continuation =>
      show r.recovery.continuation.used ≤ continuation.used
      omega
    | freshThread => exact hf
    | _ => exact Nat.le_refl _

theorem continueOrClose_refines {claim : Claim} (hnon : r.queue.state.isNonterminal) :
    Refines c r (r.continueOrClose claim now) := by
  have hattend : ∀ reason, Refines c r (r.requireAttention reason now) := fun reason =>
    ⟨settled_of_recovery RecoveryKind.noConfusion, .attend hnon fun _ => Nat.le_refl _⟩
  unfold continueOrClose
  split_ifs
  · exact resume_refines hnon rfl (Nat.le_succ _)
  · exact hattend _
  · exact resume_refines hnon rfl (Nat.le_refl _)
  · exact hattend _

theorem beginRecoveryContinuation_updates {epoch : ℕ} {nonce : String}
    {program : DispatchId → Bool} {current : Time}
    (h : L.beginRecoveryContinuation dispatchId epoch nonce program current now = .ok L') :
    Updates env c dispatchId L L' := by
  simp only [beginRecoveryContinuation, checks_ok] at h
  obtain ⟨-, -, -, h⟩ := h
  refine .of_onDispatch h fun r r' _ hbody _ _ => ?_
  simp only [steps_ok] at hbody
  obtain ⟨-, -, hstate, -, -, rfl⟩ := hbody
  exact continueOrClose_refines (by rw [hstate]; rfl)

/-! ### Recovery actions -/

theorem withBudgets_used {p p' : RetryPolicy} {change : RetryBudgetChange}
    (h : p.withBudgets change = some p') (s : RecoveryState) :
    usedBy p' s = usedBy p s ∧ p'.strategy = p.strategy ∧
      p'.providerTransientGrantUsed = p.providerTransientGrantUsed := by
  unfold RetryPolicy.withBudgets at h
  split_ifs at h
  cases h
  exact ⟨rfl, rfl, rfl⟩

theorem revised_life {p : RetryPolicy} {change : RetryBudgetChange}
    (h : r.policy.withBudgets change = some p) :
    ({ r with policy := p.revise now } : DispatchRows).life = r.life := by
  obtain ⟨hused, hstrategy, hgranted⟩ := withBudgets_used h r.recovery
  show (⟨r.queue.state, r.queue.attempt, r.rawSha256, p.strategy, usedBy p r.recovery,
    p.providerTransientGrantUsed, r.waits⟩ : Life) = r.life
  rw [hused, hstrategy, hgranted]
  rfl

theorem grantProvider_refines {hc : r.recovery.continuation.used ≤ 4}
    (hstate : r.queue.state = .humanAttentionRequired)
    (hbudget : r.policy.providerTransient.budget ≤ 4)
    (hunused : r.policy.providerTransientGrantUsed = 0) :
    Refines .grant r (r.grantProvider hc now) where
  settled := settled_of_recovery RecoveryKind.noConfusion
  step := by
    have hused : ∀ k, r.life.used k ≤ (r.grantProvider hc now).life.used k := by
      intro k
      cases k with
      | providerTransient => exact Nat.le_trans r.policy.providerTransient.le hbudget
      | _ => exact Nat.le_refl _
    have hstep := Life.Step.grant (ℓ := r.life) hstate hused
    rw [show r.life.granted = 0 from hunused] at hstep
    exact hstep

theorem grantsProvider_unused {change : RetryBudgetChange} {providerBudget : ℕ}
    (h : r.grantsProvider change providerBudget) : r.policy.providerTransientGrantUsed = 0 := by
  simp only [grantsProvider, Bool.and_eq_true, decide_eq_true_eq] at h
  obtain ⟨⟨⟨⟨⟨⟨⟨⟨⟨⟨⟨⟨⟨⟨-, hunused⟩, -⟩, -⟩, -⟩, -⟩, -⟩, -⟩, -⟩, -⟩, -⟩, -⟩, -⟩, -⟩, -⟩ := h
  exact hunused

theorem changeBudget_refines {change : RetryBudgetChange} (hgood : r.Good env keys dispatchId)
    (hc : change.providerTransientBudget.isSome → c = .grant)
    (h : r.changeBudget change now = .ok r') : Refines c r r' := by
  unfold changeBudget at h
  split at h
  · cases h
  rename_i policy hpolicy
  split at h
  · cases h
    exact .stay hgood.settled (revised_life hpolicy) rfl
  · rename_i hbudget
    simp only [checks_ok] at h
    obtain ⟨hattention, -, -, -, hexact, h⟩ := h
    split_ifs at h
    cases h
    rw [hc (by rw [hbudget]; rfl)]
    exact grantProvider_refines hattention.1 hgood.valid.policy.2.2.2.2.1
      (grantsProvider_unused hexact)

theorem rebindCompatibility_refines {rebind : CompatibilityRebind} {activeTurn : Bool}
    (hr : r.Settled) (h : r.rebindCompatibility rebind activeTurn now = .ok r') :
    Refines c r r' := by
  simp only [rebindCompatibility, steps_ok] at h
  obtain ⟨-, -, -, -, -, -, -, rfl⟩ := h
  exact .stay hr rfl rfl

theorem awaitsHuman_state (h : r.awaitsHuman) : r.queue.state = .humanAttentionRequired :=
  of_decide_eq_true (Bool.and_eq_true_iff.1 h).1

/-- A human lets a dispatch that waits for one go. -/
theorem release_of_attention {strategy : RecoveryStrategy} {c : Cause} (hc : c.releases)
    (hstate : r.queue.state = .humanAttentionRequired) (hs : strategy = .none) :
    Life.Step c r.life
      { r.life with state := .queued, attempt := r.life.attempt + 1, strategy := strategy } := by
  refine .release hc ?_ ?_ (.inl hs)
  · show ¬r.queue.state.isTerminal
    rw [hstate]
    decide
  · intro hcancelled
    exact absurd (hstate.symm.trans hcancelled) (by decide)

theorem cancelAction_refines (hr : r.Settled) (h : L.cancelAction now r = .ok r') :
    Refines c r r' := by
  unfold cancelAction at h
  split at h
  · cases h
    exact .stay hr rfl rfl
  · simp only [checks_ok] at h
    exact cancelQueueRow_refines hr h.2

/-- Only a retry releases, and only a change of the provider ceiling grants. -/
def RecoveryAction.cause (action : RecoveryAction) : Cause :=
  if action.actionKind = .retry then .action
  else if action.requestedBudget.any (·.providerTransientBudget.isSome) then .grant
  else .other

theorem actionEffect_refines {action : RecoveryAction} {activeTurn : Bool}
    (hgood : r.Good env keys dispatchId)
    (h : L.actionEffect action activeTurn now r = .ok r') : Refines action.cause r r' := by
  unfold actionEffect at h
  split at h
  · rename_i hkind
    split at h
    · rename_i change hchange
      refine changeBudget_refines hgood (fun hprovider => ?_) h
      simp [RecoveryAction.cause, hkind, hchange, hprovider]
    · cases h
  · rename_i hkind
    simp only [steps_ok] at h
    obtain ⟨hawaits, rfl⟩ := h
    have hcause : action.cause = .action := if_pos hkind
    rw [hcause]
    exact ⟨settled_of_early rfl, release_of_attention rfl (awaitsHuman_state hawaits) rfl⟩
  · split at h
    · exact rebindCompatibility_refines hgood.settled h
    · cases h
  · exact cancelAction_refines hgood.settled h

theorem applyRecoveryAction_updates {action : RecoveryAction} {activeTurn : Bool}
    (h : L.applyRecoveryAction env dispatchId action activeTurn now = .ok L') :
    L' = L ∨ Updates env action.cause dispatchId L L' := by
  simp only [applyRecoveryAction, checks_ok] at h
  obtain ⟨-, -, -, -, -, -, h⟩ := h
  split at h
  · simp only [steps_ok] at h
    exact .inl h.2.2.symm
  · refine .inr (.of_onDispatch h fun r r' _ hbody hgood _ => ?_)
    simp only [steps_ok] at hbody
    obtain ⟨-, -, -, applied, happlied, rfl⟩ := hbody
    obtain ⟨hsettled, hstep⟩ := actionEffect_refines hgood happlied
    exact ⟨hsettled, hstep⟩

/-! ### Controller actions -/

def ControllerAction.isRetry : ControllerAction → Bool
  | .retryDispatch _ => true
  | _ => false

theorem controllerEffect_refines {action : ControllerAction} (hr : r.Settled)
    (hc : action.isRetry → c.releases)
    (h : L.controllerEffect now r action = .ok r') : Refines c r r' := by
  cases action with
  | acknowledgeOnly =>
    cases h
    exact .refl hr
  | requireHumanAttention =>
    cases h
    exact .refl hr
  | rearmCheckpoint duration =>
    cases h
    exact .stay hr rfl rfl
  | changeRetryBudget control change =>
    dsimp only [controllerEffect] at h
    split at h
    · cases h
    · rename_i policy hpolicy
      cases h
      exact .stay hr (revised_life hpolicy) rfl
  | retryDispatch control =>
    simp only [controllerEffect, steps_ok] at h
    obtain ⟨hstate, rfl⟩ := h
    exact ⟨settled_of_early rfl, release_of_attention (hc rfl) hstate rfl⟩
  | cancelDispatch control =>
    simp only [controllerEffect, bind_eq_ok, pure_eq_ok] at h
    obtain ⟨cancelled, hcancelled, rfl⟩ := h
    obtain ⟨hsettled, hstep⟩ := cancelQueueRow_refines (c := c) hr hcancelled
    exact ⟨hsettled, hstep⟩

theorem controllerEffect_frame {action : ControllerAction} (hcontrol : action.control = none)
    (h : L.controllerEffect now r action = .ok r') :
    r'.life = r.life ∧ r'.recovery.recoveryState = r.recovery.recoveryState := by
  cases action with
  | acknowledgeOnly => cases h; exact ⟨rfl, rfl⟩
  | requireHumanAttention => cases h; exact ⟨rfl, rfl⟩
  | rearmCheckpoint duration => cases h; exact ⟨rfl, rfl⟩
  | _ => cases hcontrol

theorem controllerEffects_frame {actions : List ControllerAction}
    (hcontrols : actions.filterMap (·.control) = [])
    (h : L.controllerEffects dispatchId now actions r = .ok r') :
    r'.life = r.life ∧ r'.recovery.recoveryState = r.recovery.recoveryState := by
  induction actions generalizing r with
  | nil =>
    cases h
    exact ⟨rfl, rfl⟩
  | cons action actions ih =>
    simp only [controllerEffects, checks_ok] at h
    obtain ⟨-, r₁, hfirst, hrest⟩ := h
    have hnone : action.control = none :=
      List.filterMap_eq_nil_iff.1 hcontrols action List.mem_cons_self
    rw [List.filterMap_cons_none hnone] at hcontrols
    obtain ⟨hlife, hkind⟩ := ih hcontrols hrest
    obtain ⟨hlife₁, hkind₁⟩ := controllerEffect_frame hnone hfirst
    exact ⟨hlife.trans hlife₁, hkind.trans hkind₁⟩

/-- A bundle with at most one recovery action takes one step: the actions before and after it are
not seen by the life. -/
theorem controllerEffects_refines {actions : List ControllerAction} (hr : r.Settled)
    (hc : ∀ action ∈ actions, action.isRetry → c.releases)
    (hone : (actions.filterMap (·.control)).length ≤ 1)
    (h : L.controllerEffects dispatchId now actions r = .ok r') : Refines c r r' := by
  induction actions generalizing r with
  | nil =>
    cases h
    exact .refl hr
  | cons action actions ih =>
    simp only [controllerEffects, checks_ok] at h
    obtain ⟨-, r₁, hfirst, hrest⟩ := h
    cases hcontrol : action.control with
    | none =>
      rw [List.filterMap_cons_none hcontrol] at hone
      obtain ⟨hlife, hkind⟩ := controllerEffect_frame hcontrol hfirst
      obtain ⟨hsettled, hstep⟩ := ih (hr.congr hkind (congrArg Life.state hlife))
        (fun a ha => hc a (List.mem_cons_of_mem _ ha)) hone hrest
      exact ⟨hsettled, hlife ▸ hstep⟩
    | some control =>
      rw [List.filterMap_cons_some hcontrol, List.length_cons] at hone
      have hnil : actions.filterMap (·.control) = [] :=
        List.length_eq_zero_iff.1 (Nat.le_zero.1 (Nat.le_of_succ_le_succ hone))
      obtain ⟨hlife, hkind⟩ := controllerEffects_frame hnil hrest
      obtain ⟨hsettled, hstep⟩ :=
        controllerEffect_refines hr (hc action List.mem_cons_self) hfirst
      exact ⟨hsettled.congr hkind (congrArg Life.state hlife), hlife ▸ hstep⟩

/-- A bundle releases when it has a retry. -/
def controllerCause (actions : List ControllerAction) : Cause :=
  if actions.any (·.isRetry) then .action else .other

theorem applyControllerActions_refines {actions : List ControllerAction} (hr : r.Settled)
    (h : L.applyControllerActions dispatchId actions now r = .ok r') :
    Refines (controllerCause actions) r r' := by
  simp only [applyControllerActions, checks_ok] at h
  obtain ⟨-, hone, -, -, heffects⟩ := h
  refine controllerEffects_refines hr (fun action haction hretry => ?_) hone heffects
  unfold controllerCause
  rw [if_pos (List.any_eq_true.2 ⟨action, haction, hretry⟩)]
  rfl

/-- What an accepted commit of a bundle has found, and what it has written. -/
structure Commits (env : Env) (L : Ledger) (q : SubmitRequest) (now : Time) (d : ControllerDecision)
    (kind : WakeKind) (cycle : ℕ) (dispatchId : DispatchId) (r r' : DispatchRows) : Prop where
  decisionId : q.bundle.decisionId = .dispatch dispatchId kind cycle
  fresh : L.findOutbox q.bundle.actionId = none
  rows : L.dispatches.get? dispatchId = some r
  decision : r.decision? kind cycle = some d
  inspected : q.allowRecovered → q.isInspected env d
  authorized : q.authorize env now d = .ok ()
  body : L.commitBundle env dispatchId kind cycle q now d r = .ok r'

theorem submitControllerActions_cases {q : SubmitRequest}
    (h : L.submitControllerActions env q now = .ok L') :
    q.check env = .ok () ∧
      ((L' = L ∧ ∃ found, L.findOutbox q.bundle.actionId = some found ∧
          q.replay env (L.decisionAt q.bundle.decisionId) found = .ok ()) ∨
        ∃ dispatchId kind cycle d r r', Commits env L q now d kind cycle dispatchId r r' ∧
          L' = { L with dispatches := L.dispatches.set dispatchId r' }) := by
  simp only [submitControllerActions, checks_ok] at h
  obtain ⟨⟨⟩, hcheck, hinspected, h⟩ := h
  refine ⟨hcheck, ?_⟩
  split at h
  · rename_i found hfound
    simp only [bind_eq_ok, pure_eq_ok] at h
    obtain ⟨⟨⟩, hreplay, rfl⟩ := h
    exact .inl ⟨rfl, found, hfound, hreplay⟩
  · rename_i hfresh
    split at h
    · cases h
    · rename_i d hd
      simp only [bind_eq_ok] at h
      obtain ⟨⟨⟩, hauthorized, h⟩ := h
      split at h
      · simp only [bind_eq_ok] at h
        obtain ⟨-, -, h⟩ := h
        cases h
      · rename_i dispatchId kind cycle hid
        obtain ⟨r, r', hr, hbody, rfl⟩ := onDispatch_ok.1 h
        rw [hid] at hd hinspected
        have hdecision : r.decision? kind cycle = some d := by
          simpa [decisionAt, hr] using hd
        refine .inr ⟨dispatchId, kind, cycle, d, r, r', ⟨hid, hfresh, hr, hdecision, ?_,
          hauthorized, hbody⟩, rfl⟩
        intro hrecovered
        simpa [hd] using hinspected hrecovered

theorem commitBundle_refines {kind : WakeKind} {cycle : ℕ} {q : SubmitRequest}
    {d : ControllerDecision} (hr : r.Settled)
    (h : L.commitBundle env dispatchId kind cycle q now d r = .ok r') :
    Refines (controllerCause q.bundle.actions) r r' := by
  simp only [commitBundle, checks_ok] at h
  obtain ⟨-, r₁, happlied, h⟩ := h
  obtain ⟨hsettled, hstep⟩ := applyControllerActions_refines hr happlied
  split at h
  · cases h
  · simp only [steps_ok] at h
    obtain ⟨-, rfl⟩ := h
    exact ⟨hsettled, hstep⟩

theorem submitControllerActions_updates {q : SubmitRequest}
    (h : L.submitControllerActions env q now = .ok L') :
    L' = L ∨ ∃ d kind cycle, q.bundle.decisionId = .dispatch d kind cycle ∧
      Updates env (controllerCause q.bundle.actions) d L L' := by
  obtain ⟨-, ⟨rfl, -⟩ | ⟨dispatchId, kind, cycle, d, r, r', hcommits, rfl⟩⟩ :=
    submitControllerActions_cases h
  · exact .inl rfl
  · exact .inr ⟨dispatchId, kind, cycle, hcommits.decisionId, r, r', hcommits.rows, rfl,
      fun hgood _ => commitBundle_refines hgood.settled hcommits.body⟩

end CodexFlow.Ledger
