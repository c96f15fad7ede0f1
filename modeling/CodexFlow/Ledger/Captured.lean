import CodexFlow.Ledger.Withdrawn

/-!
# Captured repairs

A control repair that completes its turn has the facts of its workspace captured. Until a result is
bound to the capture, the rows of the dispatch are valid in six states only, and no call of recovery
that leaves them commits.
-/

namespace CodexFlow.Ledger

open Checked DispatchRows

variable {env : Env} {L L' : Ledger} {dispatchId : DispatchId} {r r' s : DispatchRows} {op : Op}
  {keys : List DispatchId} {now : Time} {i : TerminalIntegrity}

/-! ### The states of a capture -/

def QueueState.holdsCapture (s : QueueState) : Bool :=
  s ∈ [.starting, .running, .recoveryInspectionPending, .recoveryRetryWait,
    .recoveryContinuationPending, .humanAttentionRequired]

/-- A completed turn was captured, and no result was ingested for it. -/
def DispatchRows.Unbound (r : DispatchRows) (capture : TerminalCapture) : Prop :=
  r.integrity = some ⟨capture, none⟩

def Op.recovers (dispatchId : DispatchId) : Op → Bool
  | .retryDispatch d _ _ _ _ => d = dispatchId
  | .action d a _ _ => d = dispatchId && (a.actionKind = .retry || a.actionKind = .cancel)
  | .cancel d _ _ => d = dispatchId
  | .recover d _ _ _ => d = dispatchId
  | .beginContinuation d _ _ _ _ _ => d = dispatchId
  | .retryFailure d _ _ _ => d = dispatchId
  | _ => false

def Wake.namesState (w : Wake) : Bool :=
  match w.payload with
  | .terminal _ _ | .rearmed _ _ => true
  | _ => false

/-- The rows stay valid when the dispatch is left to a human. -/
def DispatchRows.attendable (r : DispatchRows) : Bool :=
  r.queue.state = .humanAttentionRequired || r.wakes.all (!·.namesState)

/-- The call is a replay, or leaves the dispatch in a state that holds the capture and in which the
rest of its rows is valid. -/
def Spares (env : Env) (L : Ledger) (r : DispatchRows) : Op → Prop
  | .action _ a _ _ => (L.findControl a.actionId).isSome ∨
      a.actionKind = .cancel ∧ r.liveness.any (·.exitedAt.isNone) ∧
        !env.isBlank (env.redactControlText a.reason) ∧
        (env.redactControlText a.reason).utf8ByteSize ≤ 512
  | .beginContinuation _ _ _ _ _ _ => ¬r.mayContinue ∧ r.attendable
  | .retryFailure _ failure _ _ => r.policy.strategy = .humanAttention ∨
      if (r.policy.charge failure).isSome then
        failure = .preIdentityTransport → r.liveness.any (·.exitedAt.isNone)
      else r.attendable
  | _ => False

/-! ### Rows that hold a capture -/

theorem holdsCapture_of_valid (h : r.Valid env keys dispatchId) (hi : r.integrity = some i)
    (hnone : i.resultSha256 = none) : r.queue.state.holdsCapture :=
  decide_eq_true ((h.integrity i hi).2.1 hnone).2.2

theorem isNonterminal_of_holdsCapture {state : QueueState} (h : state.holdsCapture) :
    state.isNonterminal := by
  revert h
  cases state <;> decide

theorem not_valid_of_state (hi : r.integrity = some i) (hnone : i.resultSha256 = none)
    (hstate : r.queue.state.holdsCapture = false) : ¬r.Valid env keys dispatchId := by
  intro h
  rw [holdsCapture_of_valid h hi hnone] at hstate
  cases hstate

theorem revised_valid (h : r.Valid env keys dispatchId) {policy : RetryPolicy}
    {recovery : RecoveryState} (hpolicy : DispatchRows.PolicyValid { r with policy := policy })
    (hrecovery : DispatchRows.RecoveryValid { r with recovery := recovery }) :
    DispatchRows.Valid env keys dispatchId
      { r with policy := policy, recovery := recovery } where
  integrity := h.integrity
  result := h.result
  capability := h.capability
  queue := h.queue
  outbox := h.outbox
  liveness := h.liveness
  successors := h.successors
  wakes := h.wakes
  recovery := hrecovery
  policy := hpolicy
  controls := h.controls
  decisions := h.decisions

def DispatchRows.attendedWith (r : DispatchRows) (policy : RetryPolicy) (reason : String)
    (now : Time) : DispatchRows :=
  { r with
    policy := policy
    recovery := r.recovery.requireAttention reason now
    queue := r.queue.moveTo .humanAttentionRequired now }

section Attended

variable {policy : RetryPolicy} {reason : String}

theorem payloadValid_attended {w : Wake} (h : r.payloadValid w) :
    (r.attendedWith policy reason now).payloadValid w ↔
      r.queue.state = .humanAttentionRequired ∨ !w.namesState := by
  have hraw : (r.attendedWith policy reason now).rawSha256 = r.rawSha256 := rfl
  have hmoved : (r.attendedWith policy reason now).queue.state = .humanAttentionRequired := rfl
  have hcreated : (r.attendedWith policy reason now).queue.createdAt = r.queue.createdAt := rfl
  unfold payloadValid at h ⊢
  unfold Wake.namesState
  rw [hraw, hmoved, hcreated]
  split at h
  · rename_i state digest _ hpayload
    simp only [Bool.and_eq_true, decide_eq_true_eq] at h
    simp [hpayload, h.1, h.2]
  · rename_i hpayload
    simp [hpayload]
  · rename_i state _ _ hpayload
    simp only [Bool.and_eq_true, decide_eq_true_eq] at h
    rw [hpayload, h.1]
    constructor
    · intro hstate
      exact .inl (of_decide_eq_true (Bool.and_eq_true _ _ ▸ hstate).1)
    · rintro (hstate | hstate)
      · rw [hstate]
        rfl
      · cases hstate
  · rename_i hpayload
    simpa [hpayload] using h
  · cases h

theorem wakeValid_attended {w : Wake} (h : r.WakeValid w) :
    (r.attendedWith policy reason now).WakeValid w ↔
      r.queue.state = .humanAttentionRequired ∨ !w.namesState := by
  obtain ⟨hcycle, hdecision, hsource, hthread, hturn, hattempts, hpending, hfailed, hpayload⟩ := h
  rw [← @payloadValid_attended r now policy reason w hpayload]
  exact ⟨fun h => h.2.2.2.2.2.2.2.2,
    fun h => ⟨hcycle, hdecision, hsource, hthread, hturn, hattempts, hpending, hfailed, h⟩⟩

theorem attended_valid (h : r.Valid env keys dispatchId) (hstate : r.queue.state.holdsCapture)
    (hpolicy : DispatchRows.PolicyValid { r with policy := policy }) :
    (r.attendedWith policy reason now).Valid env keys dispatchId ↔ r.attendable := by
  have hactive := isNonterminal_of_holdsCapture hstate
  have hopen : r.queue.state ∉ [.resultSubmitted, .finalizing, .completed, .failed] := by
    generalize r.queue.state = state at hstate
    revert hstate
    cases state <;> decide
  have hunended : ¬r.queue.state.isTerminal := Life.isTerminal_of_isNonterminal hactive
  have hheld : QueueState.humanAttentionRequired ∈ [QueueState.starting, .running,
      .recoveryInspectionPending, .recoveryRetryWait, .recoveryContinuationPending,
      .humanAttentionRequired] := by decide
  have hbinds : [QueueState.resultSubmitted, .completed, .failed] ⊆
      [.resultSubmitted, .finalizing, .completed, .failed] := by decide
  obtain ⟨hraw, hterminal⟩ := h.queue.2.2.2.1 hactive
  constructor
  · intro hvalid
    by_cases hhuman : r.queue.state = .humanAttentionRequired
    · simp [attendable, hhuman]
    · have hnone : ∀ w ∈ r.wakes, !w.namesState := fun w hw =>
        ((wakeValid_attended (h.wakes.1 w hw)).1 (hvalid.wakes.1 w hw)).resolve_left hhuman
      simpa [attendable, hhuman] using hnone
  · intro hattendable
    have hwake : ∀ w ∈ r.wakes, (r.attendedWith policy reason now).WakeValid w := by
      intro w hw
      refine (wakeValid_attended (h.wakes.1 w hw)).2 ?_
      simp only [attendable, Bool.or_eq_true, decide_eq_true_eq, List.all_eq_true] at hattendable
      exact hattendable.imp_right fun h => h w hw
    obtain ⟨-, hcycles, hperm, hsingle, -, -⟩ := h.wakes
    obtain ⟨hprofile, hkey, hinspection, hcontinuation, hfresh, -, -, -⟩ := h.recovery
    exact
      { integrity := fun i hi => by
          obtain ⟨hrepair, hunbound, hbound⟩ := h.integrity i hi
          refine ⟨hrepair, fun hnone => ?_, fun hsome => ?_⟩
          · exact ⟨(hunbound hnone).1, (hunbound hnone).2.1, hheld⟩
          · exact absurd (hbinds (hbound hsome).1) hopen
        result := nofun
        capability := fun c hc => by
          obtain ⟨hgeneration, hattempt, hbackend, hpath, hschema, hboth, -, hconsumed⟩ :=
            h.capability c hc
          refine ⟨hgeneration, hattempt, hbackend, hpath, hschema, hboth, nofun, fun hsome => ?_⟩
          exact absurd (hconsumed hsome).1 hopen
        queue := ⟨h.queue.1, h.queue.2.1, nofun, fun _ => ⟨hraw, hterminal⟩, nofun⟩
        outbox := ⟨nofun, nofun, h.outbox.2.2⟩
        liveness := fun l hl => ⟨(h.liveness l hl).1, (h.liveness l hl).2.1, nofun, nofun⟩
        successors := ⟨h.successors.1, fun a ha => by
          obtain ⟨hne, hmem, hreleased⟩ := h.successors.2 a ha
          exact ⟨hne, hmem, fun hsome => absurd (hreleased hsome) hunended⟩⟩
        wakes := ⟨hwake, hcycles, hperm, hsingle, nofun, nofun⟩
        recovery := ⟨hprofile, hkey, hinspection, hcontinuation, hfresh, rfl, rfl, fun _ hs => by
          cases hs
          rfl⟩
        policy := hpolicy
        controls := h.controls
        decisions := h.decisions }

end Attended

/-! ### Charged failures -/

theorem charge_budgets {p : RetryPolicy} {failure : RetryFailureClass} {charge : Charge}
    (hcharge : p.charge failure = some charge) :
    charge.policy.preIdentity.budget = p.preIdentity.budget ∧
      charge.policy.invalidChain.budget = p.invalidChain.budget ∧
      charge.policy.schemaEnvelope.budget = p.schemaEnvelope.budget ∧
      charge.policy.postIdentityLoss.budget = p.postIdentityLoss.budget ∧
      charge.policy.providerTransient.budget = p.providerTransient.budget ∧
      charge.policy.humanAttentionReason = p.humanAttentionReason := by
  obtain ⟨column, hcolumn, hcharge⟩ := Option.bind_eq_some_iff.1 hcharge
  split_ifs at hcharge
  cases hcharge
  cases failure <;> cases hcolumn <;> exact ⟨rfl, rfl, rfl, rfl, rfl, rfl⟩

def DispatchRows.charged (r : DispatchRows) (failure : RetryFailureClass) (evidence : RetryEvidence)
    (charge : Charge) (eligible : Option Time) (now : Time) : DispatchRows :=
  { r with
    policy := { charge.policy with
      revision := r.policy.revision + 1, lastFailure := some failure,
      strategy := charge.strategy, nextEligibleAt := eligible,
      priorThreadId := evidence.priorThreadId, priorTurnId := evidence.priorTurnId,
      updatedAt := now }
    recovery := r.recovery.prepareFor failure r.policy.providerTransient.budget now }

theorem charged_valid (h : r.Valid env keys dispatchId) {failure : RetryFailureClass}
    {evidence : RetryEvidence} {charge : Charge} {eligible : Option Time}
    (hcharge : r.policy.charge failure = some charge)
    (hstrategy : r.policy.strategy ≠ .humanAttention) :
    (r.charged failure evidence charge eligible now).Valid env keys dispatchId := by
  obtain ⟨hpre, hchain, hschema, hloss, hprovider, hgrant, hlimit, hreason⟩ := h.policy
  obtain ⟨h₁, h₂, h₃, h₄, h₅, h₆⟩ := charge_budgets hcharge
  have hfor := RetryPolicy.charge_for hcharge
  obtain ⟨hprofile, hkey, hinspection, hcontinuation, hfresh, hhuman, heligible, hqueue⟩ := h.recovery
  refine revised_valid h ?_ ?_
  · refine ⟨h₁ ▸ hpre, h₂ ▸ hchain, h₃ ▸ hschema, h₄ ▸ hloss, h₅ ▸ hprovider,
      hfor.granted ▸ hgrant, ?_, ?_⟩
    · show charge.policy.providerTransient.budget ≤ 3 + charge.policy.providerTransientGrantUsed
      rw [h₅, hfor.granted]
      exact hlimit
    · show charge.policy.humanAttentionReason.isSome = decide (charge.strategy = .humanAttention)
      rw [h₆, hreason, decide_eq_false hstrategy, decide_eq_false hfor.strategy]
  · unfold RecoveryState.prepareFor
    split
    · split_ifs
      · exact ⟨hprofile, hkey, hinspection, hcontinuation, max_le hfresh (by decide), hhuman,
          heligible, hqueue⟩
      · exact h.recovery
    · exact ⟨hprofile, hkey, hinspection, max_le hcontinuation (hprovider.trans (by decide)), hfresh,
        hhuman, heligible, hqueue⟩
    · exact h.recovery

theorem liveness_any (r : DispatchRows) :
    r.liveness.any (·.exitedAt.isNone) = !r.liveness.all (·.exitedAt.isSome) := by
  cases r.liveness with
  | none => rfl
  | some l => cases hexited : l.exitedAt <;> simp [hexited]

/-- A charged failure spares the capture unless it releases a new attempt. -/
theorem recordCharge_valid_iff (h : r.Valid env keys dispatchId) (hi : r.integrity = some i)
    (hnone : i.resultSha256 = none) {failure : RetryFailureClass} {evidence : RetryEvidence}
    {charge : Charge} (hcharge : r.policy.charge failure = some charge)
    (hstrategy : r.policy.strategy ≠ .humanAttention) :
    (r.recordCharge env dispatchId failure evidence charge now).Valid env keys dispatchId ↔
      (failure = .preIdentityTransport → r.liveness.any (·.exitedAt.isNone)) := by
  have hstate := holdsCapture_of_valid h hi hnone
  have hunqueued : r.queue.state ≠ .queued := by
    intro hqueued
    rw [hqueued] at hstate
    cases hstate
  have hvalid := fun eligible => @charged_valid env dispatchId r keys now h failure evidence charge
    eligible hcharge hstrategy
  unfold recordCharge
  dsimp only
  split
  · rename_i hfailure
    split
    · rename_i hidle
      have hexited : r.liveness.all (·.exitedAt.isSome) := (Bool.and_eq_true _ _ ▸ hidle).2
      refine ⟨fun hreleased => absurd hreleased (not_valid_of_state hi hnone rfl), fun hlive => ?_⟩
      rw [liveness_any, hexited] at hlive
      exact absurd (hlive hfailure) (by decide)
    · rename_i hlive
      refine ⟨fun _ _ => ?_, fun _ => hvalid _⟩
      rw [liveness_any]
      simpa [hunqueued] using hlive
  · rename_i hfailure
    rw [if_neg (by simp [hunqueued])]
    exact ⟨fun _ h => absurd h hfailure, fun _ => hvalid _⟩

/-! ### The calls of recovery -/

theorem set_valid_iff (hL : L.Valid env) (hr : L.dispatches.get? dispatchId = some r) :
    Valid env { L with dispatches := L.dispatches.set dispatchId r' } ↔
      r'.Valid env L.dispatches.keys dispatchId := by
  constructor
  · intro h
    have hrows := h.rows (Table.get?_set_self hr r')
    rwa [Table.keys_set] at hrows
  · exact valid_set hL

theorem recordRetryFailure_spares (hL : L.Valid env)
    (hr : L.dispatches.get? dispatchId = some r) (hi : r.integrity = some i)
    (hnone : i.resultSha256 = none) {failure : RetryFailureClass} {evidence : RetryEvidence}
    (h : L.recordRetryFailure env dispatchId failure evidence now = .ok L') :
    L'.Valid env ↔ L.Spares env r (.retryFailure dispatchId failure evidence now) := by
  have hrows := hL.rows hr
  simp only [recordRetryFailure, checks_ok] at h
  obtain ⟨-, -, h⟩ := h
  obtain ⟨r₀, r', hr₀, hbody, rfl⟩ := onDispatch_ok.1 h
  obtain rfl := Option.some.inj (hr.symm.trans hr₀)
  rw [set_valid_iff hL hr]
  simp only [checks_ok] at hbody
  obtain ⟨-, hbody⟩ := hbody
  dsimp only [Spares]
  split at hbody
  · rename_i hhuman
    obtain rfl := pure_eq_ok.1 hbody
    exact ⟨fun _ => .inl hhuman, fun _ => hrows⟩
  rename_i hstrategy
  rw [or_iff_right hstrategy]
  split at hbody
  · rename_i charge hcharge
    obtain rfl := pure_eq_ok.1 hbody
    rw [recordCharge_valid_iff hrows hi hnone hcharge hstrategy, hcharge]
    rfl
  · rename_i hcharge
    simp only [steps_ok] at hbody
    obtain ⟨-, rfl⟩ := hbody
    rw [hcharge]
    obtain ⟨hpre, hchain, hschema, hloss, hprovider, hgrant, hlimit, -⟩ := hrows.policy
    exact attended_valid hrows (holdsCapture_of_valid hrows hi hnone)
      ⟨hpre, hchain, hschema, hloss, hprovider, hgrant, hlimit, rfl⟩

theorem beginRecoveryContinuation_spares (hL : L.Valid env)
    (hr : L.dispatches.get? dispatchId = some r) (hi : r.integrity = some i)
    (hnone : i.resultSha256 = none) {epoch : ℕ} {nonce : String} {program : DispatchId → Bool}
    {current : Time}
    (h : L.beginRecoveryContinuation dispatchId epoch nonce program current now = .ok L') :
    L'.Valid env ↔
      L.Spares env r (.beginContinuation dispatchId epoch nonce program current now) := by
  have hrows := hL.rows hr
  simp only [beginRecoveryContinuation, requireLiveHarness, checks_ok] at h
  obtain ⟨-, -, h⟩ := h
  obtain ⟨r₀, r', hr₀, hbody, rfl⟩ := onDispatch_ok.1 h
  obtain rfl := Option.some.inj (hr.symm.trans hr₀)
  rw [set_valid_iff hL hr]
  simp only [steps_ok] at hbody
  obtain ⟨-, -, -, -, -, rfl⟩ := hbody
  obtain ⟨hpre, hchain, hschema, hloss, hprovider, hgrant, hlimit, -⟩ := hrows.policy
  have hattended : ∀ reason, (r.requireAttention reason current).Valid env L.dispatches.keys
      dispatchId ↔ r.attendable := fun _ =>
    attended_valid hrows (holdsCapture_of_valid hrows hi hnone)
      ⟨hpre, hchain, hschema, hloss, hprovider, hgrant, hlimit, rfl⟩
  have hresumed : ∀ continuation freshThread fresh,
      ¬(r.resume ⟨epoch, nonce⟩ continuation freshThread fresh current).Valid env
        L.dispatches.keys dispatchId := fun _ _ _ => not_valid_of_state hi hnone rfl
  dsimp only [Spares, mayContinue]
  unfold continueOrClose
  split_ifs with hcontinuation hidle hfresh
  · exact ⟨fun h => absurd h (hresumed _ _ _), fun h => absurd ⟨hcontinuation, fun _ => hfresh⟩ h.1⟩
  · rw [hattended]
    exact ⟨fun h => ⟨fun hmay => hfresh (hmay.2 hidle), h⟩, And.right⟩
  · exact ⟨fun h => absurd h (hresumed _ _ _),
      fun h => absurd ⟨hcontinuation, fun hfresh => absurd hfresh hidle⟩ h.1⟩
  · rw [hattended]
    exact ⟨fun h => ⟨fun hmay => hcontinuation hmay.1, h⟩, And.right⟩

/-- A recorded cancellation leaves valid rows when its redacted reason is bounded. -/
theorem withdrawn_valid_iff (h : r.Valid env keys dispatchId) {action : RecoveryAction}
    (hkind : action.actionKind = .cancel) (hpayload : action.requirePayload = .ok ()) :
    DispatchRows.Valid env keys dispatchId
        { r with
          policy := r.policy.revise now, controls := r.controls ++ [action.control env now] } ↔
      !env.isBlank (env.redactControlText action.reason) ∧
        (env.redactControlText action.reason).utf8ByteSize ≤ 512 := by
  simp only [RecoveryAction.requirePayload, checks_ok] at hpayload
  obtain ⟨-, hbudget, -, hrebind⟩ := hpayload
  constructor
  · intro hvalid
    obtain ⟨-, hblank, hbound, -⟩ :=
      hvalid.controls (action.control env now) (List.mem_append_right _ List.mem_cons_self)
    exact ⟨hblank, hbound⟩
  · rintro ⟨hblank, hbound⟩
    have hbudgetNone : action.requestedBudget.isSome = false := by
      simpa using hbudget (by rw [hkind]; decide)
    have hrebindNone : action.compatibilityRebind.isSome = false := by
      simpa using hrebind (by rw [hkind]; decide)
    have hpolicy : DispatchRows.PolicyValid { r with policy := r.policy.revise now } := h.policy
    exact
      { revised_valid h hpolicy h.recovery with
        controls := fun a ha => by
          obtain ha | ha := List.mem_append.1 ha
          · exact h.controls a ha
          · obtain rfl := List.mem_singleton.1 ha
            refine ⟨rfl, hblank, hbound, ?_, ?_⟩
            · show action.requestedBudget.isSome = decide (action.actionKind = .budgetChange)
              rw [hbudgetNone, hkind]
              rfl
            · show action.compatibilityRebind.isSome =
                decide (action.actionKind = .compatibilityRebind)
              rw [hrebindNone, hkind]
              rfl }

theorem applyRecoveryAction_spares (hL : L.Valid env)
    (hr : L.dispatches.get? dispatchId = some r) (hi : r.integrity = some i)
    (hnone : i.resultSha256 = none) {action : RecoveryAction} {activeTurn : Bool}
    (hkind : action.actionKind ∈ [.retry, .cancel])
    (h : L.applyRecoveryAction env dispatchId action activeTurn now = .ok L') :
    L'.Valid env ↔ L.Spares env r (.action dispatchId action activeTurn now) := by
  have hrows := hL.rows hr
  have hheld := holdsCapture_of_valid hrows hi hnone
  simp only [applyRecoveryAction, checks_ok] at h
  obtain ⟨-, -, _, hpayload, -, -, h⟩ := h
  dsimp only [Spares]
  split at h
  · rename_i hfound
    simp only [steps_ok] at h
    obtain ⟨-, -, rfl⟩ := h
    rw [hfound]
    exact ⟨fun _ => .inl rfl, fun _ => hL⟩
  rename_i hfresh
  rw [hfresh, or_iff_right (by simp)]
  obtain ⟨r₀, r', hr₀, hbody, rfl⟩ := onDispatch_ok.1 h
  obtain rfl := Option.some.inj (hr.symm.trans hr₀)
  rw [set_valid_iff hL hr]
  simp only [steps_ok] at hbody
  obtain ⟨-, hrevision, -, applied, happlied, rfl⟩ := hbody
  unfold actionEffect at happlied
  obtain hretry | hcancel : action.actionKind = .retry ∨ action.actionKind = .cancel := by
    simpa using hkind
  · rw [hretry] at happlied ⊢
    simp only [steps_ok] at happlied
    obtain ⟨-, rfl⟩ := happlied
    exact ⟨fun h => absurd h (not_valid_of_state hi hnone rfl), fun h => nomatch h.1⟩
  · rw [hcancel] at happlied ⊢
    unfold cancelAction at happlied
    dsimp only at happlied
    split_ifs at happlied with hlive
    · obtain rfl := pure_eq_ok.1 happlied
      rw [and_iff_right rfl, and_iff_right hlive]
      exact withdrawn_valid_iff hrows hcancel hpayload
    · simp only [checks_ok] at happlied
      obtain ⟨hstate, -⟩ | ⟨-, -, rfl⟩ := cancelQueueRow_spec happlied.2
      · rw [hstate] at hheld
        cases hheld
      · exact ⟨fun h => absurd h (not_valid_of_state hi hnone rfl), fun h => absurd h.2.1 hlive⟩

/-- A call of recovery whose own checks pass commits exactly when it spares the capture. -/
theorem recovers_valid_iff (hL : L.Valid env) (hr : L.dispatches.get? dispatchId = some r)
    (hi : r.integrity = some i) (hnone : i.resultSha256 = none) (hop : op.recovers dispatchId)
    (h : L.body env op = .ok L') : L'.Valid env ↔ L.Spares env r op := by
  have hstate := holdsCapture_of_valid (hL.rows hr) hi hnone
  cases op <;> first
    | cases hop
    | skip
  case retryDispatch d strategy state reason now =>
    obtain rfl := of_decide_eq_true hop
    simp only [body, Ledger.retryDispatch, checks_ok] at h
    obtain ⟨r₀, r', hr₀, hbody, rfl⟩ := onDispatch_ok.1 h.2
    obtain rfl := Option.some.inj (hr.symm.trans hr₀)
    simp only [steps_ok] at hbody
    obtain ⟨-, rfl⟩ := hbody
    rw [set_valid_iff hL hr]
    exact ⟨not_valid_of_state hi hnone rfl, False.elim⟩
  case action d a activeTurn now =>
    simp only [Op.recovers, Bool.and_eq_true, Bool.or_eq_true, decide_eq_true_eq] at hop
    obtain ⟨rfl, hkind⟩ := hop
    exact applyRecoveryAction_spares hL hr hi hnone (by simpa using hkind) h
  case cancel d epoch now =>
    obtain rfl := of_decide_eq_true hop
    obtain ⟨r₀, r', hr₀, hbody, rfl⟩ := onDispatch_ok.1 h
    obtain rfl := Option.some.inj (hr.symm.trans hr₀)
    rw [set_valid_iff hL hr]
    obtain ⟨hcancelled, -⟩ | ⟨-, -, rfl⟩ := cancelQueueRow_spec hbody
    · rw [hcancelled] at hstate
      cases hstate
    · exact ⟨not_valid_of_state hi hnone rfl, False.elim⟩
  case recover d epoch preserve now =>
    obtain rfl := of_decide_eq_true hop
    simp only [body, recoverQueueDispatch, checks_ok] at h
    obtain ⟨r₀, r', hr₀, hbody, rfl⟩ := onDispatch_ok.1 h.2.2
    obtain rfl := Option.some.inj (hr.symm.trans hr₀)
    rw [set_valid_iff hL hr]
    split at hbody
    · rename_i hended
      exfalso
      generalize r.queue.state = state at hstate hended
      revert hstate hended
      cases state <;> decide
    · simp only [steps_ok] at hbody
      obtain ⟨-, rfl⟩ := hbody
      exact ⟨not_valid_of_state hi hnone rfl, False.elim⟩
  case retryFailure d failure evidence now =>
    obtain rfl := of_decide_eq_true hop
    exact recordRetryFailure_spares hL hr hi hnone h
  case beginContinuation d epoch nonce program current now =>
    obtain rfl := of_decide_eq_true hop
    exact beginRecoveryContinuation_spares hL hr hi hnone h

/-! ### Later attempts -/

theorem workerExit_attempt {exit : WorkerExit} :
    (r.workerExit env dispatchId exit now).integrity = r.integrity ∧
      ((r.workerExit env dispatchId exit now).queue.attempt = r.queue.attempt ∨
        (r.workerExit env dispatchId exit now).queue.state ∈ [.queued, .claimed]) := by
  have hrecorded : ((r.markExited now).recordExit exit now).queue.attempt = r.queue.attempt := by
    unfold recordExit
    dsimp only
    split_ifs <;> rfl
  unfold workerExit
  split
  · exact ⟨rfl, .inl rfl⟩
  unfold applyExitRetryPolicy
  split
  · unfold spendAtExit
    dsimp only
    split
    · exact ⟨rfl, .inr List.mem_cons_self⟩
    split <;> exact ⟨rfl, .inl hrecorded⟩
  · split_ifs
    · exact ⟨rfl, .inl hrecorded⟩
    · unfold closeAtExit
      split_ifs <;> exact ⟨rfl, .inl hrecorded⟩

theorem recordCharge_attempt {failure : RetryFailureClass} {evidence : RetryEvidence}
    {charge : Charge} :
    (r.recordCharge env dispatchId failure evidence charge now).integrity = r.integrity ∧
      ((r.recordCharge env dispatchId failure evidence charge now).queue.attempt = r.queue.attempt ∨
        (r.recordCharge env dispatchId failure evidence charge now).queue.state ∈
          [.queued, .claimed]) := by
  unfold recordCharge
  dsimp only
  split
  · split
    · exact ⟨rfl, .inr List.mem_cons_self⟩
    · exact ⟨rfl, .inl rfl⟩
  split <;> exact ⟨rfl, .inl rfl⟩

theorem recordInspection_attempt {inspection : Inspection} :
    (r.recordInspection env inspection now).integrity = r.integrity ∧
      ((r.recordInspection env inspection now).queue.attempt = r.queue.attempt ∨
        (r.recordInspection env inspection now).queue.state ∈ [.queued, .claimed]) := by
  refine ⟨rfl, .inl ?_⟩
  unfold recordInspection
  dsimp only
  split_ifs <;> rfl

theorem continueOrClose_attempt {claim : Claim} :
    (r.continueOrClose claim now).integrity = r.integrity ∧
      ((r.continueOrClose claim now).queue.attempt = r.queue.attempt ∨
        (r.continueOrClose claim now).queue.state ∈ [.queued, .claimed]) := by
  have hclaimed : QueueState.claimed ∈ [QueueState.queued, .claimed] := by decide
  unfold continueOrClose
  split_ifs
  · exact ⟨rfl, .inr hclaimed⟩
  · exact ⟨rfl, .inl rfl⟩
  · exact ⟨rfl, .inr hclaimed⟩
  · exact ⟨rfl, .inl rfl⟩

/-- A capture stays, and a call that starts a new attempt leaves the dispatch queued or claimed. -/
theorem Works.captured (h : Works env L op dispatchId r s) (hi : r.integrity = some i) :
    s.integrity.map (·.capture) = some i.capture ∧
      (s.queue.attempt = r.queue.attempt ∨ s.queue.state ∈ [.queued, .claimed]) := by
  have hcaptured : SameCapture r.integrity s.integrity →
      s.integrity.map (·.capture) = some i.capture := fun h => h.trans (by rw [hi]; rfl)
  have hkept : ∀ w, s.work = w → SameCapture r.integrity w.integrity →
      (w.attempt = r.queue.attempt ∨ w.state ∈ [.queued, .claimed]) →
      s.integrity.map (·.capture) = some i.capture ∧
        (s.queue.attempt = r.queue.attempt ∨ s.queue.state ∈ [.queued, .claimed]) := by
    rintro w rfl hcapture hattempt
    exact ⟨hcaptured hcapture, hattempt⟩
  have hmoved : ∀ t : DispatchRows, s.work = t.work → t.integrity = r.integrity ∧
      (t.queue.attempt = r.queue.attempt ∨ t.queue.state ∈ [.queued, .claimed]) →
      s.integrity.map (·.capture) = some i.capture ∧
        (s.queue.attempt = r.queue.attempt ∨ s.queue.state ∈ [.queued, .claimed]) :=
    fun t ht h => hkept _ ht (congrArg _ h.1) h.2
  cases h with
  | records _ _ h => exact hkept _ h rfl (.inl rfl)
  | claims _ _ _ _ _ _ _ _ h => exact hkept _ h rfl (.inl rfl)
  | cancels _ _ _ _ _ h => exact hkept _ h rfl (.inl rfl)
  | acknowledges _ _ _ _ _ _ _ h => exact hkept _ h rfl (.inl rfl)
  | moves _ _ _ _ _ h => exact hkept _ h rfl (.inl rfl)
  | requeues _ _ _ h => exact hkept _ h rfl (.inr List.mem_cons_self)
  | binds _ _ _ _ _ _ _ _ _ _ _ _ h => exact hkept _ h rfl (.inl rfl)
  | runs _ _ _ _ _ _ _ _ h => exact hkept _ h rfl (.inl rfl)
  | exits _ _ _ _ _ h => exact hmoved _ h workerExit_attempt
  | charges _ _ _ _ _ _ _ h => exact hmoved _ h recordCharge_attempt
  | attends _ h => exact hkept _ h rfl (.inl rfl)
  | configures _ _ _ _ _ _ h => exact hkept _ h rfl (.inl rfl)
  | inspects _ _ _ h => exact hmoved _ h recordInspection_attempt
  | reinspects _ h => exact hkept _ h rfl (.inl rfl)
  | continues _ _ _ _ _ _ _ _ h => exact hmoved _ h continueOrClose_attempt
  | grants _ _ _ _ _ _ _ _ _ _ _ h => exact hkept _ h rfl (.inl rfl)
  | results _ _ _ _ _ hcapture h => exact hkept _ h hcapture (.inl rfl)
  | ingests _ _ _ _ _ _ hcapture h => exact hkept _ h hcapture (.inl rfl)
  | finishes _ _ _ _ hcapture h => exact hkept _ h hcapture (.inl rfl)
  | captures _ _ _ _ _ hnone _ =>
    rw [hi] at hnone
    cases hnone

/-- No later attempt of a captured dispatch ever starts. -/
theorem Reachable.captured (hL : L.Reachable env) (hr : L.dispatches.get? dispatchId = some r)
    (hi : r.integrity = some i) (ops : List Op) :
    ∃ r' i', (Machine.run (Ledger.next env) L ops).dispatches.get? dispatchId = some r' ∧
      r'.integrity = some i' ∧ i'.capture = i.capture ∧ r'.queue.attempt = r.queue.attempt := by
  have hrun := @Machine.invariant _ _ (Ledger.next env) (fun L : Ledger => L.Reachable env ∧
    ∃ r' i', L.dispatches.get? dispatchId = some r' ∧ r'.integrity = some i' ∧
      i'.capture = i.capture ∧ r'.queue.attempt = r.queue.attempt) ?_ L
    ⟨hL, r, i, hr, hi, rfl, rfl⟩ ops
  · exact hrun.2
  rintro L op ⟨hL, r₀, i₀, hr₀, hi₀, hcapture, hattempt⟩
  refine ⟨hL.next op, ?_⟩
  obtain ⟨s, hs, hworks⟩ := next_works env op hr₀
  obtain ⟨hkept, hsame⟩ := hworks.captured hi₀
  obtain ⟨j, hj, hcaptured⟩ := Option.map_eq_some_iff.1 hkept
  refine ⟨s, j, hs, hj, hcaptured.trans hcapture, ?_⟩
  obtain hsame | hstate := hsame
  · exact hsame.trans hattempt
  · exfalso
    obtain ⟨-, hunbound, hbound⟩ := ((hL.next op).valid.rows hs).integrity j hj
    cases hdigest : j.resultSha256 with
    | none =>
      have hheld := (hunbound hdigest).2.2
      generalize s.queue.state = state at hheld hstate
      revert hheld hstate
      cases state <;> decide
    | some digest =>
      have hended := (hbound (by rw [hdigest]; rfl)).1
      generalize s.queue.state = state at hended hstate
      revert hended hstate
      cases state <;> decide

/-! ### Recovery of a captured repair -/

/-- The checks that the call itself makes pass. -/
def Checks (env : Env) (L : Ledger) (op : Op) : Prop := ∃ L', L.body env op = .ok L'

/-- The transaction of the call commits. -/
def Accepts (env : Env) (L : Ledger) (op : Op) : Prop := ∃ L', L.perform env op = .ok L'

theorem accepts_iff (hL : L.Valid env) :
    L.Accepts env op ↔ ∃ L', L.body env op = .ok L' ∧ L'.Valid env := by
  constructor
  · rintro ⟨L', h⟩
    exact ⟨L', (perform_ok.1 h).2⟩
  · rintro ⟨L', hbody, hvalid⟩
    exact ⟨L', perform_ok.2 ⟨hL, hbody, hvalid⟩⟩

/-- A completed turn is accepted again with the captured facts only. -/
theorem accepts_capture_iff (hL : L.Valid env) (hr : L.dispatches.get? dispatchId = some r)
    (hi : r.integrity = some i) {c : TerminalCapture} {allowInsert : Bool} :
    L.Accepts env (.captureIntegrity dispatchId true (some c) allowInsert now) ↔
      c.isWellFormed ∧ c = i.capture := by
  have hrows := hL.rows hr
  have hcapture : ∀ r', r.captureIntegrity true (some c) allowInsert now = .ok r' ↔
      (c.isWellFormed ∧ c = i.capture) ∧ r' = r := by
    intro r'
    unfold captureIntegrity
    rw [if_neg (by simp [(hrows.integrity i hi).1]), hi]
    simp only [steps_ok]
    constructor
    · rintro ⟨hwell, hsame, rfl⟩
      exact ⟨⟨hwell, hsame.symm⟩, rfl⟩
    · rintro ⟨⟨hwell, rfl⟩, rfl⟩
      exact ⟨hwell, rfl, rfl⟩
  rw [accepts_iff hL]
  constructor
  · rintro ⟨L', hbody, -⟩
    obtain ⟨r₀, r', hr₀, hbody, -⟩ := onDispatch_ok.1 hbody
    obtain rfl := Option.some.inj (hr.symm.trans hr₀)
    exact ((hcapture r').1 hbody).1
  · intro hsame
    exact ⟨_, onDispatch_ok.2 ⟨r, r, hr, (hcapture r).2 ⟨hsame, rfl⟩, rfl⟩, valid_set hL hrows⟩

/-- While a captured repair waits for its result, a call of recovery whose own checks pass commits
exactly when it spares the capture; no later attempt ever starts, and a completed turn is accepted
with the captured facts only. -/
theorem captured_repair_recovers {capture : TerminalCapture} (hL : L.Reachable env)
    (hr : L.dispatches.get? dispatchId = some r) (hi : r.Unbound capture) :
    (∀ op, op.recovers dispatchId → L.Checks env op → (L.Accepts env op ↔ L.Spares env r op)) ∧
      ∀ ops r', (Machine.run (next env) L ops).dispatches.get? dispatchId = some r' →
        r'.queue.attempt = r.queue.attempt ∧
        ∀ c allowInsert now, (Machine.run (next env) L ops).Accepts env
          (.captureIntegrity dispatchId true (some c) allowInsert now) ↔
            c.isWellFormed ∧ c = capture := by
  constructor
  · rintro op hop ⟨L', hbody⟩
    rw [accepts_iff hL.valid, ← recovers_valid_iff hL.valid hr hi rfl hop hbody]
    constructor
    · rintro ⟨L'', hbody', hvalid⟩
      rwa [← Except.ok.inj (hbody'.symm.trans hbody)]
    · exact fun hvalid => ⟨L', hbody, hvalid⟩
  · intro ops r' hr'
    obtain ⟨s, i, hs, hi', hcapture, hattempt⟩ := hL.captured hr hi ops
    obtain rfl := Option.some.inj (hr'.symm.trans hs)
    refine ⟨hattempt, fun c allowInsert now => ?_⟩
    rw [accepts_capture_iff (hL.run ops).valid hr' hi', hcapture]

/-! ### A stuck repair -/

def repairRequest : DispatchRequest := { sampleRequest with role := "executor", generation := 2 }

def sampleCapture : TerminalCapture where
  workspaceTerminalHeadSha := "0123456789012345678901234567890123456789"
  workspaceTerminal := [("a.py", "0")]
  gitAuthoritySha256 := reviewSha256
  protectedPathsSha256 := reviewSha256
  capturedAt := 5

def capturedRun : List Op :=
  [.acquireHarness nonceSha256 (seconds 600) 0, .enqueue sampleId repairRequest 1,
    .claim 1 nonceSha256 (fun _ => true) (fun _ => false) 2,
    .issueCapability sampleId
      { generation := 2, attempt := 1, schemaSha256 := reviewContract,
        workspacePath := "/work", backend := .sdkHeadless, tokenSha256 := tokenSha256 } 3,
    .bindLiveness sampleId 1 2 1 ⟨41, "birth"⟩ tokenSha256 (seconds 60) 4,
    .captureIntegrity sampleId true (some sampleCapture) true 5]

/-- The live worker can be cancelled. -/
theorem capturedRun_cancels :
    (Machine.run (next .sample) {} capturedRun).Accepts .sample
      (.action sampleId withdrawal true 6) := by
  have hrun : ((Machine.run (next .sample) {} capturedRun).dispatches.get? sampleId).any (fun r =>
      r.integrity = some ⟨sampleCapture, none⟩ && r.liveness.any (·.exitedAt.isNone)) ∧
      ((Machine.run (next .sample) {} capturedRun).body .sample
        (.action sampleId withdrawal true 6)).toOption.any fun _ => true := by
    decide +kernel
  obtain ⟨hrow, hbody⟩ := hrun
  obtain ⟨r, hr, hfacts⟩ := (Option.any_eq_true _ _).1 hrow
  obtain ⟨L', hbody, -⟩ := exists_ok_of_toOption hbody
  rw [Bool.and_eq_true, decide_eq_true_eq] at hfacts
  have hspares : (Machine.run (next .sample) {} capturedRun).Spares .sample r
      (.action sampleId withdrawal true 6) := .inr ⟨rfl, hfacts.2, by decide, by decide⟩
  exact ((captured_repair_recovers ⟨_, rfl⟩ hr hfacts.1).1 _ (by decide) ⟨L', hbody⟩).2 hspares

/-- Its result is lost and its worker exits; a human is asked and releases it. -/
def lostRun : List Op :=
  capturedRun ++ [.exit sampleId ⟨41, "birth"⟩ {} 6, .inspection sampleId { kind := .ambiguous } 7]

theorem lostRun_blocked :
    ¬∀ (env : Env) (L : Ledger) (d : DispatchId) (r : DispatchRows) (capture : TerminalCapture),
      L.Reachable env → L.dispatches.get? d = some r → r.Unbound capture →
      ∀ op, op.recovers d → L.Checks env op → L.Accepts env op := by
  intro h
  have hrun : ((Machine.run (next .sample) {} lostRun).dispatches.get? sampleId).any (fun r =>
      r.integrity = some ⟨sampleCapture, none⟩) ∧
      (((Machine.run (next .sample) {} lostRun).body .sample
        (.retryDispatch sampleId .humanAttention .humanAttentionRequired "again" 8)).toOption.any
          fun _ => true) ∧
      ((Machine.run (next .sample) {} lostRun).perform .sample
        (.retryDispatch sampleId .humanAttention .humanAttentionRequired "again" 8)).toOption.isNone
      := by
    decide +kernel
  obtain ⟨hrow, hbody, hrefused⟩ := hrun
  obtain ⟨r, hr, hfacts⟩ := (Option.any_eq_true _ _).1 hrow
  have hi : r.integrity = some ⟨sampleCapture, none⟩ := of_decide_eq_true hfacts
  obtain ⟨L₁, hbody, -⟩ := exists_ok_of_toOption hbody
  obtain ⟨L₂, hperform⟩ := h .sample _ sampleId r sampleCapture ⟨_, rfl⟩ hr hi
    (.retryDispatch sampleId .humanAttention .humanAttentionRequired "again" 8) (by decide)
    ⟨L₁, hbody⟩
  rw [hperform] at hrefused
  cases hrefused

end CodexFlow.Ledger
