import CodexFlow.Ledger.Reaping

/-!
# The outcomes of a wake

A wake and its decision move together through claims, outcomes, reconciliations and restarts. The
decision is left where nobody may claim it by a third claim, by a restart in the middle of the SDK
call, and by reconciling an outcome that was recorded as ambiguous; by nothing else.
-/

namespace CodexFlow.Ledger

open Checked DecisionRows DispatchRows

/-- A call on one wake; a harness restart reconciles the wakes that were left in their SDK call. -/
inductive WakeCall where
  | claim
  | record (outcome : DeliveryOutcome) (sourceTurnId : Option String)
  | reconcile (sourceTurnId : String)
  | restart
deriving DecidableEq

def WakeCall.op (dispatchId : DispatchId) (kind : WakeKind) (cycle : ℕ) (now : Time) :
    WakeCall → Op
  | claim => .decision dispatchId kind cycle .claimWake now
  | record outcome turn => .decision dispatchId kind cycle (.recordDelivery outcome turn) now
  | reconcile turn => .decision dispatchId kind cycle (.reconcileDelivery turn) now
  | restart => .reconcileInflightWakes now

variable {env : Env} {L : Ledger} {dispatchId : DispatchId} {kind : WakeKind} {cycle : ℕ}
  {r : DispatchRows} {w : Wake} {p p' : DecisionRows} {call : WakeCall} {now : Time}

/-! ### What one call does -/

inductive WakeStep (env : Env) (now : Time) (p : DecisionRows) : WakeCall → DecisionRows → Prop
  | stay (call : WakeCall) : WakeStep env now p call p
  | exhaust (w : Wake) (hw : p.wake = some w) (hstate : p.decision.state = .pendingDelivery)
      (hopen : w.state ∈ [.pending, .starting, .failed]) (hattempts : 2 ≤ w.attemptCount) :
    WakeStep env now p .claim { p with wake := some (w.moveTo .failed now) }
  | start (w : Wake) (hw : p.wake = some w) (hstate : p.decision.state = .pendingDelivery)
      (hattempts : w.attemptCount < 2) :
    WakeStep env now p .claim { p with
      wake := some { w.moveTo .starting now with attemptCount := w.attemptCount + 1 } }
  | deliver (w : Wake) (hw : p.wake = some w) (hstarting : w.state = .starting)
      (turn : Option String) :
    WakeStep env now p (.record .delivered turn)
      ⟨p.decision.deliver now, some { w.moveTo .delivered now with sourceTurnId := turn }⟩
  | doubt (w : Wake) (hw : p.wake = some w) (hstarting : w.state = .starting)
      (turn : Option String) :
    WakeStep env now p (.record .ambiguous turn)
      ⟨p.decision.deliverAmbiguous now, some (w.moveTo .ambiguous now)⟩
  | abandon (w : Wake) (hw : p.wake = some w) (hstarting : w.state = .starting)
      (turn : Option String) :
    WakeStep env now p (.record .failed turn)
      ⟨p.decision.deliverLate now, some (w.moveTo .failed now)⟩
  | retry (w : Wake) (hw : p.wake = some w) (hstarting : w.state = .starting)
      (turn : Option String) :
    WakeStep env now p (.record .failed turn) { p with wake := some (w.moveTo .pending now) }
  | reconcile (w : Wake) (hw : p.wake = some w) (hambiguous : w.state = .ambiguous) (turn : String)
      (hturn : env.isTurnIdentity turn) :
    WakeStep env now p (.reconcile turn)
      ⟨p.decision.deliver now, some { w.moveTo .delivered now with sourceTurnId := some turn }⟩
  | restart (w : Wake) (hw : p.wake = some w) (hstarting : w.state = .starting) :
    WakeStep env now p .restart { p with wake := some (w.moveTo .ambiguous now) }

theorem claimWake_cases (hw : p.wake = some w) (h : p.claimWake now w = .ok p') :
    WakeStep env now p .claim p' := by
  unfold claimWake at h
  split_ifs at h with hdelivered hdone
  · simp only [steps_ok] at h
    exact h.2 ▸ .stay .claim
  · exact pure_eq_ok.1 h ▸ .stay .claim
  · simp only [steps_ok] at h
    obtain ⟨hambiguous, rfl⟩ := h
    have hstate : p.decision.state = .pendingDelivery := by
      by_contra hne
      exact hdelivered (.inr hne)
    have hopen : w.state ∈ [.pending, .starting, .failed] := by
      have hsuppressed : w.state ≠ .suppressed := fun h => hdelivered (.inl h)
      generalize w.state = state at *
      revert hdone hambiguous hsuppressed
      cases state <;> decide
    unfold Wake.start
    split_ifs with hattempts
    · exact .exhaust w hw hstate hopen hattempts
    · exact .start w hw hstate (by omega)
    · rw [← hw]
      exact .stay .claim

theorem recordDelivery_cases {outcome : DeliveryOutcome} {turn : Option String}
    (hw : p.wake = some w) (h : p.recordDelivery env outcome turn now w = .ok p') :
    WakeStep env now p (.record outcome turn) p' := by
  unfold recordDelivery at h
  split at h
  · simp only [steps_ok] at h
    exact h.2 ▸ .stay _
  split at h
  · simp only [steps_ok] at h
    exact h.2 ▸ .stay _
  simp only [checks_ok] at h
  obtain ⟨hstarting, h⟩ := h
  cases outcome with
  | delivered =>
    simp only [steps_ok] at h
    obtain ⟨-, rfl⟩ := h
    exact .deliver w hw hstarting turn
  | ambiguous =>
    simp only [steps_ok] at h
    obtain ⟨-, rfl⟩ := h
    exact .doubt w hw hstarting turn
  | failed =>
    simp only [steps_ok] at h
    obtain ⟨-, rfl⟩ := h
    split_ifs
    · exact .abandon w hw hstarting turn
    · exact .retry w hw hstarting turn

theorem reconcileDelivery_cases {turn : String} (hturn : env.isTurnIdentity turn)
    (hw : p.wake = some w) (h : p.reconcileDelivery turn now w = .ok p') :
    WakeStep env now p (.reconcile turn) p' := by
  unfold reconcileDelivery at h
  split at h
  · simp only [steps_ok] at h
    exact h.2 ▸ .stay _
  · simp only [steps_ok] at h
    obtain ⟨hambiguous, rfl⟩ := h
    exact .reconcile w hw hambiguous turn hturn

theorem next_decision {op : DecisionOp}
    (hp : L.pairAt (.dispatch dispatchId kind cycle) = some p) :
    L.next env (.decision dispatchId kind cycle op now) = L ∨ ∃ p', op.check env now = .ok () ∧
      op.run env (L.decisionContext (.dispatch dispatchId kind cycle) none) now p = .ok p' ∧
      (L.next env (.decision dispatchId kind cycle op now)).pairAt
        (.dispatch dispatchId kind cycle) = some p' := by
  obtain hsame | ⟨-, hbody, -⟩ := next_cases env L (.decision dispatchId kind cycle op now)
  · exact .inl hsame
  obtain ⟨hcheck, r, d, p', hr, hd, hrun, hnext⟩ := onDispatchDecision_ok.1 hbody
  obtain ⟨s, hs, hpair⟩ := Option.bind_eq_some_iff.1 hp
  obtain rfl := Option.some.inj (hs.symm.trans hr)
  obtain ⟨hd', hw'⟩ := pair?_eq_some.1 hpair
  obtain rfl : p = ⟨d, s.wake? kind cycle⟩ := by
    rw [← Option.some.inj (hd'.symm.trans hd), hw']
  have hcall := run_step hrun
  refine .inr ⟨p', hcheck, hrun, ?_⟩
  rw [hnext, pairAt_set hr, setDecision_pair? hd hcall.decision.kept hcall.key,
    if_pos ⟨rfl, rfl⟩]

theorem reconcileInflightWakes_pair (hp : L.pairAt (.dispatch dispatchId kind cycle) = some p) :
    (L.reconcileInflightWakes now).pairAt (.dispatch dispatchId kind cycle) =
      some ⟨p.decision, p.wake.map fun w =>
        if w.state = .starting then w.moveTo .ambiguous now else w⟩ := by
  obtain ⟨r, hr, hpair⟩ := Option.bind_eq_some_iff.1 hp
  show ((L.dispatches.map fun _ r => r.reconcileInflight now).get? dispatchId).bind _ = _
  rw [Table.get?_map, hr]
  show (r.reconcileInflight now).pair? kind cycle = _
  rw [reconcileInflight_pair?, hpair]
  rfl

theorem next_wake (hp : L.pairAt (.dispatch dispatchId kind cycle) = some p) (call : WakeCall)
    (now : Time) :
    ∃ p', (L.next env (call.op dispatchId kind cycle now)).pairAt (.dispatch dispatchId kind cycle) =
      some p' ∧ WakeStep env now p call p' := by
  have hstay : ∀ op, L.next env op = L →
      ∃ p', (L.next env op).pairAt (.dispatch dispatchId kind cycle) = some p' ∧
        WakeStep env now p call p' :=
    fun op hsame => ⟨p, by rw [hsame, hp], .stay call⟩
  cases call with
  | claim =>
    obtain hsame | ⟨p', -, hrun, hp'⟩ := next_decision hp
    · exact hstay _ hsame
    · obtain ⟨w, hw, hrun⟩ := onWake_ok hrun
      exact ⟨p', hp', claimWake_cases hw hrun⟩
  | record outcome turn =>
    obtain hsame | ⟨p', -, hrun, hp'⟩ := next_decision hp
    · exact hstay _ hsame
    · obtain ⟨w, hw, hrun⟩ := onWake_ok hrun
      exact ⟨p', hp', recordDelivery_cases hw hrun⟩
  | reconcile turn =>
    obtain hsame | ⟨p', hcheck, hrun, hp'⟩ := next_decision hp
    · exact hstay _ hsame
    · obtain ⟨w, hw, hrun⟩ := onWake_ok hrun
      exact ⟨p', hp', reconcileDelivery_cases (ensure_eq_ok.1 hcheck) hw hrun⟩
  | restart =>
    obtain hsame | ⟨-, hbody, -⟩ := next_cases env L (.reconcileInflightWakes now)
    · exact hstay _ hsame
    have hnext : (L.next env (.reconcileInflightWakes now)).pairAt
        (.dispatch dispatchId kind cycle) = _ :=
      (congrArg (pairAt · _) (pure_eq_ok.1 hbody).symm).trans (reconcileInflightWakes_pair hp)
    refine ⟨_, hnext, ?_⟩
    cases hw : p.wake with
    | none =>
      have hsame : WakeStep env now p .restart ⟨p.decision, p.wake⟩ := .stay .restart
      rw [hw] at hsame
      exact hsame
    | some w =>
      rw [Option.map_some]
      split_ifs with hstarting
      · exact .restart w hw hstarting
      · have hsame : WakeStep env now p .restart ⟨p.decision, p.wake⟩ := .stay .restart
        rw [hw] at hsame
        exact hsame

/-! ### What the calls keep -/

namespace DecisionRows

def Waits (p : DecisionRows) : Prop :=
  ∀ w ∈ p.wake, w.state ∈ [.pending, .starting] → p.decision.state = .pendingDelivery

/-- Somebody may claim the decision of a wake that is over, and the outcome alone says who: after a
delivery and after the last attempt whoever is next, after a doubtful one a human. -/
def Unstranded (p : DecisionRows) : Prop :=
  ∀ w ∈ p.wake,
    (w.state = .failed → p.decision.state ∈ [.awaitingClaim, .humanAttentionRequired]) ∧
    (w.state = .ambiguous → p.decision.state = .humanAttentionRequired) ∧
    (w.state = .delivered → p.decision.state = .awaitingClaim)

/-- A third claim, a restart in the SDK call, and the reconciliation of an outcome that was recorded
as ambiguous. -/
def Strands (env : Env) (p : DecisionRows) (call : WakeCall) : Prop :=
  ∃ w, p.wake = some w ∧ match call with
    | .claim => w.state = .starting ∧ 2 ≤ w.attemptCount
    | .record .. => False
    | .reconcile turn => env.isTurnIdentity turn ∧ w.state = .ambiguous ∧
      p.decision.state = .humanAttentionRequired
    | .restart => w.state = .starting

end DecisionRows

namespace WakeStep

theorem waits (h : WakeStep env now p call p') (hp : p.Waits) : p'.Waits := by
  intro w' hw' hstate'
  cases h with
  | stay => exact hp w' hw' hstate'
  | start w hw hstate => exact hstate
  | retry w hw hstarting =>
    exact hp w hw (by rw [hstarting]; decide)
  | _ =>
    obtain rfl := Option.some.inj hw'
    simp [Wake.moveTo] at hstate'

theorem unstranded (h : WakeStep env now p call p') (hwaits : p.Waits)
    (hpending : ∀ w ∈ p.wake, w.state = .pending → w.attemptCount < 2) (hp : p.Unstranded)
    (hcall : ¬p.Strands env call) : p'.Unstranded := by
  intro w' hw'
  cases h with
  | stay => exact hp w' hw'
  | exhaust w hw hstate hopen hattempts =>
    exfalso
    obtain hopen | hopen | hopen : w.state = .pending ∨ w.state = .starting ∨ w.state = .failed := by
      simpa using hopen
    · have hleft := hpending w hw hopen
      omega
    · exact hcall ⟨w, hw, hopen, hattempts⟩
    · have hclaimable := (hp w hw).1 hopen
      rw [hstate] at hclaimable
      exact absurd hclaimable (by decide)
  | start | retry =>
    obtain rfl := Option.some.inj hw'
    exact ⟨fun h => (nomatch h), fun h => (nomatch h), fun h => (nomatch h)⟩
  | deliver w hw hstarting turn =>
    obtain rfl := Option.some.inj hw'
    refine ⟨fun h => (nomatch h), fun h => (nomatch h), fun _ => ?_⟩
    unfold ControllerDecision.deliver
    rw [if_pos (hwaits w hw (by rw [hstarting]; decide))]
  | doubt w hw hstarting turn =>
    obtain rfl := Option.some.inj hw'
    refine ⟨fun h => (nomatch h), fun _ => ?_, fun h => (nomatch h)⟩
    unfold ControllerDecision.deliverAmbiguous
    rw [if_pos (hwaits w hw (by rw [hstarting]; decide))]
  | abandon w hw hstarting turn =>
    obtain rfl := Option.some.inj hw'
    refine ⟨fun _ => ?_, fun h => (nomatch h), fun h => (nomatch h)⟩
    unfold ControllerDecision.deliverLate
    rw [if_pos (hwaits w hw (by rw [hstarting]; decide))]
    exact List.mem_cons_self
  | reconcile w hw hambiguous turn hturn =>
    exact absurd ⟨w, hw, hturn, hambiguous, (hp w hw).2.1 hambiguous⟩ hcall
  | restart w hw hstarting => exact absurd ⟨w, hw, hstarting⟩ hcall

end WakeStep

/-! ### The calls that strand are accepted -/

namespace DispatchRows

theorem WakeValid.route (h : r.WakeValid w) (hstate : w.state ∉ [.notApplicable, .suppressed]) :
    w.sourceThreadId = r.binding.sourceThreadId ∧ w.sourceThreadId.isSome := by
  obtain ⟨-, -, hthread, hsource, -⟩ := h
  constructor
  · refine hthread.resolve_right fun hsuppressed => hstate ?_
    rw [hsuppressed]
    decide
  · by_contra hnone
    rw [if_neg hnone] at hsource
    exact hstate hsource

theorem WakeValid.leave (h : r.WakeValid w) (hstarting : w.state = .starting) {state : WakeState}
    (hstate : state = .ambiguous ∨ state = .failed ∧ w.attemptCount = 2) :
    r.WakeValid (w.moveTo state now) := by
  obtain ⟨hthread, hsome⟩ := h.route (by rw [hstarting]; decide)
  obtain ⟨hcycle, hdecision, -, -, hturn, hattempts, -, -, hpayload⟩ := h
  rw [hstarting] at hturn
  refine ⟨hcycle, hdecision, .inl hthread, ?_, ?_, hattempts, ?_, ?_, hpayload⟩
  · rw [if_pos (show (w.moveTo state now).sourceThreadId.isSome from hsome)]
    obtain rfl | ⟨rfl, -⟩ := hstate <;> exact fun h => nomatch h
  · rw [show (w.moveTo state now).sourceTurnId = w.sourceTurnId from rfl, hturn]
    obtain rfl | ⟨rfl, -⟩ := hstate <;> rfl
  · obtain rfl | ⟨rfl, -⟩ := hstate <;> exact fun h => nomatch h
  · obtain rfl | ⟨-, htwo⟩ := hstate
    · exact fun h => nomatch h
    · exact fun _ => htwo

theorem WakeValid.deliver (h : r.WakeValid w) (hambiguous : w.state = .ambiguous) (turn : String) :
    r.WakeValid { w.moveTo .delivered now with sourceTurnId := some turn } := by
  obtain ⟨hthread, hsome⟩ := h.route (by rw [hambiguous]; decide)
  obtain ⟨hcycle, hdecision, -, -, -, hattempts, -, -, hpayload⟩ := h
  refine ⟨hcycle, hdecision, .inl hthread, ?_, rfl, hattempts, fun h => (nomatch h),
    fun h => (nomatch h), hpayload⟩
  rw [if_pos (show (w.moveTo .delivered now).sourceThreadId.isSome from hsome)]
  exact fun h => nomatch h

theorem reconcileInflight_valid {keys : List DispatchId} (h : r.Valid env keys dispatchId) :
    (r.reconcileInflight now).Valid env keys dispatchId := by
  have hkeys : (r.reconcileInflight now).wakes.map Wake.key = r.wakes.map Wake.key := by
    show ((r.wakes.map _).map _) = _
    rw [List.map_map]
    refine List.map_congr_left fun w _ => ?_
    simp only [Function.comp_apply]
    split_ifs <;> rfl
  exact {
    integrity := h.integrity
    result := h.result
    capability := h.capability
    queue := h.queue
    outbox := h.outbox
    liveness := h.liveness
    successors := h.successors
    wakes := by
      refine h.wakes.of_keys rfl hkeys fun w' hw' => ?_
      obtain ⟨w, hmem, rfl⟩ := List.mem_map.1 hw'
      refine WakeValid.congr (r := r) ?_ rfl rfl rfl
      have hw := h.wakes.1 w hmem
      split_ifs with hstarting
      · exact hw.leave hstarting (.inl rfl)
      · exact hw
    recovery := h.recovery
    policy := h.policy
    controls := h.controls
    decisions := by
      refine ⟨h.decisions.1, fun d hd => ?_⟩
      obtain ⟨hvalid, hnone, hagrees⟩ := h.decisions.2 d hd
      have hwake : (r.reconcileInflight now).wakeOf d = (r.wakeOf d).map fun w =>
          if w.state = .starting then w.moveTo .ambiguous now else w :=
        wake?_of_map (fun w => by split_ifs <;> rfl) rfl
      refine ⟨hvalid, fun h => hnone (Option.map_eq_none_iff.1 (hwake.symm.trans h)), ?_⟩
      intro w' hw'
      rw [hwake] at hw'
      obtain ⟨w, hw, rfl⟩ := Option.map_eq_some_iff.1 hw'
      split_ifs with hstarting
      · refine ⟨fun h => (nomatch h), fun _ => ?_, fun hwaits => ?_⟩
        · simp [Wake.moveTo]
        · have hdelivered := (hagrees w hw).2.2 hwaits
          rw [hstarting] at hdelivered
          exact absurd hdelivered (by decide)
      · exact hagrees w hw }

end DispatchRows

theorem reconcileInflightWakes_valid (hL : L.Valid env) :
    (L.reconcileInflightWakes now).Valid env := by
  refine ⟨fun entry' hmem' => ?_, hL.2⟩
  obtain ⟨entry, hmem, rfl⟩ := List.mem_map.1 hmem'
  rw [show (L.reconcileInflightWakes now).dispatches.keys = L.dispatches.keys from
    Table.keys_map _ _]
  exact reconcileInflight_valid (hL.1 entry hmem)

theorem next_of_perform {op : Op} {L' : Ledger} (h : L.perform env op = .ok L') :
    L.next env op = L' := by
  unfold next
  rw [h]
  rfl

theorem next_strands (hL : L.Valid env) (hp : L.pairAt (.dispatch dispatchId kind cycle) = some p)
    (hwaits : p.Waits) (h : p.Strands env call) :
    ∃ p', (L.next env (call.op dispatchId kind cycle now)).pairAt (.dispatch dispatchId kind cycle) =
      some p' ∧ ¬p'.Unstranded := by
  obtain ⟨w, hw, h⟩ := h
  obtain ⟨hd, -, hagrees⟩ := hL.decisionValid hp
  cases call with
  | record => exact h.elim
  | claim =>
    obtain ⟨hstarting, hattempts⟩ := h
    have hstate := hwaits w hw (by rw [hstarting]; decide)
    have hrun : DecisionOp.run env (L.decisionContext (.dispatch dispatchId kind cycle) none) now p
        .claimWake = .ok ⟨p.decision, some (w.moveTo .failed now)⟩ := by
      show DecisionOp.onWake p (fun w => p.claimWake now w) = _
      unfold DecisionOp.onWake claimWake Wake.start
      simp [hw, hstarting, hstate, hattempts, ensure]
    have hwakes : ∀ r, L.dispatches.get? dispatchId = some r →
        ∀ w' ∈ some (w.moveTo .failed now), r.WakeValid w' ∧ wakeAgrees p.decision w' := by
      rintro r hr w' ⟨⟩
      have hvalid := hL.wakeValid hp hr hw
      have htwo : w.attemptCount = 2 := by
        have hle := hvalid.2.2.2.2.2.1
        omega
      refine ⟨hvalid.leave hstarting (.inr ⟨rfl, htwo⟩), fun h => (by cases h), fun _ => ?_,
        fun h => ?_⟩
      · simp [Wake.moveTo]
      · rw [hstate] at h
        cases h
    obtain ⟨L', hperform, hp'⟩ := @perform_decision_ok _ _ _ _ _ _ _ .claimWake _ hL hp rfl hrun hd hwakes
      fun h => by cases h
    refine ⟨_, (congrArg (pairAt · _) (next_of_perform hperform)).trans hp', fun hunstranded => ?_⟩
    have hclaimable := (hunstranded _ rfl).1 rfl
    rw [hstate] at hclaimable
    exact absurd hclaimable (by decide)
  | reconcile turn =>
    obtain ⟨hturn, hambiguous, hstate⟩ := h
    have hrun : DecisionOp.run env (L.decisionContext (.dispatch dispatchId kind cycle) none) now p
        (.reconcileDelivery turn) =
          .ok ⟨p.decision, some { w.moveTo .delivered now with sourceTurnId := some turn }⟩ := by
      show DecisionOp.onWake p (fun w => p.reconcileDelivery turn now w) = _
      unfold DecisionOp.onWake reconcileDelivery ControllerDecision.deliver
      simp [hw, hambiguous, hstate, ensure]
    have hwakes : ∀ r, L.dispatches.get? dispatchId = some r →
        ∀ w' ∈ some { w.moveTo .delivered now with sourceTurnId := some turn },
          r.WakeValid w' ∧ wakeAgrees p.decision w' := by
      rintro r hr w' ⟨⟩
      refine ⟨(hL.wakeValid hp hr hw).deliver hambiguous turn, fun h => (by cases h), fun h => ?_,
        fun _ => by simp [Wake.moveTo]⟩
      rw [hstate] at h
      cases h
    obtain ⟨L', hperform, hp'⟩ := @perform_decision_ok _ _ _ _ _ _ _ (.reconcileDelivery turn) now
      hL hp (ensure_of hturn _) hrun hd hwakes fun h => by cases h
    refine ⟨_, (congrArg (pairAt · _) (next_of_perform hperform)).trans hp', fun hunstranded => ?_⟩
    have hawaits := (hunstranded _ rfl).2.2 rfl
    rw [hstate] at hawaits
    cases hawaits
  | restart =>
    have hstarting : w.state = .starting := h
    have hstate := hwaits w hw (by rw [hstarting]; decide)
    have hperform : L.perform env (.reconcileInflightWakes now) =
        .ok (L.reconcileInflightWakes now) :=
      perform_ok.2 ⟨hL, rfl, reconcileInflightWakes_valid hL⟩
    refine ⟨⟨p.decision, some (w.moveTo .ambiguous now)⟩, ?_, fun hunstranded => ?_⟩
    · refine (congrArg (pairAt · _) (next_of_perform hperform)).trans
        ((reconcileInflightWakes_pair hp).trans ?_)
      rw [hw, Option.map_some, if_pos hstarting]
    · have hattends := (hunstranded _ rfl).2.1 rfl
      rw [hstate] at hattends
      cases hattends

/-! ### Runs -/

/-- The rows of a decision satisfy `I`. -/
def PairSatisfies (key : DecisionKey) (I : DecisionRows → Prop) (L : Ledger) : Prop :=
  ∃ p, L.pairAt key = some p ∧ I p

def nextWake (env : Env) (dispatchId : DispatchId) (kind : WakeKind) (cycle : ℕ) (L : Ledger)
    (step : WakeCall × Time) : Ledger := L.next env (step.1.op dispatchId kind cycle step.2)

/-- From a wake that was not sent yet, in any order of claims, outcomes, reconciliations and restarts,
somebody may claim the decision whenever the wake is over, with the same outcome on every path,
exactly as long as no call strands it. -/
theorem wake_outcomes_claimable (hL : L.Reachable env)
    (hp : L.pairAt (.dispatch dispatchId kind cycle) = some p)
    (hwake : ∀ w ∈ p.wake, w.state ∈ [.pending, .notApplicable, .suppressed])
    (steps : List (WakeCall × Time)) :
    Machine.Always (nextWake env dispatchId kind cycle)
        (PairSatisfies (.dispatch dispatchId kind cycle) Unstranded) L steps ↔
      Machine.Along (nextWake env dispatchId kind cycle)
        (fun L step => PairSatisfies (.dispatch dispatchId kind cycle)
          (¬·.Strands env step.1) L) L steps := by
  have hvalid := hL.good.to_valid
  refine Machine.always_iff_along (I := fun L => L.Valid env ∧
    PairSatisfies (.dispatch dispatchId kind cycle) Waits L) ?_ ?_ ⟨hvalid, p, hp, ?_⟩
    ⟨p, hp, ?_⟩ steps
  · rintro L ⟨call, now⟩ ⟨hL, p, hp, hwaits⟩
    obtain ⟨p', hp', hstep⟩ := next_wake hp call now
    exact ⟨next_valid hL _, p', hp', hstep.waits hwaits⟩
  · rintro L ⟨call, now⟩ ⟨hL, p, hp, hwaits⟩ ⟨q, hq, hunstranded⟩
    obtain rfl := Option.some.inj (hp.symm.trans hq)
    constructor
    · rintro ⟨p', hp', hunstranded'⟩
      refine ⟨p, hp, fun hstrands => ?_⟩
      obtain ⟨q, hq, hnot⟩ := next_strands hL hp hwaits hstrands
      obtain rfl := Option.some.inj (hp'.symm.trans hq)
      exact hnot hunstranded'
    · rintro ⟨q, hq, hcall⟩
      obtain rfl := Option.some.inj (hp.symm.trans hq)
      obtain ⟨p', hp', hstep⟩ := next_wake hp call now
      refine ⟨p', hp', hstep.unstranded hwaits (fun w hw hpending => ?_) hunstranded hcall⟩
      obtain ⟨r, hr, -⟩ := Option.bind_eq_some_iff.1 hp
      exact (hL.wakeValid hp hr hw).2.2.2.2.2.2.1 hpending
  · intro w hw hstate
    have hroute := hwake w hw
    refine ((hvalid.decisionValid hp).2.2 w hw).1 ?_
    generalize w.state = state at hstate hroute
    revert hstate hroute
    cases state <;> decide
  · intro w hw
    have hroute := hwake w hw
    refine ⟨fun h => ?_, fun h => ?_, fun h => ?_⟩ <;> rw [h] at hroute <;>
      exact absurd hroute (by decide)

/-! ### A restart in the SDK call -/

theorem pendingRun_pair :
    ∃ p, (Machine.run (next .sample) {} pendingRun).pairAt sampleKey = some p ∧
      ∀ w ∈ p.wake, w.state = .pending := by
  have hrun : ((Machine.run (next .sample) {} pendingRun).pairAt sampleKey).any fun p =>
      p.wake.all (·.state = .pending) := by
    decide +kernel
  obtain ⟨p, hp, hpending⟩ := (Option.any_eq_true _ _).1 hrun
  exact ⟨p, hp, fun w hw => of_decide_eq_true ((Option.all_eq_true _ _).1 hpending w hw)⟩

/-- An outcome that is recorded as ambiguous leaves the decision to a human. -/
theorem pendingRun_unstranded :
    Machine.Always (nextWake .sample sampleId .checkpoint 1) (PairSatisfies sampleKey Unstranded)
      (Machine.run (next .sample) {} pendingRun) [(.claim, 3), (.record .ambiguous none, 4)] := by
  obtain ⟨p, hp, hpending⟩ := pendingRun_pair
  refine (wake_outcomes_claimable ⟨_, rfl⟩ hp (fun w hw => ?_) _).2 ⟨⟨p, hp, ?_⟩, ?_, trivial⟩
  · rw [hpending w hw]
    decide
  · rintro ⟨w, hw, hstarting, -⟩
    rw [hpending w hw] at hstarting
    cases hstarting
  · obtain ⟨p', hp', -⟩ := next_wake hp .claim 3
    exact ⟨p', hp', fun ⟨_, _, h⟩ => h⟩

theorem pendingRun_stranded :
    ¬∀ (env : Env) (L : Ledger) (dispatchId : DispatchId) (kind : WakeKind) (cycle : ℕ)
      (p : DecisionRows) (steps : List (WakeCall × Time)), L.Reachable env →
      L.pairAt (.dispatch dispatchId kind cycle) = some p → (∀ w ∈ p.wake, w.state = .pending) →
      Machine.Always (nextWake env dispatchId kind cycle)
        (PairSatisfies (.dispatch dispatchId kind cycle) Unstranded) L steps := by
  intro h
  obtain ⟨p, hp, hpending⟩ := pendingRun_pair
  obtain ⟨p', hp', hunstranded⟩ := h .sample _ sampleId .checkpoint 1 p [(.claim, 3), (.restart, 4)]
    ⟨_, rfl⟩ hp hpending _ (List.prefix_refl _)
  have hrun : ((Machine.run (nextWake .sample sampleId .checkpoint 1)
      (Machine.run (next .sample) {} pendingRun) [(.claim, 3), (.restart, 4)]).pairAt sampleKey).any
        fun p => p.decision.state = .pendingDelivery && p.wake.any (·.state = .ambiguous) := by
    decide
  obtain ⟨q, hq, hrun⟩ := (Option.any_eq_true _ _).1 hrun
  obtain rfl := Option.some.inj (hq.symm.trans hp')
  rw [Bool.and_eq_true] at hrun
  obtain ⟨w, hw, hambiguous⟩ := (Option.any_eq_true _ _).1 hrun.2
  have hattends := (hunstranded w hw).2.1 (of_decide_eq_true hambiguous)
  rw [of_decide_eq_true hrun.1] at hattends
  cases hattends

end CodexFlow.Ledger
