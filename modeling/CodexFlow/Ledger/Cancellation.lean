import CodexFlow.Ledger.Receipts

/-!
# Cancellation

A controller that cancels its dispatch commits a bundle whose one action retires every open checkpoint
decision, the deciding one included. The commit then writes that row once more without taking the
retirement back, and the validator refuses the transaction. A cancellation from outside is refused
where a row of the dispatch has no place beside a cancelled queue row.
-/

namespace CodexFlow.Ledger

open Checked DecisionRows DispatchRows

variable {env : Env} {L L' : Ledger} {dispatchId : DispatchId} {r r' : DispatchRows} {cycle : ℕ}
  {d : ControllerDecision} {q : SubmitRequest} {control : ControllerControl} {now : Time}
  {s : DispatchRows} {op : Op} {keys : List DispatchId} {d' : ControllerDecision} {p : DecisionRows}
  {kind : WakeKind}

/-! ### A bundle that cancels -/

/-- Every action that is no recovery action stands alone or excludes a cancellation. -/
theorem ControllerActionBundle.check_cancel {b : ControllerActionBundle} (h : b.check env = .ok ())
    (hmem : .cancelDispatch control ∈ b.actions) : b.actions = [.cancelDispatch control] := by
  simp only [ControllerActionBundle.check, checks_ok] at h
  obtain ⟨-, -, -, -, -, -, hacknowledge, hrearm, hattention, hrecovery, -⟩ := h
  have hkind : ControllerActionKind.cancelDispatch ∈ b.actions.map (·.kind) :=
    List.mem_map_of_mem (f := ControllerAction.kind) hmem
  have hlength : b.actions.length = 1 := by
    by_contra hlength
    have hall : ∀ kind ∈ b.actions.map (·.kind), kind.isRecovery := by
      intro kind hkind'
      cases kind with
      | acknowledgeOnly => exact absurd (hacknowledge hkind') hlength
      | requireHumanAttention => exact absurd (hattention hkind') hlength
      | rearmCheckpoint => exact absurd ⟨hkind', .inl hkind⟩ hrearm
      | _ => rfl
    rw [List.filter_eq_self.2 hall, List.length_map] at hrecovery
    have hpos := List.length_pos_of_mem hmem
    omega
  obtain ⟨action, haction⟩ := List.length_eq_one_iff.1 hlength
  rw [haction] at hmem ⊢
  rw [List.mem_singleton.1 hmem]

theorem Commits.cancelled {kind : WakeKind} (hcommits : Commits env L q now d kind cycle dispatchId r r')
    (hactions : q.bundle.actions = [.cancelDispatch control])
    (hactive : r.queue.state.isNonterminal) :
    ∃ c r₁, d.claimant = some c ∧ (r.cancel false now).Tables r₁ ∧
      r' = r₁.mapDecision kind cycle (q.committed env c d.revision now) := by
  have hbody := hcommits.body
  simp only [commitBundle, applyControllerActions, hactions, controllerEffects, controllerEffect,
    steps_ok] at hbody
  obtain ⟨-, r₁, ⟨-, -, -, -, -, -, ⟨cancelled, hcancelled, rfl⟩, rfl⟩, hbody⟩ := hbody
  split at hbody
  · cases hbody
  rename_i c hc
  simp only [steps_ok] at hbody
  obtain ⟨-, rfl⟩ := hbody
  have hnot : r.queue.state ≠ .cancelled := by
    intro hstate
    rw [hstate] at hactive
    exact absurd hactive (by decide)
  unfold cancelQueueRow at hcancelled
  rw [if_neg hnot] at hcancelled
  simp only [steps_ok] at hcancelled
  obtain ⟨-, -, -, -, -, -, rfl⟩ := hcancelled
  refine ⟨c, _, hc, ?_, rfl⟩
  exact ⟨rfl, rfl, rfl, rfl⟩

/-- A claimed decision that its own cancellation retired keeps the time of its retirement. -/
theorem ControllerDecision.cancelled_invalid {key : DecisionKey} {c : Claimant} {revision : ℕ}
    (hkind : d.kind = .checkpoint) (hstate : d.state = .claimed) :
    ¬(q.committed env c revision now (d.supersede false now)).Valid env key := by
  intro hvalid
  have hretired : (q.committed env c revision now (d.supersede false now)).supersededAt =
      some now := by
    unfold ControllerDecision.supersede
    rw [hkind, hstate]
    rfl
  have hsuperseded := hvalid.superseded
  rw [hretired] at hsuperseded
  have hcommitted : (q.committed env c revision now (d.supersede false now)).state ≠
      .superseded := by
    show (if q.attentionReason.isSome then ControllerDecisionState.humanAttentionRequired
      else .actionCommitted) ≠ .superseded
    split_ifs <;> decide
  exact hcommitted (of_decide_eq_true hsuperseded.symm)

theorem decisionAt_of_mem {key : DecisionKey} (hL : L.Valid env) (hd : L.decisionAt key = some d)
    {d' : ControllerDecision} (hmem : (key, d') ∈ L.decisions) : d' = d := by
  have hdmem : (key, d) ∈ L.decisions := by
    unfold decisions
    cases key with
    | dispatch dispatchId kind cycle =>
      obtain ⟨r, hr, hd⟩ := Option.bind_eq_some_iff.1 hd
      obtain ⟨hdmem, rfl, rfl⟩ := decision?_spec hd
      exact List.mem_append_left _ (List.mem_flatMap.2
        ⟨(dispatchId, r), Table.get?_eq_some.1 hr, List.mem_map.2 ⟨d, hdmem, rfl⟩⟩)
    | program event =>
      obtain ⟨P, hP, rfl⟩ := Option.map_eq_some_iff.1 hd
      exact List.mem_append_right _ (List.mem_map.2
        ⟨(event, P), Table.get?_eq_some.1 hP, rfl⟩)
  exact congrArg Prod.snd
    (List.inj_on_of_nodup_map (decisions_nodup hL) hmem hdmem rfl)

theorem findOutbox_spec {actionId : String} {found : DecisionKey × ActionOutbox}
    (h : L.findOutbox actionId = some found) :
    ∃ d, (found.1, d) ∈ L.decisions ∧ d.outbox = some found.2 := by
  obtain ⟨⟨key, d⟩, hmem, hfound⟩ := List.exists_of_findSome?_eq_some h
  obtain ⟨o, ho, rfl⟩ := Option.map_eq_some_iff.1 hfound
  exact ⟨d, hmem, (Option.filter_eq_some_iff.1 ho).1⟩

/-- Cancelling its own dispatch leaves the rows of a claimed decision invalid. -/
theorem submit_cancel_invalid (hL : L.Valid env) (hr : L.dispatches.get? dispatchId = some r)
    (hactive : r.queue.state.isNonterminal) (hd : r.decision? .checkpoint cycle = some d)
    (hstate : d.state = .claimed) (hid : q.bundle.decisionId = .dispatch dispatchId .checkpoint cycle)
    (hcancel : .cancelDispatch control ∈ q.bundle.actions)
    (h : L.submitControllerActions env q now = .ok L') : ¬L'.Valid env := by
  have hat : L.decisionAt (.dispatch dispatchId .checkpoint cycle) = some d := by
    show (L.dispatches.get? dispatchId).bind _ = _
    rw [hr]
    exact hd
  obtain ⟨hcheck, ⟨-, found, hfound, hreplay⟩ |
    ⟨dispatchId', kind, cycle', d', s, s', hcommits, rfl⟩⟩ := submitControllerActions_cases h
  · -- a receipt of the decision would be a commit, and a claimed decision has none
    exfalso
    simp only [SubmitRequest.replay, checks_ok] at hreplay
    obtain ⟨-, hsame, -⟩ := hreplay
    obtain ⟨d', hmem, ho⟩ := findOutbox_spec hfound
    rw [hsame, hid] at hmem
    obtain rfl := decisionAt_of_mem hL hat hmem
    obtain ⟨wake, hp⟩ := pairAt_of_decisionAt hat
    exact ((hL.decisionValid hp).1.committed_of_outbox ho).2.2.2.2.1 hstate
  · obtain ⟨rfl, rfl, rfl⟩ := DecisionKey.dispatch.inj (hid.symm.trans hcommits.decisionId)
    obtain rfl := Option.some.inj (hr.symm.trans hcommits.rows)
    obtain rfl := Option.some.inj (hd.symm.trans hcommits.decision)
    simp only [SubmitRequest.check, bind_eq_ok] at hcheck
    obtain ⟨⟨⟩, hbundle, -⟩ := hcheck
    obtain ⟨c, r₁, -, htables, rfl⟩ :=
      hcommits.cancelled (ControllerActionBundle.check_cancel hbundle hcancel) hactive
    have hp : r.pair? .checkpoint cycle = some ⟨d, _⟩ := pair?_eq_some.2 ⟨hd, rfl⟩
    have hp' : (r₁.mapDecision .checkpoint cycle (q.committed env c d.revision now)).pair?
        .checkpoint cycle = some ⟨q.committed env c d.revision now (d.supersede false now), none⟩ := by
      rw [mapDecision_pair? (q.committed_kept c d.revision), htables.pair?, cancel_pair?, hp]
      simp
    intro hL'
    exact ControllerDecision.cancelled_invalid (decision?_spec hd).2.1 hstate
      (hL'.decisionValid ((pairAt_set hr).trans hp')).1

/-- A controller never cancels its own dispatch: whatever claimed checkpoint decision of an active
dispatch submits a cancellation, the call raises, and when nothing else is wrong with the bundle it
is the validator that refuses the rows. -/
theorem controller_cancellation_refused (hr : L.dispatches.get? dispatchId = some r)
    (hactive : r.queue.state.isNonterminal) (hd : r.decision? .checkpoint cycle = some d)
    (hstate : d.state = .claimed) (hid : q.bundle.decisionId = .dispatch dispatchId .checkpoint cycle)
    (hcancel : .cancelDispatch control ∈ q.bundle.actions) :
    (∃ e, L.perform env (.controllerActions q now) = .error e) ∧
      ∀ L', L.body env (.controllerActions q now) = .ok L' →
        L.perform env (.controllerActions q now) = .error rowsRejected := by
  have hinvalid : ∀ L', L.Valid env → L.submitControllerActions env q now = .ok L' →
      ¬L'.Valid env := fun _ hL =>
    submit_cancel_invalid hL hr hactive hd hstate hid hcancel
  constructor
  · cases h : L.perform env (.controllerActions q now) with
    | error e => exact ⟨e, rfl⟩
    | ok L' =>
      obtain ⟨hL, hbody, hL'⟩ := perform_ok.1 h
      exact absurd hL' (hinvalid L' hL hbody)
  · intro L' hbody
    by_cases hL : L.Valid env
    · exact perform_rejected hL hbody (hinvalid L' hL hbody)
    · unfold perform transaction ensure
      rw [if_neg hL]
      rfl

def claimedRun : List Op := opened ++ [.decision sampleId .checkpoint 1 (sampleClaim .model) 3]

def sampleCancellation : ControllerControl where
  dispatchId := sampleId
  actionId := "cancel"
  expectedRetryRevision := 0
  reason := none

def sampleCancel : SubmitRequest := sampleSubmission [.cancelDispatch sampleCancellation]

theorem claimedRun_rows :
    ∃ r d L', (Machine.run (next .sample) {} claimedRun).dispatches.get? sampleId = some r ∧
      r.queue.state.isNonterminal ∧ r.decision? .checkpoint 1 = some d ∧ d.state = .claimed ∧
      (Machine.run (next .sample) {} claimedRun).body .sample (.controllerActions sampleCancel 4) =
        .ok L' := by
  have hrows : ((Machine.run (next .sample) {} claimedRun).dispatches.get? sampleId).any fun r =>
      r.queue.state.isNonterminal &&
        (r.decision? .checkpoint 1).any fun d => d.state = .claimed := by
    decide +kernel
  have hbody : ((Machine.run (next .sample) {} claimedRun).body .sample
      (.controllerActions sampleCancel 4)).toOption.isSome := by
    decide +kernel
  obtain ⟨r, hr, h⟩ := (Option.any_eq_true _ _).1 hrows
  obtain ⟨hactive, h⟩ := Bool.and_eq_true_iff.1 h
  obtain ⟨d, hd, hstate⟩ := (Option.any_eq_true _ _).1 h
  cases hrun : (Machine.run (next .sample) {} claimedRun).body .sample
      (.controllerActions sampleCancel 4) with
  | error e =>
    rw [hrun] at hbody
    cases hbody
  | ok L' => exact ⟨r, d, L', hr, hactive, hd, of_decide_eq_true hstate, rfl⟩

/-- The cancellation of the claimed decision passes every check of the call and is rolled back. -/
theorem claimedRun_refused :
    (Machine.run (next .sample) {} claimedRun).perform .sample (.controllerActions sampleCancel 4) =
      .error rowsRejected := by
  obtain ⟨r, d, L', hr, hactive, hd, hstate, hbody⟩ := claimedRun_rows
  exact (controller_cancellation_refused hr hactive hd hstate rfl (List.mem_singleton.2 rfl)).2
    L' hbody

theorem claimedRun_not_cancelled :
    ¬∀ (env : Env) (L : Ledger) (dispatchId : DispatchId) (cycle : ℕ) (r : DispatchRows)
      (d : ControllerDecision) (q : SubmitRequest) (control : ControllerControl) (now : Time),
      L.Reachable env → L.dispatches.get? dispatchId = some r → r.queue.state.isNonterminal →
      r.decision? .checkpoint cycle = some d → d.state = .claimed →
      q.bundle.decisionId = .dispatch dispatchId .checkpoint cycle →
      q.bundle.actions = [.cancelDispatch control] →
      (∃ L', L.body env (.controllerActions q now) = .ok L') →
      ∃ L', L.perform env (.controllerActions q now) = .ok L' := by
  intro h
  obtain ⟨r, d, L', hr, hactive, hd, hstate, hbody⟩ := claimedRun_rows
  obtain ⟨L'', hperform⟩ := h .sample _ sampleId 1 r d sampleCancel sampleCancellation 4 ⟨_, rfl⟩
    hr hactive hd hstate rfl rfl ⟨L', hbody⟩
  obtain ⟨hL, hbody, hL''⟩ := perform_ok.1 hperform
  exact submit_cancel_invalid hL hr hactive hd hstate rfl (List.mem_singleton.2 rfl) hbody hL''

/-! ### What an active dispatch has not yet -/

/-- No terminal fact is written yet. -/
structure DispatchRows.Blank (r : DispatchRows) : Prop where
  terminalStatus : r.queue.terminalStatus = none
  successorOutbox : r.successorOutbox = none
  notificationOutbox : r.notificationOutbox = none

theorem DispatchRows.Blank.keeps (hr : r.Blank) (h : r.Keeps s) : s.Blank where
  terminalStatus := h.terminalStatus.trans hr.terminalStatus
  successorOutbox := by
    rw [← Option.isNone_iff_eq_none, ← Option.not_isSome, h.successorOutbox, hr.successorOutbox]
    rfl
  notificationOutbox := by
    rw [← Option.isNone_iff_eq_none, ← Option.not_isSome, h.notificationOutbox,
      hr.notificationOutbox]
    rfl

theorem DispatchRows.Good.blank_of_cancelled (h : r.Good env keys dispatchId)
    (hstate : ¬r.queue.state.isNonterminal) (hterminal : ¬r.queue.state.isTerminal) : r.Blank := by
  have hne := h.ne_submitted
  have hcancelled : r.queue.state = .cancelled := by
    generalize r.queue.state = state at hstate hterminal hne ⊢
    revert hstate hterminal hne
    cases state <;> decide
  obtain ⟨hsuccessor, hnotification⟩ := h.valid.outbox.2.1 hcancelled
  exact ⟨(h.valid.queue.2.2.2.2 hcancelled).2.1, hsuccessor, hnotification⟩

theorem Moves.blank (h : Moves env L op dispatchId r s) (hgood : s.Good env keys dispatchId)
    (hs : ¬s.queue.state.isTerminal) (hr : r.Blank) : s.Blank := by
  have hcancel : ∀ {retain : Bool} {now : Time}, (r.cancel retain now).Blank :=
    ⟨rfl, hr.successorOutbox, hr.notificationOutbox⟩
  cases h with
  | keeps h => exact hr.keeps h
  | cancels retain now h => exact hcancel.keeps h
  | accepts h hstate => exact hgood.blank_of_cancelled hstate hs
  | finalizes _ _ hterminal _ _ hstate _ => exact absurd hterminal (hstate ▸ hs)
  | serves _ _ _ hqueue h =>
    exact ⟨hqueue ▸ hr.terminalStatus, h.successorOutbox.trans hr.successorOutbox,
      h.notificationOutbox.trans hr.notificationOutbox⟩
  | decides | reconcilesInflight | reconcilesExhausted => exact ⟨hr.1, hr.2, hr.3⟩
  | commits q now kind cycle d hop h =>
    obtain ⟨r₁, c, heffects, -, -, rfl⟩ := h.effects
    have hr₁ : r₁.Blank := heffects.elim hr.keeps hcancel.keeps
    exact ⟨hr₁.1, hr₁.2, hr₁.3⟩
  | opens q now h =>
    simp only [openDecision, ensureControllerDecision, steps_ok] at h
    obtain ⟨-, r₁, ⟨-, rfl⟩, rfl⟩ := h
    split_ifs <;> exact ⟨hr.1, hr.2, hr.3⟩
  | replans kind cycle revision now h =>
    unfold replan at h
    split at h
    · cases h
    simp only [steps_ok] at h
    obtain ⟨-, -, -, r₁, hinsert, rfl⟩ := h
    obtain ⟨decisions, rfl⟩ := insertWake_eq hinsert
    exact ⟨hr.1, hr.2, hr.3⟩
  | refreshes q now =>
    unfold refreshProfile
    split_ifs <;> exact ⟨hr.1, hr.2, hr.3⟩

theorem Reachable.blank (hL : L.Reachable env) (hr : L.dispatches.get? dispatchId = some r)
    (hstate : ¬r.queue.state.isTerminal) : r.Blank := by
  revert hstate
  refine hL.rows (I := fun r => ¬r.queue.state.isTerminal → r.Blank) (fun _ _ _ _ => ⟨rfl, rfl, rfl⟩)
    ?_ hr
  intro L op r r' hL hL' hr hr' hI hstate'
  obtain ⟨s, hs, hmoves⟩ := next_moves env op hr
  obtain rfl := Option.some.inj (hs.symm.trans hr')
  obtain ⟨t, ht, hlife, -⟩ := next_step hL op hr
  obtain rfl := Option.some.inj (ht.symm.trans hr')
  refine hmoves.blank (hL'.rows dispatchId t hr') hstate' (hI fun hterminal => hstate' ?_)
  have hsame : t.queue.state = r.queue.state := (hlife.terminal hterminal).1
  rw [hsame]
  exact hterminal

theorem ControllerDecision.Step.acknowledged {mints : String → Prop} {key : DecisionKey}
    (h : d.Step mints key d') :
    d'.acknowledgedAt = d.acknowledgedAt ∨ d.outbox.isSome := by
  cases h with
  | regenerate _ h | attend _ h | release _ h | reopen _ h | conclude _ h =>
    rw [h.same]
    exact .inl rfl
  | acknowledge _ _ _ _ houtbox => exact .inr houtbox
  | _ => exact .inl rfl

theorem Reachable.acknowledged (hL : L.Reachable env)
    (hp : L.pairAt (.dispatch dispatchId kind cycle) = some p)
    (hacknowledged : p.decision.acknowledgedAt.isSome) : p.decision.outbox.isSome := by
  revert hacknowledged
  refine hL.pair (I := fun p => p.decision.acknowledgedAt.isSome → p.decision.outbox.isSome)
    (fun p hfresh h => ?_) ?_ hp
  · rw [hfresh.acknowledged] at h
    cases h
  intro L op p p' _ _ _ _ hstep hI h
  have hsome : p.decision.outbox.isSome :=
    hstep.decision.acknowledged.elim (fun hsame => hI (hsame ▸ h)) id
  obtain ⟨o, ho⟩ := Option.isSome_iff_exists.1 hsome
  obtain ⟨t, ho'⟩ := hstep.decision.outbox ho
  rw [ho']
  rfl

/-! ### The rows of a cancelled dispatch -/

namespace ControllerDecision

/-- A decision that a human has to look at although it was committed. -/
def isAttended (d : ControllerDecision) : Bool :=
  d.kind = .checkpoint && d.state = .humanAttentionRequired && d.action.isSome

theorem supersede_valid {key : DecisionKey} (h : d.Valid env key)
    (hacknowledged : d.acknowledgedAt.isSome → d.outbox.isSome) :
    (d.supersede false now).Valid env key ↔ d.isAttended = false := by
  unfold supersede isAttended
  split_ifs with hopen
  · simp only [Bool.false_and, Bool.not_false, Bool.and_true, Bool.and_eq_true,
      decide_eq_true_eq] at hopen
    constructor
    · intro hvalid
      have haction : ¬d.action.isSome := by
        intro haction
        have hstate : ControllerDecisionState.superseded ∈
            [.actionCommitted, .acknowledged, .humanAttentionRequired] := hvalid.acted haction
        exact absurd hstate (by decide)
      simp [haction]
    · intro hattended
      have haction : d.action = none := by
        by_contra hsome
        have hsome := Option.isSome_iff_ne_none.2 hsome
        have hstate := h.acted hsome
        rw [hopen.1, hsome] at hattended
        generalize d.state = state at hstate hattended hopen
        revert hstate hattended hopen
        cases state <;> simp
      have houtbox : d.outbox = none := by
        have hsame := h.receipt.1
        rw [haction] at hsame
        exact Option.isNone_iff_eq_none.1 (Option.isSome_eq_false_iff.1 hsame.symm)
      have hacknowledged : ¬d.acknowledgedAt.isSome := by
        intro hsome
        rw [houtbox] at hacknowledged
        exact absurd (hacknowledged hsome) (by decide)
      exact {
        cycle := h.cycle
        generations := h.generations
        lease := rfl
        claimed := fun h => nomatch h
        unclaimed := fun (h : ControllerDecisionState.superseded ∈ _) => absurd h (by decide)
        attention := fun h => nomatch h
        committed := fun (h : ControllerDecisionState.superseded ∈ _) => absurd h (by decide)
        acted := fun hsome => absurd hsome (by rw [haction]; decide)
        receipt := ⟨h.receipt.1, fun o ho => absurd ho (by rw [houtbox]; exact fun h => nomatch h)⟩
        acknowledged := ⟨fun hsome => absurd hsome hacknowledged, fun h => nomatch h⟩
        superseded := rfl
        reason := ⟨rfl, rfl⟩ }
  · refine ⟨fun _ => ?_, fun _ => h⟩
    by_contra hattended
    simp only [Bool.not_eq_false, Bool.and_eq_true, decide_eq_true_eq] at hattended
    exact hopen (by simp [hattended.1.1, hattended.1.2])

end ControllerDecision
namespace DispatchRows

theorem cancel_wakes {retain : Bool} : (r.cancel retain now).wakes = r.terminalWakes := by
  refine List.filter_congr fun w _ => ?_
  cases w.kind <;> rfl

/-- Where the rows of a cancelled dispatch stop: a captured integrity, a terminal wake, a committed
decision that a human has to look at. -/
structure Cancellable (r : DispatchRows) : Prop where
  integrity : r.integrity = none
  terminalWakes : r.terminalWakes = []
  attended : ∀ d ∈ r.decisions, d.isAttended = false

instance (r : DispatchRows) : Decidable r.Cancellable :=
  decidable_of_iff (r.integrity = none ∧ r.terminalWakes = [] ∧
      ∀ d ∈ r.decisions, d.isAttended = false)
    ⟨fun h => ⟨h.1, h.2.1, h.2.2⟩, fun h => ⟨h.integrity, h.terminalWakes, h.attended⟩⟩

theorem cancelled_wakes_valid {retain : Bool} (hwakes : (r.cancel retain now).wakes = []) :
    (r.cancel retain now).WakesValid := by
  unfold WakesValid checkpointCycles terminalWakes
  rw [hwakes]
  exact ⟨fun w hw => (nomatch hw), Nat.zero_le _, .refl _, Nat.zero_le _, fun h => (nomatch h),
    fun _ => rfl⟩

theorem cancelled_decisions_valid (h : r.Valid env keys dispatchId) (hc : r.Cancellable)
    (hwakes : (r.cancel false now).wakes = [])
    (hacknowledged : ∀ d ∈ r.decisions, d.acknowledgedAt.isSome → d.outbox.isSome) :
    (r.cancel false now).DecisionsValid env dispatchId := by
  have hkept := fun d : ControllerDecision => @ControllerDecision.supersede_kept d now false
  have hnone : ∀ d, (r.cancel false now).wakeOf d = none := by
    intro d
    unfold wakeOf
    rw [hwakes]
    rfl
  refine ⟨?_, fun d' hd' => ?_⟩
  · show ((r.decisions.map (ControllerDecision.supersede false now)).map _).Nodup
    rw [List.map_map]
    refine (List.map_congr_left fun d _ => ?_) ▸ h.decisions.1
    exact Prod.ext (hkept d).1.symm (hkept d).2.symm
  obtain ⟨d, hd, rfl⟩ := List.mem_map.1 hd'
  obtain ⟨hvalid, hclosed, -⟩ := h.decisions.2 d hd
  refine ⟨?_, fun _ => ?_, fun w hw => absurd ((hnone _).symm.trans hw) (Option.some_ne_none w).symm⟩
  · rw [(hkept d).1, (hkept d).2]
    exact (ControllerDecision.supersede_valid hvalid (hacknowledged d hd)).2 (hc.attended d hd)
  · unfold ControllerDecision.supersede
    split_ifs with hopen
    · exact List.mem_cons_of_mem _ (List.mem_cons_of_mem _ List.mem_cons_self)
    · cases hkind : d.kind with
      | checkpoint =>
        by_contra hclosed
        exact hopen (by simp [hkind, hclosed])
      | terminal =>
        -- a terminal decision of a dispatch without a terminal wake is closed
        refine hclosed (List.find?_eq_none.2 fun w hw hsame => ?_)
        have hterminal : w ∈ r.terminalWakes := by
          refine List.mem_filter.2 ⟨hw, ?_⟩
          simp only [Bool.and_eq_true, decide_eq_true_eq] at hsame ⊢
          exact hsame.1.trans hkind
        rw [hc.terminalWakes] at hterminal
        cases hterminal

theorem cancel_valid (h : r.Valid env keys dispatchId) (hactive : r.queue.state.isNonterminal)
    (hblank : r.Blank)
    (hacknowledged : ∀ d ∈ r.decisions, d.acknowledgedAt.isSome → d.outbox.isSome) :
    (r.cancel false now).Valid env keys dispatchId ↔ r.Cancellable := by
  constructor
  · intro hvalid
    refine ⟨?_, ?_, fun d hd => ?_⟩
    · by_contra hsome
      obtain ⟨i, hi⟩ := Option.ne_none_iff_exists'.1 hsome
      obtain ⟨-, hnone, hresult⟩ := hvalid.integrity i hi
      cases hdigest : i.resultSha256 with
      | none =>
        have hstate : QueueState.cancelled ∈ _ := (hnone hdigest).2.2
        exact absurd hstate (by decide)
      | some digest =>
        have hstate : QueueState.cancelled ∈ _ := (hresult (by rw [hdigest]; rfl)).1
        exact absurd hstate (by decide)
    · rw [← cancel_wakes]
      exact hvalid.wakes.2.2.2.2.2 rfl
    · obtain ⟨hsuperseded, -⟩ := hvalid.decisions.2 _ (List.mem_map_of_mem hd)
      obtain ⟨hkind, hcycle⟩ := @ControllerDecision.supersede_kept d now false
      rw [hkind, hcycle] at hsuperseded
      exact (ControllerDecision.supersede_valid (h.decisions.2 d hd).1 (hacknowledged d hd)).1
        hsuperseded
  · intro hc
    have hwakes : (r.cancel false now).wakes = [] := cancel_wakes.trans hc.terminalWakes
    exact {
      integrity := fun i hi => absurd (hc.integrity.symm.trans hi) (Option.some_ne_none i).symm
      result := fun h => nomatch h
      capability := fun c hc => nomatch hc
      queue := ⟨h.queue.1, h.queue.2.1, fun (h : QueueState.cancelled ∈ _) => absurd h (by decide),
        fun (h : QueueState.cancelled.isNonterminal) => absurd h (by decide),
        fun _ => ⟨rfl, rfl, rfl⟩⟩
      outbox := ⟨fun (h : QueueState.cancelled.isTerminal) => absurd h (by decide), fun _ => ⟨hblank.successorOutbox, hblank.notificationOutbox⟩,
        fun s hs => absurd (hblank.successorOutbox.symm.trans hs) (Option.some_ne_none s).symm,
        fun n hn => absurd (hblank.notificationOutbox.symm.trans hn) (Option.some_ne_none n).symm⟩
      liveness := fun l hl => nomatch hl
      successors := ⟨h.successors.1, fun a ha => ⟨(h.successors.2 a ha).1, (h.successors.2 a ha).2.1,
        fun hreleased => absurd ((h.successors.2 a ha).2.2 hreleased)
          (Life.isTerminal_of_isNonterminal hactive)⟩⟩
      wakes := cancelled_wakes_valid hwakes
      recovery := ⟨h.recovery.1, h.recovery.2.1, h.recovery.2.2.1, h.recovery.2.2.2.1,
        h.recovery.2.2.2.2.1, rfl, rfl, fun _ hstate => nomatch hstate⟩
      policy := ⟨h.policy.1, h.policy.2.1, h.policy.2.2.1, h.policy.2.2.2.1, h.policy.2.2.2.2.1,
        h.policy.2.2.2.2.2.1, h.policy.2.2.2.2.2.2.1, rfl⟩
      controls := h.controls
      decisions := cancelled_decisions_valid h hc hwakes hacknowledged }

end DispatchRows

/-! ### Cancelling an active dispatch -/

theorem ControllerDecision.supersede_committed {key : DecisionKey} (h : d.Valid env key)
    (haction : d.action.isSome) (hkind : d.kind = .checkpoint) (hattended : d.isAttended = false) :
    d.supersede false now = d := by
  have hstate := h.acted haction
  unfold ControllerDecision.isAttended at hattended
  rw [hkind, haction] at hattended
  unfold ControllerDecision.supersede
  rw [if_neg]
  generalize d.state = state at hstate hattended ⊢
  revert hstate hattended
  cases state <;> simp

theorem cancelQueueRow_active {epoch : Option ℕ} (hactive : r.queue.state.isNonterminal)
    (hraw : r.queue.raw = none) (hblank : r.Blank)
    (hepoch : ∀ e ∈ epoch, r.queue.claim.map (·.epoch) = some e ∧ L.harnessLive e now) :
    L.cancelQueueRow epoch false now r = .ok (r.cancel false now) := by
  have hclaim : ∀ stale dead, L.requireClaimEpoch r.queue epoch stale dead now = .ok () := by
    intro stale dead
    cases epoch with
    | none => rfl
    | some e =>
      obtain ⟨hclaim, hlive⟩ := hepoch e rfl
      show (ensure _ _ >>= fun _ => ensure _ _) = _
      rw [ensure_of hclaim, ok_bind, ensure_of hlive]
  unfold cancelQueueRow
  rw [if_neg (Life.ne_cancelled_of_isNonterminal hactive), ensure_of hactive, hclaim,
    ensure_of (by rw [hraw, hblank.terminalStatus]; rfl),
    ensure_of (by rw [hblank.successorOutbox, hblank.notificationOutbox]; rfl),
    ensure_of (fun h => nomatch h)]
  rfl

/-- The dispatch of `r` is cancelled without a process or a result, and a decision that carries an
action is left as it is. -/
def Cancels (env : Env) (L : Ledger) (dispatchId : DispatchId) (r : DispatchRows)
    (epoch : Option ℕ) (now : Time) : Prop :=
  ∃ L' r', L.perform env (.cancel dispatchId epoch now) = .ok L' ∧
    L'.dispatches.get? dispatchId = some r' ∧ r'.queue.state = .cancelled ∧
    r'.capability = none ∧ r'.liveness = none ∧ r'.queue.raw = none ∧
    ∀ d ∈ r.decisions, d.kind = .checkpoint → d.action.isSome → d ∈ r'.decisions

/-- An active dispatch can be cancelled exactly when it has no captured integrity, no terminal wake
and no committed checkpoint decision that a human has to look at. -/
theorem active_dispatch_cancels (hL : L.Reachable env)
    (hr : L.dispatches.get? dispatchId = some r) (hactive : r.queue.state.isNonterminal)
    {epoch : Option ℕ}
    (hepoch : ∀ e ∈ epoch, r.queue.claim.map (·.epoch) = some e ∧ L.harnessLive e now) :
    L.Cancels env dispatchId r epoch now ↔ r.Cancellable := by
  have hvalid := hL.good.to_valid
  have hrows := hvalid.rows hr
  have hblank := hL.blank hr (Life.isTerminal_of_isNonterminal hactive)
  have hacknowledged : ∀ d ∈ r.decisions, d.acknowledgedAt.isSome → d.outbox.isSome := by
    intro d hd
    have hat : r.decision? d.kind d.cycleSequence = some d := decision?_of_mem hrows.decisions.1 hd
    have hp : L.pairAt (.dispatch dispatchId d.kind d.cycleSequence) =
        some ⟨d, r.wake? d.kind d.cycleSequence⟩ := by
      show (L.dispatches.get? dispatchId).bind _ = _
      rw [hr]
      exact pair?_eq_some.2 ⟨hat, rfl⟩
    exact hL.acknowledged hp
  have hcancel : (r.cancel false now).Valid env L.dispatches.keys dispatchId ↔ r.Cancellable :=
    cancel_valid hrows hactive hblank hacknowledged
  have hbody : L.body env (.cancel dispatchId epoch now) =
      .ok { L with dispatches := L.dispatches.set dispatchId (r.cancel false now) } :=
    onDispatch_ok.2 ⟨r, _, hr, cancelQueueRow_active hactive (hrows.queue.2.2.2.1 hactive).1 hblank
      hepoch, rfl⟩
  have hget : (L.dispatches.set dispatchId (r.cancel false now)).get? dispatchId =
      some (r.cancel false now) := Table.get?_set_self hr _
  constructor
  · rintro ⟨L', r', hperform, -⟩
    obtain ⟨-, hbody', hL'⟩ := perform_ok.1 hperform
    obtain rfl := Except.ok.inj (hbody.symm.trans hbody')
    have hrows' := hL'.rows hget
    rw [Table.keys_set] at hrows'
    exact hcancel.1 hrows'
  · intro hc
    refine ⟨_, _, perform_ok.2 ⟨hvalid, hbody, valid_set hvalid (hcancel.2 hc)⟩, hget, rfl, rfl, rfl,
      rfl, fun d hd hkind haction => List.mem_map.2 ⟨d, hd, ?_⟩⟩
    exact ControllerDecision.supersede_committed (hrows.decisions.2 d hd).1 haction hkind
      (hc.attended d hd)

/-- A started dispatch is cancelled under its own epoch. -/
theorem started_cancels :
    ∃ r, Cancels .sample (Machine.run (next .sample) {} (enqueued ++ started 1)) sampleId r (some 1)
      5 := by
  have hrun : ((Machine.run (next .sample) {} (enqueued ++ started 1)).dispatches.get? sampleId).any
      fun r => r.queue.state.isNonterminal && r.queue.claim.map (·.epoch) = some 1 &&
        (Machine.run (next .sample) {} (enqueued ++ started 1)).harnessLive 1 5 &&
        r.integrity.isNone && r.terminalWakes.isEmpty && r.decisions.isEmpty := by
    decide +kernel
  obtain ⟨r, hr, h⟩ := (Option.any_eq_true _ _).1 hrun
  simp only [Bool.and_eq_true, decide_eq_true_eq, Option.isNone_iff_eq_none,
    List.isEmpty_iff] at h
  obtain ⟨⟨⟨⟨⟨hactive, hclaim⟩, hlive⟩, hintegrity⟩, hwakes⟩, hdecisions⟩ := h
  refine ⟨r, (active_dispatch_cancels ⟨_, rfl⟩ hr hactive ?_).2 ⟨hintegrity, hwakes, ?_⟩⟩
  · rintro e ⟨⟩
    exact ⟨hclaim, hlive⟩
  · rw [hdecisions]
    exact fun d hd => nomatch hd

/-- A model asks for a human on its checkpoint decision. -/
def attendedRun : List Op :=
  claimedRun ++ [.controllerActions (sampleSubmission [.requireHumanAttention "look"]) 4]

theorem attendedRun_not_cancelled :
    ¬∀ (env : Env) (L : Ledger) (dispatchId : DispatchId) (r : DispatchRows) (epoch : Option ℕ)
      (now : Time), L.Reachable env → L.dispatches.get? dispatchId = some r →
      r.queue.state.isNonterminal →
      (∀ e ∈ epoch, r.queue.claim.map (·.epoch) = some e ∧ L.harnessLive e now) →
      L.Cancels env dispatchId r epoch now := by
  intro h
  have hrun : ((Machine.run (next .sample) {} attendedRun).dispatches.get? sampleId).any
      (·.queue.state.isNonterminal) ∧
      ((Machine.run (next .sample) {} attendedRun).perform .sample
        (.cancel sampleId none 5)).toOption.isNone := by
    decide +kernel
  obtain ⟨r, hr, hactive⟩ := (Option.any_eq_true _ _).1 hrun.1
  obtain ⟨L', r', hperform, -⟩ := h .sample _ sampleId r none 5 ⟨_, rfl⟩ hr hactive
    fun _ he => nomatch he
  rw [hperform] at hrun
  cases hrun.2

end CodexFlow.Ledger
