import CodexFlow.Ledger.DecisionFacts

/-!
# How the call on a decision ends

A decision and its wake are the only rows with their key. A call that leaves both alone commits the
ledger as it was, one whose body raises raises, and one whose rows do not validate is rolled back.
-/

namespace CodexFlow.Ledger

open Checked DecisionRows DispatchRows

variable {env : Env} {L L' : Ledger} {dispatchId : DispatchId} {r r' : DispatchRows} {op : Op}
  {kind : WakeKind} {cycle : ℕ} {d d' : ControllerDecision} {p p' : DecisionRows}
  {call : DecisionOp} {now : Time}

/-! ### Rows by key -/

namespace DispatchRows

theorem decision_unique (h : (r.decisions.map fun d => (d.kind, d.cycleSequence)).Nodup)
    (hd : r.decision? kind cycle = some d) (hmem : d' ∈ r.decisions) (hkind : d'.kind = kind)
    (hcycle : d'.cycleSequence = cycle) : d' = d := by
  obtain ⟨hdmem, hdkind, hdcycle⟩ := decision?_spec hd
  refine List.inj_on_of_nodup_map h hmem hdmem ?_
  simp only [Prod.mk.injEq]
  exact ⟨hkind.trans hdkind.symm, hcycle.trans hdcycle.symm⟩

theorem decision?_of_mem (h : (r.decisions.map fun d => (d.kind, d.cycleSequence)).Nodup)
    (hd : d ∈ r.decisions) : r.decision? d.kind d.cycleSequence = some d := by
  cases hfind : r.decision? d.kind d.cycleSequence with
  | none => exact absurd (List.find?_eq_none.1 hfind d hd) (by simp)
  | some d' => rw [decision_unique h hfind hd rfl rfl]

theorem WakesValid.checkpoint_nodup (h : r.WakesValid) : r.checkpointCycles.Nodup := by
  obtain ⟨-, -, hperm, -⟩ := h
  exact hperm.nodup_iff.2 List.nodup_range'

theorem WakesValid.unique (h : r.WakesValid) {w w' : Wake} (hw : w ∈ r.wakes) (hw' : w' ∈ r.wakes)
    (hkey : w.key = w'.key) : w = w' := by
  obtain ⟨hkind, hcycle⟩ := Prod.mk.inj hkey
  cases hcase : w.kind with
  | terminal =>
    have hlength : (r.wakes.filter (·.kind = .terminal)).length ≤ 1 := h.2.2.2.1
    obtain ⟨i, hi, rfl⟩ := List.getElem_of_mem
      (List.mem_filter.2 ⟨hw, by simp [hcase]⟩ : w ∈ r.terminalWakes)
    obtain ⟨j, hj, rfl⟩ := List.getElem_of_mem
      (List.mem_filter.2 ⟨hw', by simp [← hkind, hcase]⟩ : w' ∈ r.terminalWakes)
    have hi : i < (r.wakes.filter (·.kind = .terminal)).length := hi
    have hj : j < (r.wakes.filter (·.kind = .terminal)).length := hj
    obtain rfl : i = j := by omega
    rfl
  | checkpoint =>
    refine List.inj_on_of_nodup_map h.checkpoint_nodup (List.mem_filter.2 ⟨hw, ?_⟩)
      (List.mem_filter.2 ⟨hw', ?_⟩) hcycle
    · simp [hcase]
    · simp [← hkind, hcase]

theorem setDecision_self (h : r.Valid env L.dispatches.keys dispatchId)
    (hp : r.pair? kind cycle = some p) : r.setDecision kind cycle p = r := by
  obtain ⟨hd, hw⟩ := pair?_eq_some.1 hp
  have hdecisions : (r.decisions.map fun d =>
      if d.kind = kind && d.cycleSequence = cycle then p.decision else d) = r.decisions := by
    refine (List.map_congr_left fun d hmem => ?_).trans (List.map_id _)
    split_ifs with hkey
    · simp only [Bool.and_eq_true, decide_eq_true_eq] at hkey
      exact (decision_unique h.decisions.1 hd hmem hkey.1 hkey.2).symm
    · rfl
  have hwakes : (r.wakes.map fun w =>
      if w.kind = kind && w.cycleSequence = cycle then p.wake.getD w else w) = r.wakes := by
    refine (List.map_congr_left fun w hmem => ?_).trans (List.map_id _)
    split_ifs with hkey
    · simp only [Bool.and_eq_true, decide_eq_true_eq] at hkey
      cases hwake : p.wake with
      | none => rfl
      | some v =>
        obtain ⟨hv, hvkind, hvcycle⟩ := wake?_spec (hw.trans hwake)
        show v = w
        refine h.wakes.unique hv hmem ?_
        rw [Wake.key, Wake.key, hvkind, hvcycle, hkey.1, hkey.2]
    · rfl
  unfold setDecision
  rw [hdecisions, hwakes]

theorem setDecision_keys (hd : r.decision? kind cycle = some d)
    (hkept : p'.decision.kind = d.kind ∧ p'.decision.cycleSequence = d.cycleSequence)
    (hkey : p'.wake.map Wake.key = (r.wake? kind cycle).map Wake.key) :
    ((r.setDecision kind cycle p').decisions.map fun d => (d.kind, d.cycleSequence)) =
        r.decisions.map (fun d => (d.kind, d.cycleSequence)) ∧
      (r.setDecision kind cycle p').wakes.map Wake.key = r.wakes.map Wake.key := by
  obtain ⟨-, hkind, hcycle⟩ := decision?_spec hd
  constructor
  · show ((r.decisions.map _).map _) = _
    rw [List.map_map]
    refine List.map_congr_left fun e _ => ?_
    simp only [Function.comp_apply]
    split_ifs with he
    · simp only [Bool.and_eq_true, decide_eq_true_eq] at he
      rw [hkept.1, hkept.2, hkind, hcycle, he.1, he.2]
    · rfl
  · show ((r.wakes.map _).map _) = _
    rw [List.map_map]
    refine List.map_congr_left fun w _ => ?_
    simp only [Function.comp_apply]
    split_ifs with hw
    · simp only [Bool.and_eq_true, decide_eq_true_eq] at hw
      cases hwake : p'.wake with
      | none => rfl
      | some w' =>
        rw [hwake] at hkey
        obtain ⟨v, hv, hsame⟩ := Option.map_eq_some_iff.1 hkey.symm
        obtain ⟨-, hvkind, hvcycle⟩ := wake?_spec hv
        rw [Option.getD_some, ← hsame, Wake.key, Wake.key, hvkind, hvcycle, hw.1, hw.2]
    · rfl

theorem checkpointCycles_eq :
    r.checkpointCycles = ((r.wakes.map Wake.key).filter (·.1 = .checkpoint)).map Prod.snd := by
  rw [List.filter_map, List.map_map]
  rfl

theorem terminalWakes_length :
    r.terminalWakes.length = ((r.wakes.map Wake.key).filter (·.1 = .terminal)).length := by
  rw [List.filter_map, List.length_map]
  rfl

theorem WakeValid.congr {w : Wake} (h : r.WakeValid w) (hqueue : r'.queue = r.queue)
    (hbinding : r'.binding = r.binding)
    (hkeys : (r'.decisions.map fun d => (d.kind, d.cycleSequence)) =
      r.decisions.map fun d => (d.kind, d.cycleSequence)) : r'.WakeValid w := by
  unfold WakeValid at h ⊢
  obtain ⟨hcycle, ⟨d, hd, hkind, hsequence⟩, hrest⟩ := h
  have hmem : (d.kind, d.cycleSequence) ∈ r'.decisions.map fun d => (d.kind, d.cycleSequence) :=
    hkeys ▸ List.mem_map.2 ⟨d, hd, rfl⟩
  obtain ⟨d', hd', hsame⟩ := List.mem_map.1 hmem
  obtain ⟨hkind', hsequence'⟩ := Prod.mk.inj hsame
  refine ⟨hcycle, ⟨d', hd', hkind'.trans hkind, hsequence'.trans hsequence⟩, ?_⟩
  unfold payloadValid rawSha256 at hrest ⊢
  rw [hqueue, hbinding]
  exact hrest

theorem WakesValid.of_keys (h : r.WakesValid) (hqueue : r'.queue = r.queue)
    (hkeys : r'.wakes.map Wake.key = r.wakes.map Wake.key) (hrows : ∀ w ∈ r'.wakes, r'.WakeValid w) :
    r'.WakesValid := by
  have hcycles : r'.checkpointCycles = r.checkpointCycles := by
    rw [checkpointCycles_eq, checkpointCycles_eq, hkeys]
  have hterminal : r'.terminalWakes.length = r.terminalWakes.length := by
    rw [terminalWakes_length, terminalWakes_length, hkeys]
  obtain ⟨-, hlength, hperm, hone, hexact, hempty⟩ := h
  refine ⟨hrows, hcycles ▸ hlength, hcycles ▸ hperm, hterminal ▸ hone, ?_, ?_⟩
  · rw [hqueue, hterminal]
    exact hexact
  · rw [hqueue]
    intro hstate
    rw [hempty hstate] at hkeys
    exact List.map_eq_nil_iff.1 hkeys

/-- The rows stay valid when the decision and its wake that are written back are. -/
theorem setDecision_valid {keys : List DispatchId} (h : r.Valid env keys dispatchId)
    (hp : r.pair? kind cycle = some p)
    (hkept : p'.decision.kind = p.decision.kind ∧
      p'.decision.cycleSequence = p.decision.cycleSequence)
    (hkey : p'.wake.map Wake.key = p.wake.map Wake.key)
    (hvalid : p'.decision.Valid env (.dispatch dispatchId kind cycle))
    (hwakes : ∀ w ∈ p'.wake, r.WakeValid w ∧ wakeAgrees p'.decision w)
    (hnone : p'.wake = none → p'.decision.state ∈
      [.actionCommitted, .acknowledged, .superseded, .legacyClosed]) :
    (r.setDecision kind cycle p').Valid env keys dispatchId := by
  obtain ⟨hd, hw⟩ := pair?_eq_some.1 hp
  obtain ⟨hdecisions, hwakeKeys⟩ := setDecision_keys hd hkept (hw ▸ hkey)
  have hpair := fun kind₁ cycle₁ =>
    @setDecision_pair? _ _ kind₁ cycle₁ _ _ _ hd hkept (hw ▸ hkey)
  have hnodup := h.decisions.1
  rw [← hdecisions] at hnodup
  exact {
    integrity := h.integrity
    result := h.result
    capability := h.capability
    queue := h.queue
    outbox := h.outbox
    liveness := h.liveness
    successors := h.successors
    wakes := by
      refine h.wakes.of_keys rfl hwakeKeys fun w' hw' => ?_
      obtain ⟨w, hmem, rfl⟩ := List.mem_map.1 hw'
      refine WakeValid.congr (r := r) ?_ rfl rfl hdecisions
      have hw := h.wakes.1 w hmem
      split_ifs
      · cases hwake : p'.wake with
        | none => exact hw
        | some v => exact (hwakes v hwake).1
      · exact hw
    recovery := h.recovery
    policy := h.policy
    controls := h.controls
    decisions := by
      refine ⟨hnodup, fun d' hd' => ?_⟩
      have hpair₁ : (r.setDecision kind cycle p').pair? d'.kind d'.cycleSequence =
          some ⟨d', (r.setDecision kind cycle p').wakeOf d'⟩ :=
        pair?_eq_some.2 ⟨decision?_of_mem hnodup hd', rfl⟩
      have hpair' := hpair₁.symm.trans (hpair d'.kind d'.cycleSequence)
      split_ifs at hpair' with hsame
      · -- the decision that was written back
        rw [← Option.some.inj hpair'] at hvalid hwakes hnone
        refine ⟨?_, hnone, fun w hw => (hwakes w hw).2⟩
        rw [hsame.1, hsame.2]
        exact hvalid
      · obtain ⟨hd₁, hw₁⟩ := pair?_eq_some.1 hpair'.symm
        obtain ⟨hvalid₁, hnone₁, hagrees₁⟩ := h.decisions.2 d' (decision?_spec hd₁).1
        have hwake : (r.setDecision kind cycle p').wakeOf d' = r.wakeOf d' := hw₁.symm
        exact ⟨hvalid₁, hwake ▸ hnone₁, hwake ▸ hagrees₁⟩ }

end DispatchRows

theorem pairAt_set (hr : L.dispatches.get? dispatchId = some r) :
    pairAt { L with dispatches := L.dispatches.set dispatchId r' } (.dispatch dispatchId kind cycle) =
      r'.pair? kind cycle := by
  show (((L.dispatches.set dispatchId r').get? dispatchId).bind _) = _
  rw [Table.get?_set_self hr]
  rfl

theorem Valid.wakeValid (hL : L.Valid env)
    (hp : L.pairAt (.dispatch dispatchId kind cycle) = some p)
    (hr : L.dispatches.get? dispatchId = some r) {w : Wake} (hw : w ∈ p.wake) : r.WakeValid w := by
  obtain ⟨s, hs, hpair⟩ := Option.bind_eq_some_iff.1 hp
  obtain rfl := Option.some.inj (hr.symm.trans hs)
  exact (hL.rows hr).wakes.1 w (wake?_spec ((pair?_eq_some.1 hpair).2.trans hw)).1

/-! ### Transactions -/

theorem perform_of_error {e : LedgerError} (hL : L.Valid env) (h : L.body env op = .error e) :
    L.perform env op = .error e := by
  unfold perform transaction
  rw [ensure_of hL, ok_bind, h]
  rfl

theorem perform_rejected (hL : L.Valid env) (h : L.body env op = .ok L') (hL' : ¬L'.Valid env) :
    L.perform env op = .error rowsRejected := by
  unfold perform transaction
  rw [ensure_of hL, ok_bind, h, ok_bind]
  unfold ensure
  rw [if_neg (show ¬Valid env (id L') from hL')]
  rfl

theorem body_decision (hp : L.pairAt (.dispatch dispatchId kind cycle) = some p)
    (hcheck : call.check env now = .ok ()) :
    ∃ r, L.dispatches.get? dispatchId = some r ∧ r.pair? kind cycle = some p ∧
      L.body env (.decision dispatchId kind cycle call now) =
        (call.run env (L.decisionContext (.dispatch dispatchId kind cycle) none) now p).map fun p' =>
          { L with dispatches := L.dispatches.set dispatchId (r.setDecision kind cycle p') } := by
  obtain ⟨r, hr, hp⟩ := Option.bind_eq_some_iff.1 hp
  refine ⟨r, hr, hp, ?_⟩
  obtain ⟨hd, hw⟩ := pair?_eq_some.1 hp
  obtain ⟨d, w⟩ := p
  obtain rfl : r.wake? kind cycle = w := hw
  simp only [body, onDispatchDecision, onDispatch, onDecision, hcheck, hr, hd, ok_bind]
  cases DecisionOp.run env (L.decisionContext (.dispatch dispatchId kind cycle) none) now
    ⟨d, r.wake? kind cycle⟩ call <;> rfl

section

variable (hL : L.Valid env) (hp : L.pairAt (.dispatch dispatchId kind cycle) = some p)
  (hcheck : call.check env now = .ok ())

include hL hp hcheck

theorem perform_decision_error {e : LedgerError}
    (hrun : call.run env (L.decisionContext (.dispatch dispatchId kind cycle) none) now p =
      .error e) :
    L.perform env (.decision dispatchId kind cycle call now) = .error e := by
  obtain ⟨r, -, -, hbody⟩ := body_decision hp hcheck
  refine perform_of_error hL ?_
  rw [hbody, hrun]
  rfl

theorem perform_decision_same
    (hrun : call.run env (L.decisionContext (.dispatch dispatchId kind cycle) none) now p =
      .ok p) :
    L.perform env (.decision dispatchId kind cycle call now) = .ok L := by
  obtain ⟨r, hr, hpair, hbody⟩ := body_decision hp hcheck
  refine perform_ok.2 ⟨hL, ?_, hL⟩
  rw [hbody, hrun]
  show Except.ok { L with dispatches := L.dispatches.set dispatchId _ } = _
  rw [setDecision_self (hL.rows hr) hpair, Table.set_self hr]

theorem perform_decision_rejected
    (hrun : call.run env (L.decisionContext (.dispatch dispatchId kind cycle) none) now p =
      .ok p') (hp' : ¬(p'.decision.Valid env (.dispatch dispatchId kind cycle) ∧
        ∀ w ∈ p'.wake, wakeAgrees p'.decision w)) :
    L.perform env (.decision dispatchId kind cycle call now) = .error rowsRejected := by
  obtain ⟨r, hr, hpair, hbody⟩ := body_decision hp hcheck
  rw [hrun] at hbody
  refine perform_rejected hL hbody fun hL' => hp' ?_
  have hcall := run_step hrun
  have hpair' : (r.setDecision kind cycle p').pair? kind cycle = some p' := by
    obtain ⟨hd, hw⟩ := pair?_eq_some.1 hpair
    rw [setDecision_pair? hd hcall.decision.kept (hw ▸ hcall.key), if_pos ⟨rfl, rfl⟩]
  have hrows := hL'.decisionValid ((pairAt_set hr).trans hpair')
  exact ⟨hrows.1, hrows.2.2⟩

theorem perform_decision_ok
    (hrun : call.run env (L.decisionContext (.dispatch dispatchId kind cycle) none) now p =
      .ok p') (hp' : p'.decision.Valid env (.dispatch dispatchId kind cycle))
    (hwakes : ∀ r, L.dispatches.get? dispatchId = some r → ∀ w ∈ p'.wake,
      r.WakeValid w ∧ wakeAgrees p'.decision w)
    (hnone : p'.wake = none → p'.decision.state ∈
      [.actionCommitted, .acknowledged, .superseded, .legacyClosed]) :
    ∃ L', L.perform env (.decision dispatchId kind cycle call now) = .ok L' ∧
      L'.pairAt (.dispatch dispatchId kind cycle) = some p' := by
  obtain ⟨r, hr, hpair, hbody⟩ := body_decision hp hcheck
  rw [hrun] at hbody
  have hcall := run_step hrun
  have hrows := setDecision_valid (hL.rows hr) hpair hcall.decision.kept hcall.key hp'
    (hwakes r hr) hnone
  refine ⟨_, perform_ok.2 ⟨hL, hbody, valid_set hL hrows⟩, (pairAt_set hr).trans ?_⟩
  obtain ⟨hd, hw⟩ := pair?_eq_some.1 hpair
  rw [setDecision_pair? hd hcall.decision.kept (hw ▸ hcall.key), if_pos ⟨rfl, rfl⟩]

end

end CodexFlow.Ledger
