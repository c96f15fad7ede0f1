import CodexFlow.Ledger.Fencing
import CodexFlow.Ledger.Transactions

/-!
# Receipts

The bundle that a decision of a dispatch commits is final: nothing changes it, its claimant or the
revision it was committed at, and the decision has one receipt. What an expired claim leaves of an
inspection is written without a look at the action, so that the rows are refused when an inspection
that was still open at the commit runs out.
-/

namespace CodexFlow.Ledger

open Checked DecisionRows DispatchRows

variable {env : Env} {L L' : Ledger} {dispatchId : DispatchId} {kind : WakeKind} {cycle : ℕ}
  {mints : String → Prop} {d d' d'' : ControllerDecision} {o : ActionOutbox} {p : DecisionRows}
  {now : Time}

/-! ### One receipt -/

/-- The rows of `controller_action_outbox` for a decision. -/
def outboxRows (L : Ledger) (decisionId : DecisionKey) : List ActionOutbox :=
  (L.decisions.filter (·.1 = decisionId)).filterMap (·.2.outbox)

def DecisionKey.cycleKey : DecisionKey → WakeKind × ℕ
  | .dispatch _ kind cycle => (kind, cycle)
  | .program _ => (.terminal, 0)

theorem dispatchKeys_nodup (hL : L.Valid env) :
    (L.dispatches.entries.flatMap fun entry => entry.2.decisions.map fun d =>
      DecisionKey.dispatch entry.1 d.kind d.cycleSequence).Nodup := by
  refine List.nodup_flatMap.2 ⟨fun entry hmem => ?_, ?_⟩
  · have hkeys := (hL.1 entry hmem).decisions.1
    refine List.Nodup.of_map DecisionKey.cycleKey ?_
    rw [List.map_map]
    exact hkeys
  · have hkeys := L.dispatches.nodup
    rw [List.Nodup, List.pairwise_map] at hkeys
    refine hkeys.imp fun hne => ?_
    rw [Function.onFun, List.disjoint_iff_ne]
    rintro key hkey key' hkey' rfl
    obtain ⟨d, -, rfl⟩ := List.mem_map.1 hkey
    obtain ⟨d', -, heq⟩ := List.mem_map.1 hkey'
    exact hne (DecisionKey.dispatch.inj heq).1.symm

theorem decisions_nodup (hL : L.Valid env) : (L.decisions.map Prod.fst).Nodup := by
  unfold decisions
  simp only [List.map_append, List.map_flatMap, List.map_map, Function.comp_def]
  refine List.nodup_append.2 ⟨dispatchKeys_nodup hL, ?_, ?_⟩
  · have hkeys := L.programDecisions.nodup.map (f := DecisionKey.program)
      fun _ _ h => DecisionKey.program.inj h
    rw [List.map_map] at hkeys
    exact hkeys
  · rintro key hkey key' hkey' rfl
    obtain ⟨entry, -, hkey⟩ := List.mem_flatMap.1 hkey
    obtain ⟨d, -, rfl⟩ := List.mem_map.1 hkey
    obtain ⟨entry', -, heq⟩ := List.mem_map.1 hkey'
    cases heq

theorem outboxRows_length (hL : L.Valid env) (decisionId : DecisionKey) :
    (L.outboxRows decisionId).length ≤ 1 := by
  have hcount := List.nodup_iff_count_le_one.1 (decisions_nodup hL) decisionId
  rw [List.count, List.countP_map, List.countP_eq_length_filter] at hcount
  exact (List.length_filterMap_le ..).trans hcount

/-! ### What a committed decision keeps -/

/-- The action, its claimant and its revision are those of the commit, and the receipt may have been
acknowledged. -/
structure ControllerDecision.Final (d d' : ControllerDecision) : Prop where
  action : d'.action = d.action
  claimant : d'.claimant = d.claimant
  revision : d'.revision = d.revision
  outbox : ∀ o ∈ d.outbox, ∃ acknowledgedAt,
    d'.outbox = some { o with acknowledgedAt := acknowledgedAt }

namespace ControllerDecision

theorem Final.refl (d : ControllerDecision) : d.Final d where
  action := rfl
  claimant := rfl
  revision := rfl
  outbox := fun o ho => ⟨o.acknowledgedAt, ho⟩

theorem Final.trans (h : d.Final d') (h' : d'.Final d'') : d.Final d'' where
  action := h'.action.trans h.action
  claimant := h'.claimant.trans h.claimant
  revision := h'.revision.trans h.revision
  outbox := by
    intro o ho
    obtain ⟨t, ho'⟩ := h.outbox o ho
    obtain ⟨t', ho''⟩ := h'.outbox _ (Option.mem_def.2 ho')
    exact ⟨t', ho''⟩

theorem Valid.committed_of_outbox {key : DecisionKey} (h : d.Valid env key)
    (ho : d.outbox = some o) :
    d.action = some ⟨o.actionId, o.bundle, o.bundleSha256, o.committedAt⟩ ∧
      o.expectedRevision + 1 = d.revision ∧ d.claimant.isSome ∧ d.isClosed ∧
      d.state ≠ .claimed ∧ d.claimLeaseExpiresAt = none := by
  obtain ⟨haction, -, -, hrevision, hclaimant, -⟩ := h.receipt.2 o ho
  have hstate := h.acted (by rw [haction]; rfl)
  have hnot : d.state ≠ .claimed := by
    intro hclaimed
    rw [hclaimed] at hstate
    exact absurd hstate (by decide)
  refine ⟨haction, hrevision, ?_, ?_, hnot, ?_⟩
  · obtain ⟨c, hc, -⟩ := (Option.any_eq_true _ _).1 hclaimant
    exact Option.isSome_iff_exists.2 ⟨c, hc⟩
  · unfold isClosed
    rw [haction, Option.isSome_some]
    generalize d.state = state at hstate ⊢
    revert hstate
    cases state <;> decide
  · rw [← Option.isNone_iff_eq_none, ← Option.not_isSome, h.lease]
    simpa using hnot

theorem Step.final {key : DecisionKey} (h : d.Step mints key d') (hkey : key.dispatchId? ≠ none)
    (hvalid : d.Valid env key) (hvalid' : d'.Valid env key) (ho : d.outbox = some o) :
    d.Final d' := by
  obtain ⟨t, ho'⟩ := h.outbox ho
  obtain ⟨haction, hrevision, hclaimant, -⟩ := hvalid.committed_of_outbox ho
  obtain ⟨haction', hrevision', hclaimant', -⟩ := hvalid'.committed_of_outbox ho'
  refine ⟨haction'.trans haction.symm, ?_, hrevision'.symm.trans hrevision, fun o₁ ho₁ => ?_⟩
  · obtain hsame | hnone | ⟨c, hc, -, hfree | ⟨hnone, -⟩⟩ := h.claimant
    · exact hsame
    · rw [hnone] at hclaimant'
      cases hclaimant'
    · rw [hfree] at hclaimant
      cases hclaimant
    · exact absurd hnone hkey
  · obtain rfl := Option.some.inj (ho.symm.trans ho₁)
    exact ⟨t, ho'⟩

end ControllerDecision

theorem run_final (hL : L.Valid env)
    (hd : L.decisionAt (.dispatch dispatchId kind cycle) = some d) (ho : d.outbox = some o)
    (ops : List Op) :
    ∃ d', (Machine.run (next env) L ops).decisionAt (.dispatch dispatchId kind cycle) = some d' ∧
      d.Final d' := by
  refine (@Machine.invariant _ _ (next env) (fun L' => L'.Valid env ∧
    ∃ d', L'.decisionAt (.dispatch dispatchId kind cycle) = some d' ∧ d.Final d') ?_ _
    ⟨hL, d, hd, .refl d⟩ ops).2
  rintro L' op ⟨hL', d', hd', hfinal⟩
  obtain ⟨wake, hp⟩ := pairAt_of_decisionAt hd'
  obtain ⟨p', hp', hstep⟩ := next_pair env op hp
  obtain ⟨t, ho'⟩ := hfinal.outbox o ho
  refine ⟨next_valid hL' op, p'.decision, decisionAt_of_pairAt hp', hfinal.trans ?_⟩
  exact hstep.decision.final (Option.some_ne_none _) (hL'.decisionValid hp).1
    ((next_valid hL' op).decisionValid hp').1 ho'

/-! ### An inspection that was open at the commit -/

/-- `reserve_controller_recovery_inspection`: an expired reservation is closed in a transaction of
its own, before the call raises. -/
def reserveControllerRecoveryInspection (env : Env) (L : Ledger) (dispatchId : DispatchId)
    (kind : WakeKind) (cycle : ℕ) (minted : String) (now : Time) : Checked Ledger := do
  let expired := (L.decisionAt (.dispatch dispatchId kind cycle)).any fun d =>
    d.generation.inspectionExpired now
  let L' ← L.perform env (.decision dispatchId kind cycle .expireInspection now)
  ensure (!expired) (.staleWriter "controller recovery inspection lease has expired")
  L'.perform env (.decision dispatchId kind cycle (.reserveInspection minted) now)

/-- `CorruptSchemaError` -/
def RaisesCorruptSchema (call : Checked Ledger) : Prop :=
  ∃ text, call = .error (.corruptSchema text)

namespace ControllerDecision

theorem HumanClear.model (h : d.HumanClear) (hclaimant : d.claimant.isSome)
    (hpending : d.generation.inspectionPending) : d.isModelClaim := by
  obtain ⟨c, hc⟩ := Option.isSome_iff_exists.1 hclaimant
  cases hkind : c.kind with
  | model => exact (Option.any_eq_true _ _).2 ⟨c, hc, decide_eq_true hkind⟩
  | human =>
    have hhuman : d.isHumanClaim := (Option.any_eq_true _ _).2 ⟨c, hc, decide_eq_true hkind⟩
    rw [(h hhuman).1] at hpending
    cases hpending

/-- A decision that lost its claimant and kept its action is refused. -/
theorem expireInspection_invalid {key : DecisionKey} (haction : d.action.isSome) :
    ¬(d.expireInspection now).Valid env key := by
  intro hvalid
  have hattention : (none : Option Claimant).isSome = d.action.isSome := hvalid.attention rfl
  rw [haction] at hattention
  cases hattention

end ControllerDecision

section

variable (hL : L.Reachable env) (hp : L.pairAt (.dispatch dispatchId kind cycle) = some p)
  (ho : p.decision.outbox = some o)

include hL hp ho

theorem reap_committed :
    p.reap (.dispatch dispatchId kind cycle) now =
      .ok (if p.decision.generation.inspectionExpired now then
        { p with decision := p.decision.expireInspection now } else p) := by
  obtain ⟨haction, -, hclaimant, -, -, hlease⟩ :=
    (hL.good.to_valid.decisionValid hp).1.committed_of_outbox ho
  unfold reap
  dsimp only
  simp only [haction, Option.isNone_some, Bool.false_and, Bool.false_eq_true, if_false]
  by_cases hexpired : p.decision.generation.inspectionExpired now
  · have hmodel := (hL.humanClear hp).model hclaimant
      (ControllerGeneration.pending_of_expired hexpired)
    simp only [hexpired, hmodel, Bool.and_self, if_true]
    rfl
  · have hlive : p.decision.leaseExpired now = false := by
      unfold ControllerDecision.leaseExpired
      rw [hlease]
      rfl
    simp only [hexpired, hlive, Bool.and_false, Bool.false_eq_true, if_false, Bool.not_false,
      Bool.or_true, if_true]
    rfl

theorem perform_reap_committed :
    L.perform env (.decision dispatchId kind cycle .reap now) =
      if p.decision.generation.inspectionExpired now then .error rowsRejected else .ok L := by
  have hvalid := hL.good.to_valid
  obtain ⟨haction, -⟩ := (hvalid.decisionValid hp).1.committed_of_outbox ho
  have hrun := @reap_committed _ _ _ _ _ _ _ now hL hp ho
  split_ifs at hrun ⊢
  · exact perform_decision_rejected hvalid hp rfl hrun fun h =>
      ControllerDecision.expireInspection_invalid (by rw [haction]; rfl) h.1
  · exact perform_decision_same hvalid hp rfl hrun

theorem perform_expire_committed :
    L.perform env (.decision dispatchId kind cycle .expireInspection now) =
      if p.decision.generation.inspectionExpired now then .error rowsRejected else .ok L := by
  have hvalid := hL.good.to_valid
  obtain ⟨haction, -⟩ := (hvalid.decisionValid hp).1.committed_of_outbox ho
  have hrun : p.expireInspection now = .ok (if p.decision.generation.inspectionExpired now then
    { p with decision := p.decision.expireInspection now } else p) := rfl
  split_ifs at hrun ⊢
  · exact perform_decision_rejected hvalid hp rfl hrun fun h =>
      ControllerDecision.expireInspection_invalid (by rw [haction]; rfl) h.1
  · exact perform_decision_same hvalid hp rfl hrun

theorem perform_reserve_committed (minted : String) :
    L.perform env (.decision dispatchId kind cycle (.reserveInspection minted) now) =
      .error (.staleWriter "controller decision is terminal") := by
  have hvalid := hL.good.to_valid
  obtain ⟨-, -, -, hclosed, -⟩ := (hvalid.decisionValid hp).1.committed_of_outbox ho
  refine perform_decision_error hvalid hp rfl ?_
  show p.reserveInspection env minted now = _
  unfold reserveInspection ensure
  simp only [hclosed, Bool.not_true, Bool.false_eq_true, if_false]
  rfl

end

/-- The bundle, the claimant and the revision of a committed decision are final, and it has one
receipt. Neither the reap of its claim nor the reservation of an inspection fails as corrupt, exactly
as long as no inspection that was open at the commit has run out. -/
theorem committed_action_final (hL : L.Reachable env)
    (hd : L.decisionAt (.dispatch dispatchId kind cycle) = some d) (ho : d.outbox = some o) :
    (∀ ops, (∃ d', (Machine.run (next env) L ops).decisionAt (.dispatch dispatchId kind cycle) =
        some d' ∧ d.Final d') ∧
      ((Machine.run (next env) L ops).outboxRows (.dispatch dispatchId kind cycle)).length ≤ 1) ∧
    ∀ minted now,
      (¬RaisesCorruptSchema (L.perform env (.decision dispatchId kind cycle .reap now)) ∧
        ¬RaisesCorruptSchema
          (L.reserveControllerRecoveryInspection env dispatchId kind cycle minted now)) ↔
      ¬d.generation.inspectionExpired now := by
  have hvalid := hL.good.to_valid
  refine ⟨fun ops => ⟨run_final hvalid hd ho ops, ?_⟩, fun minted now => ?_⟩
  · exact outboxRows_length
      (Machine.invariant (I := Valid env) (fun _ op h => next_valid h op) hvalid ops) _
  obtain ⟨wake, hp⟩ := pairAt_of_decisionAt hd
  have hreap := @perform_reap_committed _ _ _ _ _ _ _ now hL hp ho
  have hexpire := @perform_expire_committed _ _ _ _ _ _ _ now hL hp ho
  dsimp only at hreap hexpire
  unfold reserveControllerRecoveryInspection RaisesCorruptSchema
  rw [hreap, hexpire, hd]
  split_ifs with hexpired
  · simp [rowsRejected, hexpired]
  · rw [ok_bind, perform_reserve_committed hL hp ho]
    simp [hexpired, ensure]

/-! ### A lease that runs out after the commit -/

def sampleKey : DecisionKey := .dispatch sampleId .checkpoint 1

/-- The first checkpoint decision of the queued dispatch waits for a claim. -/
def opened : List Op :=
  enqueued ++ [.openDecision sampleId
    { kind := .checkpoint, payload := .direct .queued, sourceThreadId := none
      deadline := seconds 3600 } 2]

def sampleClaim (kind : ControllerClaimantKind) : DecisionOp :=
  .claim { claimantKind := kind, claimantId := "controller", expectedRevision := 0 } "token"

def sampleBundle (actions : List ControllerAction) : ControllerActionBundle where
  decisionId := sampleKey
  generation := 1
  actionId := "action"
  expectedRevision := 1
  expectedSuccessorDispatchIds := []
  actions := actions
  rationale := "done"

def sampleSubmission (actions : List ControllerAction) : SubmitRequest where
  bundle := sampleBundle actions
  claimantId := "controller"
  token := "token"

/-- A model claims the decision, reserves its inspection and commits without it. -/
def committedEarly : List Op :=
  opened ++ [.decision sampleId .checkpoint 1 (sampleClaim .model) 3,
    .decision sampleId .checkpoint 1 (.reserveInspection "token") 4,
    .controllerActions (sampleSubmission [.acknowledgeOnly]) 5]

theorem committedEarly_decision :
    ∃ d o, (Machine.run (next .sample) {} committedEarly).decisionAt sampleKey = some d ∧
      d.outbox = some o ∧ d.generation.inspectionExpired (seconds 600) = true ∧
      d.generation.inspectionExpired 6 = false := by
  have hrun : ((Machine.run (next .sample) {} committedEarly).decisionAt sampleKey).any fun d =>
      d.outbox.isSome && d.generation.inspectionExpired (seconds 600) &&
        !d.generation.inspectionExpired 6 := by
    decide +kernel
  obtain ⟨d, hd, h⟩ := (Option.any_eq_true _ _).1 hrun
  simp only [Bool.and_eq_true, Bool.not_eq_true'] at h
  obtain ⟨o, ho⟩ := Option.isSome_iff_exists.1 h.1.1
  exact ⟨d, o, hd, ho, h.1.2, h.2⟩

/-- While the inspection is live, the reap of the committed decision is no corruption. -/
theorem committedEarly_final :
    ¬RaisesCorruptSchema ((Machine.run (next .sample) {} committedEarly).perform .sample
      (.decision sampleId .checkpoint 1 .reap 6)) := by
  obtain ⟨d, o, hd, ho, -, hlive⟩ := committedEarly_decision
  exact ((committed_action_final ⟨_, rfl⟩ hd ho).2 "token" 6).2 (by simp [hlive]) |>.1

/-- Ten minutes later the same reap is refused as a corruption of the rows. -/
theorem committedEarly_corrupt :
    ¬∀ (env : Env) (L : Ledger) (dispatchId : DispatchId) (kind : WakeKind) (cycle : ℕ)
      (d : ControllerDecision), L.Reachable env →
      L.decisionAt (.dispatch dispatchId kind cycle) = some d → d.outbox.isSome →
      ∀ now, ¬RaisesCorruptSchema (L.perform env (.decision dispatchId kind cycle .reap now)) := by
  intro h
  obtain ⟨d, o, hd, ho, hexpired, -⟩ := committedEarly_decision
  obtain ⟨wake, hp⟩ := pairAt_of_decisionAt hd
  refine h .sample _ sampleId .checkpoint 1 d ⟨_, rfl⟩ hd (by rw [ho]; rfl) (seconds 600) ?_
  rw [perform_reap_committed ⟨_, rfl⟩ hp ho, if_pos hexpired]
  exact ⟨_, rfl⟩

end CodexFlow.Ledger
