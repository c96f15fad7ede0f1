import CodexFlow.Ledger.Receipts

/-!
# Reaping a human claim

The claim of a human that ran out is given back and the decision waits for the next claimant, unless
nobody knows whether its wake was delivered: a decision may not wait for a claim beside an ambiguous
wake, and the reap is rolled back. A decision of a program is never given back.
-/

namespace CodexFlow.Ledger

open Checked DecisionRows DispatchRows

variable {env : Env} {L L' : Ledger} {dispatchId : DispatchId} {kind : WakeKind} {cycle : ℕ}
  {key : DecisionKey} {d : ControllerDecision} {p : DecisionRows} {now : Time}

/-! ### Taking and giving back a decision without an inspection -/

namespace ControllerDecision

theorem GenerationsValid.isModelClaim (h : d.GenerationsValid env key) {g : ControllerGeneration}
    (hg : g ∈ d.generations) (hinspected : g.inspected.isSome) : d.isModelClaim := by
  obtain ⟨i, hi, hsame⟩ := List.getElem_of_mem hg
  have hmem : (g, i + 1) ∈ d.generations.zipIdx 1 := by
    rw [List.mk_mem_zipIdx_iff_le_and_getElem?_sub]
    simp [List.getElem?_eq_getElem hi, hsame]
  obtain ⟨inspected, hinspected⟩ := Option.isSome_iff_exists.1 hinspected
  obtain ⟨-, -, -, -, hclaimant⟩ := h.2.2.2.2 (g, i + 1) hmem inspected hinspected
  obtain ⟨c, hc, hkind⟩ := (Option.any_eq_true _ _).1 hclaimant
  exact (Option.any_eq_true _ _).2 ⟨c, hc, (Bool.and_eq_true_iff.1 hkind).1⟩

theorem Valid.inspected_of_human (h : d.Valid env key) (hhuman : d.isHumanClaim) :
    ∀ g ∈ d.generations, g.inspected = none := by
  intro g hg
  by_contra hsome
  have hmodel := h.generations.isModelClaim hg (Option.isSome_iff_ne_none.2 hsome)
  rw [isHumanClaim_of_isModelClaim hmodel] at hhuman
  cases hhuman

/-- A decision without an inspected bundle, free or held. -/
theorem Valid.hold (h : d.Valid env key) (hopen : d.state ∈ [.awaitingClaim, .claimed])
    (hclear : ∀ g ∈ d.generations, g.inspected = none) {state : ControllerDecisionState}
    {claimant : Option Claimant} {lease : Option Time} {reason : Option String}
    (hstate : state = .claimed ∧ claimant.isSome ∧ lease.isSome ∨
      state = .awaitingClaim ∧ claimant = none ∧ lease = none) (hreason : reason = none)
    (revision : ℕ) (updatedAt : Time) :
    ControllerDecision.Valid env key { d with
      state := state, revision := revision, claimant := claimant, claimLeaseExpiresAt := lease
      humanAttentionReason := reason, updatedAt := updatedAt } := by
  have haction : d.action = none := by
    by_contra hsome
    have hacted := h.acted (Option.isSome_iff_ne_none.2 hsome)
    generalize d.state = state at hopen hacted
    revert hopen hacted
    cases state <;> decide
  have houtbox : d.outbox = none := by
    have hsame := h.receipt.1
    rw [haction] at hsame
    exact Option.isNone_iff_eq_none.1 (Option.isSome_eq_false_iff.1 hsame.symm)
  have hacknowledged : ¬d.acknowledgedAt.isSome := by
    intro hsome
    have hstate := h.acknowledged.1 hsome
    generalize d.state = state at hopen hstate
    revert hopen hstate
    cases state <;> decide
  have hsuperseded : d.supersededAt.isSome = false := by
    rw [h.superseded]
    generalize d.state = state at hopen
    revert hopen
    cases state <;> decide
  have hinspected : ∀ entry ∈ d.generations.zipIdx 1, entry.1.inspected = none :=
    fun entry hentry => hclear entry.1 (List.fst_mem_of_mem_zipIdx hentry)
  obtain ⟨hcurrent, hbudget, hused, hgenerations, -⟩ := h.generations
  have hkept : ControllerDecision.GenerationsValid env key { d with
      state := state, revision := revision, claimant := claimant, claimLeaseExpiresAt := lease
      humanAttentionReason := reason, updatedAt := updatedAt } := by
    refine ⟨hcurrent, hbudget, hused, hgenerations, fun entry hentry inspected hsome => ?_⟩
    rw [hinspected entry hentry] at hsome
    cases hsome
  subst hreason
  have hstate' : state ∈ [.awaitingClaim, .claimed] := by
    obtain ⟨rfl, -⟩ | ⟨rfl, -⟩ := hstate <;> decide
  have hcommitted : state ∉ [.actionCommitted, .acknowledged] := by
    obtain ⟨rfl, -⟩ | ⟨rfl, -⟩ := hstate <;> decide
  have hne : ∀ s ∉ [ControllerDecisionState.awaitingClaim, .claimed], state ≠ s := by
    rintro s hs rfl
    exact hs hstate'
  exact {
    cycle := h.cycle
    generations := hkept
    lease := by
      obtain ⟨rfl, -, hlease⟩ | ⟨rfl, -, rfl⟩ := hstate
      · exact hlease
      · rfl
    claimed := by
      obtain ⟨rfl, hclaimant, -⟩ | ⟨rfl, -⟩ := hstate
      · exact fun _ => hclaimant
      · exact fun h => nomatch h
    unclaimed := by
      obtain ⟨rfl, -⟩ | ⟨rfl, rfl, -⟩ := hstate
      · exact fun (h : ControllerDecisionState.claimed ∈ _) => absurd h (by decide)
      · exact fun _ h => nomatch h
    attention := fun h => absurd h (hne _ (by decide))
    committed := fun h => absurd h hcommitted
    acted := fun hsome => absurd hsome (by rw [haction]; decide)
    receipt := ⟨h.receipt.1, fun o ho => absurd (houtbox.symm.trans ho) (Option.some_ne_none o).symm⟩
    acknowledged := ⟨fun hsome => absurd hsome hacknowledged, fun h => absurd h (hne _ (by decide))⟩
    superseded := hsuperseded.trans (decide_eq_false (hne _ (by decide))).symm
    reason := ⟨(decide_eq_false (hne _ (by decide))).symm, rfl⟩ }

theorem Valid.reason_of_open (h : d.Valid env key) (hopen : d.state ∈ [.awaitingClaim, .claimed]) :
    d.humanAttentionReason = none := by
  rw [← Option.isNone_iff_eq_none, ← Option.not_isSome, h.reason.1]
  generalize d.state = state at hopen
  revert hopen
  cases state <;> decide

theorem Valid.release (h : d.Valid env key) (hstate : d.state = .claimed)
    (hclear : ∀ g ∈ d.generations, g.inspected = none) : (d.release now).Valid env key := by
  have hopen : d.state ∈ [.awaitingClaim, .claimed] := by
    rw [hstate]
    decide
  exact h.hold hopen hclear (.inr ⟨rfl, rfl, rfl⟩) (h.reason_of_open hopen) _ _

theorem Valid.takenBy (h : d.Valid env key) (hopen : d.state ∈ [.awaitingClaim, .claimed])
    (hclear : ∀ g ∈ d.generations, g.inspected = none) {q : ClaimRequest} {digest : String}
    (hkind : q.claimantKind = .human) : (d.takenBy q digest now).Valid env key := by
  have hvalid := @Valid.hold env key d h hopen hclear .claimed
    (some ⟨q.claimantKind, q.claimantId, digest, now⟩) (some (now + q.lease)) none
    (.inl ⟨rfl, rfl, rfl⟩) rfl (d.revision + 1) now
  unfold ControllerDecision.takenBy
  rw [hkind] at hvalid ⊢
  exact hvalid

end ControllerDecision

/-! ### A wake that its claimant takes over -/

theorem suppress_valid {r : DispatchRows} {w : Wake} (h : r.WakeValid w) :
    r.WakeValid (w.suppress now) := by
  unfold Wake.suppress
  split_ifs with hw
  · obtain ⟨hcycle, hdecision, -, hsource, -, hattempts, -, -, hpayload⟩ := h
    refine ⟨hcycle, hdecision, .inr rfl, ?_, rfl, hattempts, fun h => (nomatch h),
      fun h => (nomatch h), hpayload⟩
    show if w.sourceThreadId.isSome then WakeState.suppressed ≠ .notApplicable
      else WakeState.suppressed ∈ [.notApplicable, .suppressed]
    split_ifs <;> decide
  · exact h

/-! ### Releasing an expired claim -/

def reapOp (key : DecisionKey) (capable : Bool) (now : Time) : Op :=
  match key with
  | .dispatch dispatchId kind cycle => .decision dispatchId kind cycle .reap now
  | .program event => .programDecision event capable .reap now

/-- Every human may claim the decision until its deadline. -/
def HumanClaimable (env : Env) (L : Ledger) (dispatchId : DispatchId) (kind : WakeKind)
    (cycle : ℕ) (d : ControllerDecision) : Prop :=
  ∀ (q : ClaimRequest) minted digest later, q.check env = .ok () → q.claimantKind = .human →
    q.expectedRevision = d.revision → q.generation.all (· = d.currentGeneration) → q.token = none →
    env.claimTokenHash minted = .ok digest → later ≤ d.deadline →
    ∃ L', L.perform env (.decision dispatchId kind cycle (.claim q minted) later) = .ok L'

/-- The reap commits and leaves the decision to the next human. A decision of a program never comes
to its second part. -/
def Reaped (env : Env) (L : Ledger) (key : DecisionKey) (capable : Bool) (now : Time) : Prop :=
  ∃ L' d', L.perform env (reapOp key capable now) = .ok L' ∧ L'.decisionAt key = some d' ∧
    d'.claimant = none ∧ ∀ dispatchId kind cycle, key = .dispatch dispatchId kind cycle →
      L'.HumanClaimable env dispatchId kind cycle d'

theorem humanClaimable_of_free {L : Ledger} (hL : L.Valid env)
    (hp : L.pairAt (.dispatch dispatchId kind cycle) = some p)
    (hstate : p.decision.state = .awaitingClaim) (hfree : p.decision.claimant = none)
    (hclear : ∀ g ∈ p.decision.generations, g.inspected = none)
    (hinspection : p.decision.generation.inspectionPending = false ∧
      p.decision.generation.inspectionCompleted = false) :
    L.HumanClaimable env dispatchId kind cycle p.decision := by
  intro q minted digest later hcheck hkind hrevision hgeneration htoken hdigest hdeadline
  obtain ⟨hvalid, hclosed, hagrees⟩ := hL.decisionValid hp
  have hopen : p.decision.state ∈ [.awaitingClaim, .claimed] := by
    rw [hstate]
    decide
  cases hwake : p.wake with
  | none =>
    have hstate' := hclosed hwake
    rw [hstate] at hstate'
    exact absurd hstate' (by decide)
  | some w =>
    have hw := (hagrees w hwake).2.2 hstate
    have hstarting : w.state ≠ .starting := by
      rintro hstarting
      rw [hstarting] at hw
      exact absurd hw (by decide)
    have hnotClosed : !p.decision.isClosed := by simp [ControllerDecision.isClosed, hstate]
    have hnotCompleted : !p.decision.generation.inspectionCompleted := by simp [hinspection.2]
    have hnotPending : !p.decision.generation.inspectionPending := by simp [hinspection.1]
    have hnoToken : q.token.isNone := by simp [htoken]
    have hclaimable : p.decision.claimableFrom q w = .ok () := by
      unfold ControllerDecision.claimableFrom
      rw [if_neg (by rw [hstate]; decide), ensure_of hstarting]
    have hrun : p.claim env q minted later =
        .ok ⟨p.decision.takenBy q digest later, some (w.suppress later)⟩ := by
      unfold claim
      simp only [hfree, hwake, ensure_of hgeneration, ensure_of hnotClosed,
        ensure_of hnotCompleted, ensure_of hnotPending, ensure_of hrevision.symm,
        ensure_of hnoToken, ensure_of hdeadline, hclaimable, hdigest, hkind, ok_bind, if_true]
      rfl
    have hsuppressed : (w.suppress later).state ≠ .pending := by
      unfold Wake.suppress
      split_ifs with h
      · exact fun h => by cases h
      · rintro hpending
        rw [hpending] at h
        exact h (by decide)
    have hwakes : ∀ r, L.dispatches.get? dispatchId = some r → ∀ w' ∈ some (w.suppress later),
        r.WakeValid w' ∧ wakeAgrees (p.decision.takenBy q digest later) w' := by
      rintro r hr w' ⟨⟩
      exact ⟨suppress_valid (hL.wakeValid hp hr hwake), fun h => absurd h hsuppressed,
        fun h => (by cases h), fun h => (by cases h)⟩
    obtain ⟨L', hperform, -⟩ := @perform_decision_ok _ _ _ _ _ _ _ (.claim q minted) _ hL hp hcheck hrun
      (hvalid.takenBy hopen hclear hkind) hwakes (fun h => by cases h)
    exact ⟨L', hperform⟩

/-- A human claim whose lease has passed is given back. -/
theorem reap_human (hhuman : p.decision.isHumanClaim)
    (hexpired : p.decision.leaseExpired now)
    (hinspection : p.decision.generation.inspectionPending = false ∧
      p.decision.generation.inspectionCompleted = false) :
    p.reap key now = projected key { p with decision := p.decision.release now } := by
  have hmodel : p.decision.isModelClaim = false := by
    by_contra hmodel
    rw [ControllerDecision.isHumanClaim_of_isModelClaim (Bool.not_eq_false _ ▸ hmodel)] at hhuman
    cases hhuman
  have hclaimant : p.decision.claimant.isNone = false := by
    obtain ⟨c, hc, -⟩ := (Option.any_eq_true _ _).1 hhuman
    rw [Option.mem_def.1 hc]
    rfl
  have hnotExpired : p.decision.generation.inspectionExpired now = false := by
    by_contra h
    have hpending := ControllerGeneration.pending_of_expired (Bool.not_eq_false _ ▸ h)
    rw [hinspection.1] at hpending
    cases hpending
  have hnotLive : p.decision.generation.inspectionLive now = false := by
    by_contra h
    obtain ⟨i, hi, hlive⟩ := (Option.any_eq_true _ _).1 (Bool.not_eq_false _ ▸ h)
    have hpending : p.decision.generation.inspectionPending :=
      (Option.any_eq_true _ _).2 ⟨i, hi, (Bool.and_eq_true_iff.1 hlive).1⟩
    rw [hinspection.1] at hpending
    cases hpending
  unfold reap
  simp [hmodel, hclaimant, hnotExpired, hnotLive, hinspection.2, hexpired]

theorem reap_program {event : ProgramEvent} {capable : Bool}
    (hp : L.pairAt (.program event) = some p)
    (h : L.perform env (.programDecision event capable .reap now) = .ok L') :
    (L'.decisionAt (.program event)).map (·.claimant) = some p.decision.claimant := by
  obtain ⟨-, hbody, -⟩ := perform_ok.1 h
  obtain ⟨P, hP, rfl⟩ := Option.map_eq_some_iff.1 hp
  simp only [body, onProgramDecision, hP, steps_ok] at hbody
  obtain ⟨-, -, -, p', hrun, rfl⟩ := hbody
  have hsame : p' = ⟨P.decision, none⟩ := by
    cases reap_cases hrun with
    | nothing => rfl
    | _ => exact absurd rfl (by assumption : (DecisionKey.program event).dispatchId? ≠ none)
  show (((L.programDecisions.set event _).get? event).map _).map _ = _
  rw [Table.get?_set_self hP, hsame]
  rfl

/-- A human claim that ran out is given back, and may be taken again, exactly when it is on a decision
of a dispatch whose wake is not ambiguous. -/
theorem expired_human_claim_reaped (hL : L.Reachable env) (hp : L.pairAt key = some p)
    (hhuman : p.decision.isHumanClaim) (hexpired : p.decision.leaseExpired now) (capable : Bool) :
    L.Reaped env key capable now ↔
      key.dispatchId? ≠ none ∧ ∀ w ∈ p.wake, w.state ≠ .ambiguous := by
  cases key with
  | program event =>
    refine ⟨?_, fun h => absurd rfl h.1⟩
    rintro ⟨L', d', hperform, hd', hfree, -⟩
    have hclaimant := reap_program hp hperform
    rw [hd', Option.map_some, hfree] at hclaimant
    unfold ControllerDecision.isHumanClaim at hhuman
    rw [← Option.some.inj hclaimant] at hhuman
    cases hhuman
  | dispatch dispatchId kind cycle =>
    have hvalid := hL.good.to_valid
    obtain ⟨hd, hclosed, hagrees⟩ := hvalid.decisionValid hp
    have hinspection := hL.humanClear hp hhuman
    have hclear := hd.inspected_of_human hhuman
    have hstate : p.decision.state = .claimed := by
      obtain ⟨lease, hlease, -⟩ := (Option.any_eq_true _ _).1 hexpired
      have hsome := hd.lease
      rw [Option.mem_def.1 hlease] at hsome
      exact of_decide_eq_true hsome.symm
    have hrun : p.reap (.dispatch dispatchId kind cycle) now =
        .ok { p with decision := p.decision.release now } := reap_human hhuman hexpired hinspection
    constructor
    · rintro ⟨L', d', hperform, -⟩
      refine ⟨Option.some_ne_none _, fun w hw hambiguous => ?_⟩
      have hrefused := @perform_decision_rejected env _ _ _ _ _ _ .reap now hvalid hp
        rfl hrun fun h => by
          have hdelivered := (h.2 w hw).2.2 rfl
          rw [hambiguous] at hdelivered
          exact absurd hdelivered (by decide)
      rw [show L.perform env (reapOp (.dispatch dispatchId kind cycle) capable now) = _ from
        hrefused] at hperform
      cases hperform
    · rintro ⟨-, hwake⟩
      have hdelivered : ∀ w ∈ p.wake, w.state ∈ [.delivered, .notApplicable, .suppressed, .failed] := by
        intro w hw
        have hstarting := hL.claimed_wake hp hstate w hw
        have hambiguous := hwake w hw
        have hpending : w.state ≠ .pending := by
          intro h
          have hwaits := (hagrees w hw).1 h
          rw [hstate] at hwaits
          cases hwaits
        generalize w.state = state at hstarting hambiguous hpending ⊢
        revert hstarting hambiguous hpending
        cases state <;> decide
      have hnone : p.wake = none → ControllerDecisionState.awaitingClaim ∈
          [.actionCommitted, .acknowledged, .superseded, .legacyClosed] := by
        intro h
        have hmem := hclosed h
        rw [hstate] at hmem
        exact absurd hmem (by decide)
      have hwakes : ∀ r, L.dispatches.get? dispatchId = some r → ∀ w ∈ p.wake,
          r.WakeValid w ∧ wakeAgrees (p.decision.release now) w := by
        intro r hr w hw
        have hmem := hdelivered w hw
        refine ⟨hvalid.wakeValid hp hr hw, fun h => ?_, fun h => (nomatch h), fun _ => hmem⟩
        rw [h] at hmem
        exact absurd hmem (by decide)
      obtain ⟨L', hperform, hp'⟩ := @perform_decision_ok env _ _ _ _ _ _ .reap now
        hvalid hp rfl hrun (hd.release hstate hclear) hwakes hnone
      refine ⟨L', _, hperform, decisionAt_of_pairAt hp', rfl, ?_⟩
      rintro _ _ _ ⟨⟩
      exact humanClaimable_of_free (perform_ok.1 hperform).2.2 hp' rfl rfl hclear hinspection

/-! ### A human claim beside an ambiguous wake -/

def sampleDecision (op : DecisionOp) (now : Time) : Op := .decision sampleId .checkpoint 1 op now

/-- The first checkpoint decision of a queued dispatch waits for its delivery to a source thread. -/
def pendingRun : List Op :=
  [.acquireHarness nonceSha256 (seconds 600) 0,
    .enqueue sampleId { sampleRequest with sourceThreadId := some "thread-1" } 1,
    .openDecision sampleId
      { kind := .checkpoint, payload := .direct .queued, sourceThreadId := some "thread-1"
        deadline := seconds 3600 } 2]

/-- Nobody knows whether the wake was delivered, and a human claims the decision. -/
def ambiguousRun : List Op :=
  pendingRun ++ [sampleDecision .claimWake 3, sampleDecision (.recordDelivery .ambiguous none) 4,
    sampleDecision (sampleClaim .human) 5]

/-- The human claim of a decision without a source thread, ten minutes later. -/
theorem humanRun_reaped :
    Reaped .sample (Machine.run (next .sample) {} (opened ++ [sampleDecision (sampleClaim .human) 3]))
      sampleKey true (seconds 600) := by
  have hrun : ((Machine.run (next .sample) {}
      (opened ++ [sampleDecision (sampleClaim .human) 3])).pairAt sampleKey).any fun p =>
        p.decision.isHumanClaim && p.decision.leaseExpired (seconds 600) &&
          p.wake.all (·.state ≠ .ambiguous) := by
    decide +kernel
  obtain ⟨p, hp, h⟩ := (Option.any_eq_true _ _).1 hrun
  simp only [Bool.and_eq_true] at h
  refine (expired_human_claim_reaped ⟨_, rfl⟩ hp h.1.1 h.1.2 true).2 ⟨Option.some_ne_none _, ?_⟩
  intro w hw
  exact of_decide_eq_true ((Option.all_eq_true _ _).1 h.2 w hw)

theorem ambiguousRun_not_reaped :
    ¬∀ (env : Env) (L : Ledger) (key : DecisionKey) (p : DecisionRows) (capable : Bool) (now : Time),
      L.Reachable env → L.pairAt key = some p → p.decision.isHumanClaim → p.decision.action = none →
      p.decision.leaseExpired now → L.Reaped env key capable now := by
  intro h
  have hrun : ((Machine.run (next .sample) {} ambiguousRun).pairAt sampleKey).any (fun p =>
      p.decision.isHumanClaim && p.decision.action.isNone && p.decision.leaseExpired (seconds 600)) ∧
      ((Machine.run (next .sample) {} ambiguousRun).perform .sample
        (reapOp sampleKey true (seconds 600))).toOption.isNone := by
    decide +kernel
  obtain ⟨p, hp, hclaim⟩ := (Option.any_eq_true _ _).1 hrun.1
  simp only [Bool.and_eq_true, Option.isNone_iff_eq_none] at hclaim
  obtain ⟨L', d', hperform, -⟩ := h .sample _ sampleKey p true (seconds 600) ⟨_, rfl⟩ hp
    hclaim.1.1 hclaim.1.2 hclaim.2
  rw [hperform] at hrun
  cases hrun.2

end CodexFlow.Ledger
