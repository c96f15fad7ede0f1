import CodexFlow.Ledger.DecisionSteps

/-!
# Every call takes a step

The calls on one decision, the commits and the scans are steps of each decision they reach.
-/

namespace CodexFlow.Ledger

open Checked

variable {env : Env} {mints : String → Prop} {decisionId : DecisionKey} {d d' : ControllerDecision}
  {p p' : DecisionRows} {now : Time}

namespace DecisionRows

/-- A step of one call: the wake stays the wake of the decision. -/
structure Call (mints : String → Prop) (decisionId : DecisionKey) (p p' : DecisionRows) : Prop
    extends Step mints decisionId p p' where
  key : p'.wake.map Wake.key = p.wake.map Wake.key

/-! ### Rules -/

theorem Call.refl (p : DecisionRows) : p.Call mints decisionId p where
  decision := .stay
  starting := fun _ hw _ => .inr ⟨hw, id⟩
  key := rfl

/-- The wake is kept, and an unclaimed decision stays unclaimed. -/
theorem Call.of_decision (h : p.decision.Step mints decisionId d')
    (hfree : p.decision.claimant = none → d'.claimant = none) :
    p.Call mints decisionId { p with decision := d' } where
  decision := h
  starting := fun _ hw _ => .inr ⟨hw, hfree⟩
  key := rfl

theorem Call.of_regenerates (h : p.decision.Regenerates d')
    (hread : d'.generation.inspection = p.decision.generation.inspection ∨
      p.decision.state ∈ [.awaitingClaim, .claimed] ∧
        (p.decision.state = .claimed → p.decision.isHumanClaim = false))
    (hearlier : d'.earlier.map (·.inspection) = p.decision.earlier.map (·.inspection)) :
    p.Call mints decisionId { p with decision := d' } :=
  .of_decision (.regenerate d' h hread hearlier) fun hnone => by rw [h.same]; exact hnone

end DecisionRows

open DecisionRows

theorem claimTokenHash_eq {token digest : String} (h : env.claimTokenHash token = .ok digest) :
    digest = env.sha256 token := by
  simp only [Env.claimTokenHash, bind_eq_ok, pure_eq_ok] at h
  obtain ⟨-, -, rfl⟩ := h
  rfl

/-! ### Claims -/

theorem suppress_key {w : Wake} : (w.suppress now).key = w.key := by
  unfold Wake.suppress
  split_ifs <;> rfl

theorem suppress_starting {w : Wake} (h : (w.suppress now).state = .starting) :
    w.state = .starting := by
  unfold Wake.suppress at h
  split_ifs at h
  exact h

theorem claimableFrom_ne_starting {q : ClaimRequest} {w : Wake}
    (h : d.claimableFrom q w = .ok ()) : w.state ≠ .starting := by
  unfold ControllerDecision.claimableFrom at h
  split_ifs at h
  · simp only [checks_ok] at h
    intro hstarting
    rw [hstarting] at h
    exact absurd h.2 (by decide)
  · exact ensure_eq_ok.1 h

/-- An accepted claim is a replay, or takes a free decision. -/
theorem claim_cases {q : ClaimRequest} {minted : String} (h : p.claim env q minted now = .ok p') :
    p.decision.isClosed = false ∧ p.decision.generation.inspectionCompleted = false ∧
      ((p' = p ∧ ∃ c, p.decision.claimant = some c ∧ p.decision.replayClaim env q now c = .ok ()) ∨
        ∃ w, p.decision.claimant = none ∧ p.decision.generation.inspectionPending = false ∧
          p.decision.revision = q.expectedRevision ∧ p.wake = some w ∧
          p.decision.claimableFrom q w = .ok () ∧
          p' = ⟨p.decision.takenBy q (env.sha256 minted) now,
            some (if q.claimantKind = .human then w.suppress now else w)⟩) := by
  simp only [claim, checks_ok] at h
  obtain ⟨-, hopen, hcompleted, h⟩ := h
  refine ⟨by simpa using hopen, by simpa using hcompleted, ?_⟩
  split at h
  · rename_i c hc
    simp only [bind_eq_ok, pure_eq_ok] at h
    obtain ⟨⟨⟩, hreplay, rfl⟩ := h
    exact .inl ⟨rfl, c, hc, hreplay⟩
  · rename_i hfree
    simp only [checks_ok] at h
    obtain ⟨hpending, hrevision, -, -, h⟩ := h
    split at h
    · cases h
    · rename_i w hw
      simp only [bind_eq_ok, pure_eq_ok] at h
      obtain ⟨⟨⟩, hclaimable, digest, hdigest, rfl⟩ := h
      obtain rfl := claimTokenHash_eq hdigest
      exact .inr ⟨w, hfree, by simpa using hpending, hrevision, hw, hclaimable, rfl⟩

theorem claim_step {q : ClaimRequest} {minted : String} (h : p.claim env q minted now = .ok p') :
    p.Call (fun digest => env.sha256 minted = digest) decisionId p' := by
  obtain ⟨hopen, hcompleted, ⟨rfl, -⟩ | ⟨w, hfree, hpending, -, hw, hclaimable, rfl⟩⟩ :=
    claim_cases h
  · exact .refl _
  · have hne := claimableFrom_ne_starting hclaimable
    refine ⟨⟨.take _ _ _ _ _ rfl hopen (.inl hfree) (.inr ⟨hpending, hcompleted⟩), ?_⟩, ?_⟩
    · rintro w' hw' hstarting
      obtain rfl : (if q.claimantKind = .human then w.suppress now else w) = w' :=
        Option.some.inj hw'
      split_ifs at hstarting
      · exact absurd (suppress_starting hstarting) hne
      · exact absurd hstarting hne
    · rw [hw]
      split_ifs
      · exact congrArg some suppress_key
      · rfl

theorem renew_step {q : RenewRequest} (h : p.renew env q now = .ok p') :
    p.Call mints decisionId p' := by
  simp only [renew, steps_ok] at h
  obtain ⟨-, ⟨-, hstate⟩, -, rfl⟩ := h
  exact .of_decision (.extend _ _ _ hstate) id

theorem deferRateLimit_step {q : DeferRequest} (h : p.deferRateLimit env q now = .ok p') :
    p.Call mints decisionId p' := by
  simp only [deferRateLimit, steps_ok] at h
  obtain ⟨-, ⟨-, -, hstate, -⟩, -, rfl⟩ := h
  exact .of_decision (.extend _ _ _ hstate) id

theorem acknowledge_claimant (d : ControllerDecision) :
    (d.acknowledge now).claimant = d.claimant := by
  unfold ControllerDecision.acknowledge
  split
  · rfl
  · rfl

theorem acknowledge_step {q : AcknowledgeRequest}
    (h : p.acknowledge env decisionId q now = .ok p') : p.Call mints decisionId p' := by
  unfold DecisionRows.acknowledge at h
  dsimp only at h
  split at h
  · cases h
  rename_i o ho
  simp only [checks_ok] at h
  obtain ⟨-, -, -, h⟩ := h
  split at h
  · simp only [steps_ok] at h
    obtain ⟨-, -, rfl⟩ := h
    exact .refl p
  · simp only [steps_ok] at h
    obtain ⟨-, rfl⟩ := h
    exact .of_decision (.acknowledge _ none now (.inl rfl) (by rw [ho]; rfl))
      fun hnone => (acknowledge_claimant _).trans hnone

/-! ### Inspections -/

theorem expired_step (h : p.decision.generation.inspectionPending) :
    p.Call mints decisionId { p with decision := p.decision.expireInspection now } :=
  .of_decision
    (.attend (p.decision.withGeneration (·.closeInspection .ambiguous now))
      (ControllerDecision.regenerates_withGeneration
        (ControllerGeneration.closeInspection_continues h)) _ now)
    fun _ => rfl

theorem expireInspection_step (h : p.expireInspection now = .ok p') :
    p.Call mints decisionId p' := by
  simp only [DecisionRows.expireInspection, pure_eq_ok] at h
  subst h
  split_ifs with hexpired
  · exact expired_step (ControllerGeneration.pending_of_expired hexpired)
  · exact .refl p

theorem reserveInspection_step {minted : String}
    (h : p.reserveInspection env minted now = .ok p') : p.Call mints decisionId p' := by
  simp only [reserveInspection, steps_ok] at h
  obtain ⟨-, hstate, hhuman, -, hnone, digest, -, rfl⟩ := h
  exact .of_regenerates
    (ControllerDecision.regenerates_withGeneration (d := p.decision)
      (f := fun g => { g with inspection := some _ })
      (.of_none (Option.isNone_iff_eq_none.1 hnone)))
    (.inr ⟨hstate, fun h => by simpa using hhuman h⟩) rfl

theorem readBundle_model {programRevision : ProgramRevision} {bundle : ActionBundle}
    {facts : (ActionBundle × String) × String}
    (h : d.readBundle env decisionId programRevision bundle = .ok facts) : d.isModelClaim := by
  unfold ControllerDecision.readBundle at h
  cases hclaimant : d.claimant with
  | none =>
    cases bundle with
    | dispatch b =>
      simp only [hclaimant, checks_ok] at h
      cases h.2.2
    | program b =>
      simp only [hclaimant, checks_ok] at h
      cases h.2.2.2
  | some c =>
    have hmodel : c.kind = .model := by
      cases bundle with
      | dispatch b =>
        simp only [hclaimant, checks_ok] at h
        exact h.2.2.1
      | program b =>
        simp only [hclaimant, checks_ok] at h
        exact h.2.2.2.1
    exact (Option.any_eq_true _ _).2 ⟨c, hclaimant, decide_eq_true hmodel⟩

/-- The bundle of a completed inspection was found under the model claim of the decision. -/
theorem inspectionFacts_ok {programRevision : ProgramRevision} {outcome : ControllerGenerationState}
    {bundle : Option ActionBundle} {i : ControllerInspection}
    {facts : Option (ActionBundle × String) × Option String}
    (h : d.inspectionFacts env decisionId programRevision outcome bundle i = .ok facts) :
    outcome = .completed → d.isModelClaim := by
  intro hcompleted
  unfold ControllerDecision.inspectionFacts at h
  rw [if_pos hcompleted] at h
  split at h
  · cases h
  · simp only [bind_eq_ok] at h
    obtain ⟨read, hread, -⟩ := h
    exact readBundle_model hread

def ControllerGeneration.found (g : ControllerGeneration) (outcome : ControllerGenerationState)
    (terminalAt : Option Time) (i : ControllerInspection) : ControllerGeneration :=
  { g with state := outcome, terminalAt := terminalAt, inspection := some i }

theorem completeInspection_cases {programRevision : ProgramRevision} {q : CompleteRequest}
    (h : p.completeInspection env decisionId programRevision q now = .ok p') :
    p.decision.state ∈ [.awaitingClaim, .claimed] ∧
      (p.decision.state = .claimed → p.decision.isHumanClaim = false) ∧
      ∃ i i' terminalAt inspected settled, p.decision.generation.inspection = some i ∧
        i.completedAt = none ∧ i'.startedAt = i.startedAt ∧ i'.completedAt = some now ∧
        i'.outcome = some (readOutcome q.outcome) ∧
        (readOutcome q.outcome = .completed → p.decision.isModelClaim) ∧
        inspected = p.decision.withGeneration (·.found (readOutcome q.outcome) terminalAt i') ∧
        settled = (if readOutcome q.outcome = .active then inspected
          else inspected.settleInspection (readOutcome q.outcome)
            (p.decision.canReplace (readOutcome q.outcome) now) now) ∧
        p' = { p with decision := settled } := by
  unfold completeInspection at h
  simp only [checks_ok] at h
  obtain ⟨hstate, hhuman, h⟩ := h
  refine ⟨hstate, fun h => by simpa using hhuman h, ?_⟩
  split at h
  · cases h
  rename_i i hi
  simp only [checks_ok] at h
  obtain ⟨hpending, h⟩ := h
  split at h
  · cases h
  simp only [steps_ok] at h
  obtain ⟨digest, -, -, facts, hfacts, rfl⟩ := h
  let i' : ControllerInspection := { i with
    completedAt := some now, outcome := some (readOutcome q.outcome), tokenSha256 := facts.2
    bundle := facts.1, leaseExpiresAt := none }
  refine ⟨i, i', if (readOutcome q.outcome).isTerminalOutcome then some now else none, _, _,
    hi, Option.isNone_iff_eq_none.1 hpending, rfl, rfl, rfl, inspectionFacts_ok hfacts, rfl, rfl,
    ?_⟩
  split_ifs <;> rfl

theorem completeInspection_step {programRevision : ProgramRevision} {q : CompleteRequest}
    (h : p.completeInspection env decisionId programRevision q now = .ok p') :
    p.Call mints decisionId p' := by
  obtain ⟨hstate, hhuman, i, i', terminalAt, inspected, settled, hi, hpending, hstarted, -, -,
    hmodel, hinspected, rfl, rfl⟩ := completeInspection_cases h
  generalize readOutcome q.outcome = outcome at *
  have hregenerates : p.decision.Regenerates inspected := hinspected ▸
    ControllerDecision.regenerates_withGeneration (.of_pending hi hpending rfl hstarted)
  have hclaimant : inspected.claimant = p.decision.claimant := by rw [hinspected]; rfl
  split_ifs with hactive
  · exact .of_regenerates hregenerates (.inr ⟨hstate, hhuman⟩) (by rw [hinspected]; rfl)
  unfold ControllerDecision.settleInspection
  split_ifs with hcompleted hclaimed hreplaced hterminal
  · have hpending' : p.decision.generation.inspectionPending :=
      ControllerGeneration.inspectionPending_iff.2 ⟨i, hi, hpending⟩
    refine .of_decision (.conclude _ hregenerates now hstate (hmodel hcompleted) hpending'
      (by rw [hinspected]; rfl)) ?_
    exact hclaimant.trans
  · obtain ⟨c, hc, -⟩ := (Option.any_eq_true _ _).1 (hmodel hcompleted)
    rw [hclaimant, hc] at hclaimed
    exact absurd rfl hclaimed
  · exact .of_decision (.release _ (ControllerDecision.regenerates_replace hregenerates) none now)
      fun _ => rfl
  · exact .of_decision (.attend _ hregenerates _ now) fun _ => rfl
  · exact .of_decision (.release _ hregenerates none now) fun _ => rfl

/-! ### Reaping -/

theorem projected_ok (h : projected decisionId p = .ok p') :
    p' = p ∧ decisionId.dispatchId? ≠ none := by
  unfold projected at h
  split at h
  · exact ⟨(pure_eq_ok.1 h).symm, Option.some_ne_none _⟩
  · cases h

/-- The step of an accepted reap. -/
inductive Reaps (decisionId : DecisionKey) (now : Time) (p : DecisionRows) : DecisionRows → Prop
  | nothing : Reaps decisionId now p p
  | expires (hdispatch : decisionId.dispatchId? ≠ none)
      (hpending : p.decision.generation.inspectionPending) :
    Reaps decisionId now p { p with decision := p.decision.expireInspection now }
  | deactivates (hdispatch : decisionId.dispatchId? ≠ none) (hstate : p.decision.state = .claimed)
      (hclaimant : p.decision.isModelClaim)
      (hinspected : p.decision.generation.inspectionCompleted ∧
        p.decision.generation.inspected.isSome) :
    Reaps decisionId now p { p with decision := p.decision.deactivate now }
  | attends (hdispatch : decisionId.dispatchId? ≠ none) (reason : String) :
    Reaps decisionId now p { p with decision := p.decision.attend now reason }
  | releases (hdispatch : decisionId.dispatchId? ≠ none) :
    Reaps decisionId now p { p with decision := p.decision.release now }

/-- A read that is pending and not live takes the claim away. -/
theorem reaps_expired
    (h : projected decisionId { p with decision := p.decision.expireInspection now } = .ok p')
    (hpending : p.decision.generation.inspectionPending) : Reaps decisionId now p p' := by
  obtain ⟨rfl, hdispatch⟩ := projected_ok h
  exact .expires hdispatch hpending

theorem reapModel_cases (h : p.reapModel decisionId now = .ok p') : Reaps decisionId now p p' := by
  unfold reapModel at h
  dsimp only at h
  split at h
  · cases h
    exact .nothing
  · obtain ⟨rfl, hdispatch⟩ := projected_ok h
    exact .attends hdispatch _
  · obtain ⟨rfl, hdispatch⟩ := projected_ok h
    exact .releases hdispatch

/-- What an accepted reap has done: nothing, or what the claim and the inspection call for. -/
theorem reap_cases (h : p.reap decisionId now = .ok p') : Reaps decisionId now p p' := by
  have hpending : ∀ {b : Bool}, (b && p.decision.generation.inspectionExpired now) = true →
      p.decision.generation.inspectionPending = true :=
    fun h => ControllerGeneration.pending_of_expired (Bool.and_eq_true_iff.1 h).2
  unfold reap at h
  dsimp only at h
  split_ifs at h with h₁ h₂ h₃ h₄ h₅ h₆ h₇ h₈
  · exact reaps_expired h (hpending h₁)
  · exact pure_eq_ok.1 h ▸ .nothing
  · simp only [checks_ok] at h
    obtain ⟨rfl, hdispatch⟩ := projected_ok h.2
    simp only [Bool.and_eq_true] at h₃
    exact .deactivates hdispatch h.1 h₃.1.2 ⟨h₃.1.1.1.2, h₃.1.1.2⟩
  · exact reaps_expired h (hpending h₄)
  · exact pure_eq_ok.1 h ▸ .nothing
  · exact pure_eq_ok.1 h ▸ .nothing
  · exact reaps_expired h h₇
  · exact reapModel_cases h
  · obtain ⟨rfl, hdispatch⟩ := projected_ok h
    exact .releases hdispatch

theorem reap_step (h : p.reap decisionId now = .ok p') : p.Call mints decisionId p' := by
  cases reap_cases h with
  | nothing => exact .refl p
  | expires _ hpending => exact expired_step hpending
  | deactivates hdispatch hstate hclaimant hinspected =>
    exact .of_decision (.deactivate now hstate hclaimant hinspected hdispatch) id
  | attends => exact .of_decision (.attend _ (.refl _) _ now) fun _ => rfl
  | releases =>
    exact .of_decision (.release _ (.refl _) p.decision.humanAttentionReason now) fun _ => rfl

/-! ### Generations -/

theorem prepareGeneration_step {fenced : Bool} {generation : ℕ} {prompt : Option String}
    (h : p.prepareGeneration fenced generation prompt = .ok p') : p.Call mints decisionId p' := by
  simp only [prepareGeneration, steps_ok] at h
  obtain ⟨-, -, -, -, -, rfl⟩ := h
  exact .of_regenerates (ControllerDecision.regenerates_withGeneration (.of_eq rfl)) (.inl rfl) rfl

theorem bindThread_step {generation : ℕ} {thread : String}
    (h : p.bindThread generation thread now = .ok p') : p.Call mints decisionId p' := by
  unfold bindThread at h
  simp only [checks_ok] at h
  obtain ⟨-, h⟩ := h
  split at h
  · simp only [steps_ok] at h
    exact h.2 ▸ .refl p
  · simp only [steps_ok] at h
    obtain ⟨-, rfl⟩ := h
    exact .of_regenerates (ControllerDecision.regenerates_withGeneration (.of_eq rfl)) (.inl rfl) rfl

theorem bindTurn_step {taken : Bool} {q : TurnRequest} (h : p.bindTurn taken q = .ok p') :
    p.Call mints decisionId p' := by
  unfold bindTurn at h
  simp only [checks_ok] at h
  obtain ⟨-, -, h⟩ := h
  split_ifs at h
  · exact pure_eq_ok.1 h ▸ .refl p
  · simp only [steps_ok] at h
    obtain ⟨-, -, -, -, rfl⟩ := h
    exact .of_regenerates (ControllerDecision.regenerates_withGeneration (.of_eq rfl)) (.inl rfl) rfl

theorem completeGeneration_step {generation : ℕ} {outcome : ControllerGenerationState}
    (h : p.completeGeneration generation outcome now = .ok p') : p.Call mints decisionId p' := by
  unfold completeGeneration at h
  simp only [checks_ok] at h
  obtain ⟨-, h⟩ := h
  split_ifs at h
  · cases h
    exact .of_regenerates (ControllerDecision.regenerates_withGeneration (.of_eq rfl)) (.inl rfl) rfl
  · simp only [steps_ok] at h
    exact h.2 ▸ .refl p

theorem recordProfileDrift_step {generation : ℕ} {reason : String}
    (h : p.recordProfileDrift env generation reason now = .ok p') :
    p.Call mints decisionId p' := by
  unfold recordProfileDrift at h
  simp only [checks_ok] at h
  obtain ⟨-, -, h⟩ := h
  split_ifs at h
  · exact pure_eq_ok.1 h ▸ .refl p
  · simp only [steps_ok] at h
    obtain ⟨-, -, rfl⟩ := h
    have hfailed : p.decision.Regenerates (p.decision.withGeneration fun g =>
        { g with state := .failed, terminalAt := some now }) :=
      ControllerDecision.regenerates_withGeneration (.of_eq rfl)
    exact .of_decision (.attend _ hfailed _ now) fun _ => rfl

theorem mapGeneration_inspection {d : ControllerDecision} {n : ℕ}
    {f : ControllerGeneration → ControllerGeneration}
    (h : ∀ g : ControllerGeneration, (f g).inspection = g.inspection) :
    (d.mapGeneration n f).generation.inspection = d.generation.inspection ∧
      (d.mapGeneration n f).earlier.map (·.inspection) = d.earlier.map (·.inspection) := by
  unfold ControllerDecision.mapGeneration
  split_ifs
  · exact ⟨h _, rfl⟩
  · refine ⟨rfl, List.ext_getElem (by simp) fun i hi hi' => ?_⟩
    simp only [List.getElem_map, List.getElem_modify]
    split_ifs
    · exact h _
    · rfl

theorem reset_step {reset : ControllerDecision} (h : p.decision.Regenerates reset)
    (hread : reset.generation.inspection = p.decision.generation.inspection)
    (hearlier : reset.earlier.map (·.inspection) = p.decision.earlier.map (·.inspection)) :
    p.Call mints decisionId
      { p with decision := (if p.decision.state = .claimed then reset.release now else reset) } := by
  split_ifs
  · exact .of_decision (.release _ h _ now) fun _ => rfl
  · exact .of_regenerates h (.inl hread) hearlier

theorem resetDelivery_step {q : ResetRequest} (h : p.resetDelivery env q now = .ok p') :
    p.Call mints decisionId p' := by
  have hreset : p.decision.Regenerates
      (p.decision.mapGeneration q.generation fun g => { g with state := .prepared }) :=
    ControllerDecision.regenerates_mapGeneration fun g => .of_eq rfl
  obtain ⟨hread, hearlier⟩ := mapGeneration_inspection (d := p.decision) (n := q.generation)
    (f := fun g => { g with state := .prepared }) fun _ => rfl
  unfold resetDelivery at h
  dsimp only at h
  split at h
  · cases h
  simp only [checks_ok] at h
  obtain ⟨-, -, h⟩ := h
  split at h
  · simp only [steps_ok] at h
    obtain ⟨-, -, -, -, rfl⟩ := h
    exact reset_step hreset hread hearlier
  · simp only [steps_ok] at h
    obtain ⟨-, rfl⟩ := h
    exact reset_step hreset hread hearlier

theorem markLaunchAmbiguous_step {q : AmbiguousLaunch}
    (h : p.markLaunchAmbiguous q now = .ok p') : p.Call mints decisionId p' := by
  simp only [markLaunchAmbiguous, steps_ok] at h
  obtain ⟨-, ⟨-, -, hpending⟩, rfl⟩ := h
  have hcontinues : p.decision.generation.Continues (p.decision.generation.markAmbiguous now) := by
    intro i hi
    rw [Option.mem_def.1 hi] at hpending
    have hopen : i.completedAt = none := Option.isNone_iff_eq_none.1 hpending
    refine ⟨{ i with completedAt := some now, outcome := some .ambiguous, leaseExpiresAt := none },
      ?_, rfl, fun hsome => ?_⟩
    · simp [ControllerGeneration.markAmbiguous, ControllerGeneration.closeInspection,
        Option.mem_def.1 hi]
    · rw [hopen] at hsome
      cases hsome
  have hmarked : p.decision.Regenerates (p.decision.withGeneration (·.markAmbiguous now)) :=
    ControllerDecision.regenerates_withGeneration hcontinues
  exact .of_decision (.attend _ hmarked _ now) fun _ => rfl

theorem authorizeReplacement_step {revision : ℕ}
    (h : p.authorizeReplacement revision now = .ok p') : p.Call mints decisionId p' := by
  simp only [authorizeReplacement, steps_ok] at h
  obtain ⟨-, ⟨hstate, haction, hclaimant, -, -, -⟩, -, rfl⟩ := h
  exact .of_decision
    (.reopen _ (ControllerDecision.regenerates_replace (.refl _)) _ now hstate
      (Option.isNone_iff_eq_none.1 haction) (Option.isNone_iff_eq_none.1 hclaimant)) id

/-! ### Wakes -/

theorem start_key {w : Wake} : (w.start now).key = w.key := by
  unfold Wake.start
  split_ifs <;> rfl

theorem claimWake_step {w : Wake} (hw : p.wake = some w) (h : p.claimWake now w = .ok p') :
    p.Call mints decisionId p' := by
  unfold claimWake at h
  split_ifs at h with hdelivered hdone
  · simp only [steps_ok] at h
    exact h.2 ▸ .refl p
  · exact pure_eq_ok.1 h ▸ .refl p
  · simp only [steps_ok] at h
    obtain ⟨-, rfl⟩ := h
    have hwaits : p.decision.state = .pendingDelivery := by
      by_contra hne
      exact hdelivered (.inr hne)
    exact ⟨⟨.stay, fun _ _ _ => .inl hwaits⟩, by rw [hw]; exact congrArg some start_key⟩

/-- The outcome of an SDK call; the wake is no longer starting. -/
theorem delivered_step {w w' : Wake} {d' : ControllerDecision} (hw : p.wake = some w)
    (h : ControllerDecision.Step mints decisionId p.decision d') (hstate : w'.state ≠ .starting)
    (hkey : w'.key = w.key) : p.Call mints decisionId ⟨d', some w'⟩ := by
  refine ⟨⟨h, fun v hv hstarting => ?_⟩, by rw [hw]; exact congrArg some hkey⟩
  obtain rfl : w' = v := Option.some.inj hv
  exact absurd hstarting hstate

theorem deliver_step : d.Step mints decisionId (d.deliver now) := by
  unfold ControllerDecision.deliver
  split_ifs with hstate
  · exact .deliver _ _ d.deadline d.claimLeaseExpiresAt d.humanAttentionReason now hstate (by decide)
      (Nat.le_succ _)
  · exact .stay

theorem deliverLate_step : d.Step mints decisionId (d.deliverLate now) := by
  unfold ControllerDecision.deliverLate
  split_ifs with hstate
  · exact .deliver _ _ _ none none now hstate (by decide) (Nat.le_succ _)
  · exact .stay

theorem deliverAmbiguous_step : d.Step mints decisionId (d.deliverAmbiguous now) := by
  unfold ControllerDecision.deliverAmbiguous
  split_ifs with hstate
  · exact .deliver _ _ d.deadline none _ now hstate (by decide) le_rfl
  · exact .stay

theorem recordDelivery_step {outcome : DeliveryOutcome} {turn : Option String} {w : Wake}
    (hw : p.wake = some w) (h : p.recordDelivery env outcome turn now w = .ok p') : p.Call mints decisionId p' := by
  unfold recordDelivery at h
  split at h
  · simp only [steps_ok] at h
    exact h.2 ▸ .refl p
  split at h
  · simp only [steps_ok] at h
    exact h.2 ▸ .refl p
  · simp only [checks_ok] at h
    obtain ⟨-, h⟩ := h
    cases outcome with
    | delivered =>
      simp only [steps_ok] at h
      obtain ⟨-, rfl⟩ := h
      exact delivered_step hw deliver_step WakeState.noConfusion rfl
    | ambiguous =>
      simp only [steps_ok] at h
      obtain ⟨-, rfl⟩ := h
      exact delivered_step hw deliverAmbiguous_step WakeState.noConfusion rfl
    | failed =>
      simp only [steps_ok] at h
      obtain ⟨-, rfl⟩ := h
      split_ifs
      · exact delivered_step hw deliverLate_step WakeState.noConfusion rfl
      · exact delivered_step hw .stay WakeState.noConfusion rfl

theorem reconcileDelivery_step {turn : String} {w : Wake} (hw : p.wake = some w)
    (h : p.reconcileDelivery turn now w = .ok p') : p.Call mints decisionId p' := by
  unfold reconcileDelivery at h
  split_ifs at h
  · simp only [steps_ok] at h
    exact h.2 ▸ .refl p
  · simp only [steps_ok] at h
    obtain ⟨-, rfl⟩ := h
    exact delivered_step hw deliver_step WakeState.noConfusion rfl

/-! ### One call -/

theorem onWake_ok {f : Wake → Checked DecisionRows} (h : DecisionOp.onWake p f = .ok p') :
    ∃ w, p.wake = some w ∧ f w = .ok p' := by
  unfold DecisionOp.onWake at h
  split at h
  · cases h
  · rename_i w hw
    exact ⟨w, hw, h⟩

theorem run_step {context : DecisionContext} {call : DecisionOp}
    (h : call.run env context now p = .ok p') : p.Call (call.mints env) context.decisionId p' := by
  cases call with
  | claim q minted => exact claim_step h
  | renew q => exact renew_step h
  | deferRateLimit q => exact deferRateLimit_step h
  | acknowledge q => exact acknowledge_step h
  | expireInspection => exact expireInspection_step h
  | reserveInspection minted => exact reserveInspection_step h
  | completeInspection q => exact completeInspection_step h
  | reap => exact reap_step h
  | prepareGeneration generation prompt => exact prepareGeneration_step h
  | bindThread generation thread => exact bindThread_step h
  | bindTurn q => exact bindTurn_step h
  | completeGeneration generation outcome => exact completeGeneration_step h
  | recordProfileDrift generation reason => exact recordProfileDrift_step h
  | resetDelivery q => exact resetDelivery_step h
  | markLaunchAmbiguous q => exact markLaunchAmbiguous_step h
  | authorizeReplacement revision reason => exact authorizeReplacement_step h
  | claimWake =>
    obtain ⟨w, hw, h⟩ := onWake_ok h
    exact claimWake_step hw h
  | recordDelivery outcome turn =>
    obtain ⟨w, hw, h⟩ := onWake_ok h
    exact recordDelivery_step hw h
  | reconcileDelivery turn =>
    obtain ⟨w, hw, h⟩ := onWake_ok h
    exact reconcileDelivery_step hw h

end CodexFlow.Ledger
