import CodexFlow.Ledger.DecisionHistory

/-!
# What the history of a decision keeps

Receipts and inspections are never taken back, the revision never falls, a claimant comes from a
claim, a human claim has no open inspection, and a claimed decision has no wake in its SDK call.
-/

namespace CodexFlow.Ledger

open Checked DecisionRows DispatchRows

variable {env : Env} {L : Ledger} {dispatchId : DispatchId} {kind : WakeKind} {cycle : ℕ}
  {mints : String → Prop} {key : DecisionKey} {d d' : ControllerDecision} {p p' : DecisionRows}
  {now : Time}

namespace ControllerDecision

/-! ### One step -/

theorem acknowledge_kept (d : ControllerDecision) :
    (d.acknowledge now).revision = d.revision ∧ (d.acknowledge now).claimant = d.claimant ∧
      (d.acknowledge now).action = d.action ∧ (d.acknowledge now).generation = d.generation ∧
      (d.acknowledge now).earlier = d.earlier ∧
      (d.acknowledge now).outbox =
        d.outbox.map fun o => { o with acknowledgedAt := some now } := by
  unfold acknowledge
  split_ifs <;> exact ⟨rfl, rfl, rfl, rfl, rfl, rfl⟩

theorem failed_acknowledge_kept {d₁ : ControllerDecision} {reason : Option String} {failedAt : Time}
    (hd₁ : d₁ = d ∨ d.state = .actionCommitted ∧ d₁ = { d with
      state := .humanAttentionRequired, humanAttentionReason := reason
      claimLeaseExpiresAt := none, updatedAt := failedAt }) :
    (d₁.acknowledge now).revision = d.revision ∧ (d₁.acknowledge now).claimant = d.claimant ∧
      (d₁.acknowledge now).action = d.action ∧
      (d₁.acknowledge now).generation = d.generation ∧
      (d₁.acknowledge now).earlier = d.earlier ∧
      (d₁.acknowledge now).outbox =
        d.outbox.map fun o => { o with acknowledgedAt := some now } := by
  have hkept := @acknowledge_kept now d₁
  obtain rfl | ⟨-, rfl⟩ := hd₁
  · exact hkept
  · exact hkept

theorem Step.outbox (h : d.Step mints key d') {o : ActionOutbox} (ho : d.outbox = some o) :
    ∃ acknowledgedAt, d'.outbox = some { o with acknowledgedAt := acknowledgedAt } := by
  cases h with
  | regenerate _ h | attend _ h | release _ h | reopen _ h | conclude _ h =>
    rw [h.same]
    exact ⟨o.acknowledgedAt, ho⟩
  | commit _ _ _ _ _ _ _ _ houtbox =>
    rw [houtbox] at ho
    cases ho
  | acknowledge d₁ _ now hd₁ _ =>
    rw [(failed_acknowledge_kept hd₁).2.2.2.2.2, ho]
    exact ⟨some now, rfl⟩
  | _ => exact ⟨o.acknowledgedAt, ho⟩

theorem Step.claimant (h : d.Step mints key d') :
    d'.claimant = d.claimant ∨ d'.claimant = none ∨
      ∃ c, d'.claimant = some c ∧ mints c.claimTokenSha256 ∧
        (d.claimant = none ∨ key.dispatchId? = none ∧ d.state = .awaitingClaim) := by
  cases h with
  | take c _ _ _ _ hmint _ hfree _ => exact .inr (.inr ⟨c, rfl, hmint, hfree⟩)
  | regenerate _ h | reopen _ h | conclude _ h =>
    rw [h.same]
    exact .inl rfl
  | attend | release => exact .inr (.inl rfl)
  | acknowledge _ _ _ hd₁ => exact .inl (failed_acknowledge_kept hd₁).2.1
  | _ => exact .inl rfl

theorem Step.revision_le (h : d.Step mints key d') : d.revision ≤ d'.revision := by
  cases h with
  | regenerate _ h | conclude _ h =>
    rw [h.same]
  | attend _ h | release _ h =>
    rw [h.same]
    exact Nat.le_succ _
  | acknowledge _ _ _ hd₁ => exact (failed_acknowledge_kept hd₁).1.ge
  | deliver _ _ _ _ _ _ _ _ hrevision => exact hrevision
  | take | extend | reopen | commit => exact Nat.le_succ _
  | _ => exact Nat.le_refl _

/-- An inspection of any generation stays, and keeps what it found. -/
theorem Step.generationAt (h : d.Step mints key d') {n : ℕ} {g : ControllerGeneration}
    (hg : d.generationAt n = some g) : ∃ g', d'.generationAt n = some g' ∧ g.Continues g' := by
  have hkept : ∀ {d' : ControllerDecision}, d'.earlier = d.earlier →
      d'.generation = d.generation → ∃ g', d'.generationAt n = some g' ∧ g.Continues g' := by
    intro d' hearlier hgeneration
    refine ⟨g, ?_, .refl g⟩
    unfold ControllerDecision.generationAt generations at hg ⊢
    rw [hearlier, hgeneration]
    exact hg
  cases h with
  | regenerate _ h => exact h.continues n g hg
  | attend _ h | release _ h | reopen _ h | conclude _ h => exact h.continues n g hg
  | acknowledge _ _ _ hd₁ =>
    exact hkept (failed_acknowledge_kept hd₁).2.2.2.2.1 (failed_acknowledge_kept hd₁).2.2.2.1
  | _ => exact hkept rfl rfl

def HumanClear (d : ControllerDecision) : Prop :=
  d.isHumanClaim → d.generation.inspectionPending = false ∧
    d.generation.inspectionCompleted = false

theorem humanClear_of_none (h : d.claimant = none) : d.HumanClear := by
  intro hhuman
  unfold isHumanClaim at hhuman
  rw [h] at hhuman
  cases hhuman

theorem HumanClear.congr (h : d.HumanClear) (hclaimant : d'.claimant = d.claimant)
    (hinspection : d'.generation.inspection = d.generation.inspection) : d'.HumanClear := by
  unfold HumanClear isHumanClaim ControllerGeneration.inspectionPending
    ControllerGeneration.inspectionCompleted at *
  rw [hclaimant, hinspection]
  exact h

theorem isHumanClaim_of_isModelClaim (h : d.isModelClaim) : d.isHumanClaim = false := by
  obtain ⟨c, hc, hkind⟩ := (Option.any_eq_true _ _).1 h
  unfold isHumanClaim
  rw [Option.mem_def.1 hc, Option.any_some, of_decide_eq_true hkind]
  rfl

theorem humanClear_of_model (h : d.isModelClaim) : d.HumanClear := by
  intro hhuman
  rw [isHumanClaim_of_isModelClaim h] at hhuman
  cases hhuman

theorem Valid.awaiting_human (h : d.Valid env key) (hstate : d.state = .awaitingClaim) :
    d.isHumanClaim = false := by
  cases hclaimant : d.claimant with
  | none =>
    unfold isHumanClaim
    rw [hclaimant]
    rfl
  | some c =>
    obtain ⟨-, hmodel, -⟩ := h.unclaimed (by rw [hstate]; decide) (by rw [hclaimant]; rfl)
    exact isHumanClaim_of_isModelClaim hmodel

theorem Step.humanClear (h : d.Step mints key d') (hkey : key.dispatchId? ≠ none)
    (hvalid : d.Valid env key) (hd : d.HumanClear) : d'.HumanClear := by
  cases h with
  | take _ _ _ _ _ _ _ _ hclear =>
    exact fun _ => hclear.resolve_left hkey
  | regenerate _ h hread _ =>
    have hclaimant : d'.claimant = d.claimant := by
      rw [h.same]
    obtain hread | ⟨hstate, hclaimed⟩ := hread
    · exact hd.congr hclaimant hread
    · intro hhuman
      unfold isHumanClaim at hhuman
      rw [hclaimant] at hhuman
      obtain hstate | hstate : d.state = .awaitingClaim ∨ d.state = .claimed := by
        simpa using hstate
      · exact absurd hhuman (by rw [show d.claimant.any _ = false from hvalid.awaiting_human hstate]; decide)
      · exact absurd hhuman (by rw [show d.claimant.any _ = false from hclaimed hstate]; decide)
  | attend | release => exact humanClear_of_none rfl
  | reopen _ h _ _ _ _ hnone =>
    refine humanClear_of_none ?_
    rw [h.same]
    exact hnone
  | conclude d₁ h _ _ hclaimant _ _ =>
    refine humanClear_of_model ?_
    rw [h.same]
    exact hclaimant
  | deactivate _ _ hclaimant _ _ => exact humanClear_of_model hclaimant
  | acknowledge _ _ _ hd₁ =>
    exact hd.congr (failed_acknowledge_kept hd₁).2.1
      (congrArg _ (failed_acknowledge_kept hd₁).2.2.2.1)
  | _ => exact hd.congr rfl rfl

end ControllerDecision

/-! ### Every reachable ledger -/

theorem Valid.decisionValid (hL : L.Valid env)
    (hp : L.pairAt (.dispatch dispatchId kind cycle) = some p) :
    p.decision.Valid env (.dispatch dispatchId kind cycle) ∧
      (p.wake = none → p.decision.state ∈
        [.actionCommitted, .acknowledged, .superseded, .legacyClosed]) ∧
      ∀ w ∈ p.wake, wakeAgrees p.decision w := by
  obtain ⟨r, hr, hp⟩ := Option.bind_eq_some_iff.1 hp
  obtain ⟨hd, hw⟩ := pair?_eq_some.1 hp
  obtain ⟨hmem, hkind, hcycle⟩ := decision?_spec hd
  obtain ⟨hvalid, hnone, hagrees⟩ := (hL.rows hr).decisions.2 p.decision hmem
  have hwake : r.wakeOf p.decision = p.wake := by
    unfold wakeOf
    rw [hkind, hcycle]
    exact hw
  rw [hkind, hcycle] at hvalid
  rw [hwake] at hnone hagrees
  exact ⟨hvalid, hnone, hagrees⟩

/-- A human claim on a decision of a dispatch has no open or completed inspection. -/
theorem Reachable.humanClear (hL : L.Reachable env)
    (hp : L.pairAt (.dispatch dispatchId kind cycle) = some p) : p.decision.HumanClear := by
  refine hL.pair (I := fun p => p.decision.HumanClear)
    (fun p hfresh => ControllerDecision.humanClear_of_none hfresh.claimant) ?_ hp
  intro L op p p' hvalid _ hp _ hstep hclear
  exact hstep.decision.humanClear (Option.some_ne_none _) (hvalid.decisionValid hp).1 hclear

/-- A claimed decision was claimed, or waited for its claim without a wake in its SDK call. -/
theorem ControllerDecision.Step.claimed (h : d.Step mints key d') (hd' : d'.state = .claimed) :
    d.state = .claimed ∨ d.state = .awaitingClaim ∨
      d.claimant = none ∧ d'.claimant.isSome ∧ d.isClosed = false := by
  cases h with
  | stay | extend => exact .inl (by assumption)
  | regenerate _ h =>
    rw [h.same] at hd'
    exact .inl hd'
  | take _ _ _ _ _ _ hopen hfree _ =>
    obtain hfree | ⟨-, hstate⟩ := hfree
    · exact .inr (.inr ⟨hfree, rfl, hopen⟩)
    · exact .inr (.inl hstate)
  | conclude _ _ _ hstate =>
    obtain hstate | hstate : d.state = .awaitingClaim ∨ d.state = .claimed := by
      simpa using hstate
    · exact .inr (.inl hstate)
    · exact .inl hstate
  | deliver state _ _ _ _ _ _ hto =>
    obtain rfl : state = .claimed := hd'
    exact absurd hto (by decide)
  | commit _ _ _ state _ _ _ hto =>
    obtain rfl : state = .claimed := hd'
    exact absurd hto (by decide)
  | acknowledge d₁ _ now hd₁ _ =>
    unfold ControllerDecision.acknowledge at hd'
    split_ifs at hd'
    · obtain rfl | ⟨-, rfl⟩ := hd₁
      · exact .inl hd'
      · cases hd'
  | _ => cases hd'

theorem Reachable.claimed_wake (hL : L.Reachable env)
    (hp : L.pairAt (.dispatch dispatchId kind cycle) = some p)
    (hclaimed : p.decision.state = .claimed) : ∀ w ∈ p.wake, w.state ≠ .starting := by
  revert hclaimed
  refine hL.pair (I := fun p => p.decision.state = .claimed → ∀ w ∈ p.wake, w.state ≠ .starting)
    (fun p hfresh hstate => ?_) ?_ hp
  · have hmem := hfresh.state
    rw [hstate] at hmem
    exact absurd hmem (by decide)
  intro L op p p' hvalid hvalid' hp hp' hstep hI hstate' w hw hstarting
  have hvalid := hvalid.decisionValid hp
  have hvalid' := hvalid'.decisionValid hp'
  obtain hwaits | ⟨hold, hfree⟩ := hstep.starting w hw hstarting
  · rw [hstate'] at hwaits
    cases hwaits
  have hclaimant : p.decision.claimant ≠ none := by
    intro hnone
    have hsome := hvalid'.1.claimed hstate'
    rw [hfree hnone] at hsome
    cases hsome
  obtain hstate | hstate | ⟨hnone, -⟩ := hstep.decision.claimed hstate'
  · exact hI hstate w hold hstarting
  · have hmem := (hvalid.2.2 w hold).2.2 hstate
    rw [hstarting] at hmem
    exact absurd hmem (by decide)
  · exact hclaimant hnone

end CodexFlow.Ledger
