import CodexFlow.Ledger.Moves

/-!
# The steps of a decision

What any call can do to a decision: it is taken, extended, committed, acknowledged, given back, left
to a human or closed, and its generations are rewritten without losing an inspection.
-/

namespace CodexFlow.Ledger

open Checked

variable {env : Env} {now : Time}

/-! ### Generations -/

namespace ControllerGeneration

variable {g g' g'' : ControllerGeneration}

/-- An inspection that was started is kept, and one that is over keeps what it found. -/
def Continues (g g' : ControllerGeneration) : Prop :=
  ∀ i ∈ g.inspection, ∃ i' ∈ g'.inspection,
    i'.startedAt = i.startedAt ∧ (i.completedAt.isSome → i' = i)

theorem Continues.of_eq (h : g'.inspection = g.inspection) : g.Continues g' :=
  fun i hi => ⟨i, h ▸ hi, rfl, fun _ => rfl⟩

theorem Continues.refl (g : ControllerGeneration) : g.Continues g := .of_eq rfl

theorem Continues.of_none (h : g.inspection = none) : g.Continues g' := by
  intro i hi
  rw [h] at hi
  cases hi

theorem Continues.of_pending {i i' : ControllerInspection} (hi : g.inspection = some i)
    (hpending : i.completedAt = none) (hi' : g'.inspection = some i')
    (hstarted : i'.startedAt = i.startedAt) : g.Continues g' := by
  intro j hj
  obtain rfl : i = j := Option.some.inj (hi.symm.trans hj)
  refine ⟨i', hi', hstarted, fun h => ?_⟩
  rw [hpending] at h
  cases h

theorem inspectionPending_iff :
    g.inspectionPending ↔ ∃ i, g.inspection = some i ∧ i.completedAt = none := by
  simp [inspectionPending, ControllerInspection.isPending, Option.any_eq_true]

theorem pending_of_expired (h : g.inspectionExpired now) : g.inspectionPending := by
  simp only [inspectionExpired, ControllerInspection.isExpired, Option.any_eq_true,
    Bool.and_eq_true] at h
  obtain ⟨i, hi, hpending, -⟩ := h
  exact (Option.any_eq_true _ _).2 ⟨i, hi, hpending⟩

theorem closeInspection_continues {outcome : ControllerGenerationState}
    (h : g.inspectionPending) : g.Continues (g.closeInspection outcome now) := by
  obtain ⟨i, hi, hpending⟩ := inspectionPending_iff.1 h
  have hclosed : (g.closeInspection outcome now).inspection = some
      { i with completedAt := some now, outcome := some outcome, leaseExpiresAt := none } := by
    simp [closeInspection, hi]
  exact .of_pending hi hpending hclosed rfl

end ControllerGeneration

namespace ControllerDecision

variable {d d' : ControllerDecision}

/-- Only the generations were rewritten, and none of them lost its inspection. -/
structure Regenerates (d d' : ControllerDecision) : Prop where
  same : d' = { d with earlier := d'.earlier, generation := d'.generation }
  continues : ∀ n g, d.generationAt n = some g →
    ∃ g', d'.generationAt n = some g' ∧ g.Continues g'

theorem Regenerates.refl (d : ControllerDecision) : d.Regenerates d :=
  ⟨rfl, fun _ g hg => ⟨g, hg, .refl g⟩⟩

theorem generationAt_eq_some {n : ℕ} {g : ControllerGeneration} :
    d.generationAt n = some g ↔ 1 ≤ n ∧ d.generations[n - 1]? = some g := by
  unfold generationAt
  split_ifs with h
  · simp [h]
  · exact ⟨fun hg => ⟨Nat.one_le_iff_ne_zero.2 h, hg⟩, fun hg => hg.2⟩

theorem generationAt_current (d : ControllerDecision) :
    d.generationAt d.currentGeneration = some d.generation :=
  generationAt_eq_some.2 ⟨Nat.succ_pos _, by simp [generations, currentGeneration]⟩

theorem regenerates_of_generations {earlier : List ControllerGeneration}
    {generation : ControllerGeneration}
    (h : List.Forall₂ ControllerGeneration.Continues d.generations (earlier ++ [generation])) :
    d.Regenerates { d with earlier := earlier, generation := generation } where
  same := rfl
  continues := by
    intro n g hg
    obtain ⟨hn, hg⟩ := generationAt_eq_some.1 hg
    obtain ⟨hlt, rfl⟩ := List.getElem?_eq_some_iff.1 hg
    have hlt' : n - 1 < (earlier ++ [generation]).length := h.length_eq ▸ hlt
    exact ⟨_, generationAt_eq_some.2 ⟨hn, List.getElem?_eq_getElem hlt'⟩, h.get hlt hlt'⟩

theorem regenerates_withGeneration {f : ControllerGeneration → ControllerGeneration}
    (h : d.generation.Continues (f d.generation)) : d.Regenerates (d.withGeneration f) :=
  regenerates_of_generations (List.rel_append (List.forall₂_same.2 fun g _ => .refl g)
    (.cons h .nil))

/-- A prepared generation follows the others. -/
theorem regenerates_replace (h : d.Regenerates d') : d.Regenerates d'.replace where
  same := by
    have hsame := h.same
    unfold replace
    rw [hsame]
  continues := by
    intro n g hg
    obtain ⟨g', hg', hcontinues⟩ := h.continues n g hg
    obtain ⟨hn, hg'⟩ := generationAt_eq_some.1 hg'
    refine ⟨g', generationAt_eq_some.2 ⟨hn, ?_⟩, hcontinues⟩
    show (d'.generations ++ [ControllerGeneration.prepared])[n - 1]? = some g'
    rw [List.getElem?_append_left (List.getElem?_eq_some_iff.1 hg').1]
    exact hg'

theorem regenerates_mapGeneration {n : ℕ} {f : ControllerGeneration → ControllerGeneration}
    (h : ∀ g : ControllerGeneration, g.Continues (f g)) : d.Regenerates (d.mapGeneration n f) := by
  unfold mapGeneration
  split_ifs
  · exact regenerates_withGeneration (h _)
  · refine regenerates_of_generations (List.rel_append ?_ (.cons (.refl _) .nil))
    refine List.forall₂_iff_get.2 ⟨(List.length_modify ..).symm, fun i hi hi' => ?_⟩
    simp only [List.get_eq_getElem, List.getElem_modify]
    split_ifs
    · exact h _
    · exact .refl _

end ControllerDecision

/-! ### Steps -/

/-- `UNIQUE(dispatch_id, kind, cycle_sequence)` -/
def Wake.key (w : Wake) : WakeKind × ℕ := (w.kind, w.cycleSequence)

def DecisionOp.mints (env : Env) : DecisionOp → String → Prop
  | .claim _ minted, digest => env.sha256 minted = digest
  | _, _ => False

/-- The digests of the capabilities that a call hands out. -/
def Op.mints (env : Env) : Op → String → Prop
  | .decision _ _ _ call _ => call.mints env
  | .programDecision _ _ call _ => call.mints env
  | .claimProgramDecision _ _ _ minted _ => fun digest => env.sha256 minted = digest
  | _ => fun _ => False

/-- What a call can make of a decision. `mints` are the digests of the capabilities it hands out. -/
inductive ControllerDecision.Step (mints : String → Prop) (decisionId : DecisionKey)
    (d : ControllerDecision) : ControllerDecision → Prop
  | stay : Step mints decisionId d d
  | take (c : Claimant) (lease : Time) (used : ℕ) (reason : Option String) (now : Time)
      (hmint : mints c.claimTokenSha256) (hopen : d.isClosed = false)
      (hfree : d.claimant = none ∨ decisionId.dispatchId? = none ∧ d.state = .awaitingClaim)
      (hclear : decisionId.dispatchId? = none ∨
        d.generation.inspectionPending = false ∧ d.generation.inspectionCompleted = false) :
    Step mints decisionId d { d with
      state := .claimed, revision := d.revision + 1, generationUsed := used, claimant := some c
      claimLeaseExpiresAt := some lease, humanAttentionReason := reason, updatedAt := now }
  | extend (lease deadline now : Time) (hstate : d.state = .claimed) :
    Step mints decisionId d { d with
      revision := d.revision + 1, claimLeaseExpiresAt := some lease, deadline := deadline
      updatedAt := now }
  | regenerate (d' : ControllerDecision) (h : d.Regenerates d')
      (hread : d'.generation.inspection = d.generation.inspection ∨
        d.state ∈ [.awaitingClaim, .claimed] ∧ (d.state = .claimed → d.isHumanClaim = false))
      (hearlier : d'.earlier.map (·.inspection) = d.earlier.map (·.inspection)) :
    Step mints decisionId d d'
  | attend (d₁ : ControllerDecision) (h : d.Regenerates d₁) (reason : String) (now : Time) :
    Step mints decisionId d (d₁.attend now reason)
  | release (d₁ : ControllerDecision) (h : d.Regenerates d₁) (reason : Option String) (now : Time) :
    Step mints decisionId d { d₁.release now with humanAttentionReason := reason }
  | reopen (d₁ : ControllerDecision) (h : d.Regenerates d₁) (deadline now : Time)
      (hstate : d.state = .humanAttentionRequired) (haction : d.action = none)
      (hclaimant : d.claimant = none) :
    Step mints decisionId d { d₁ with
      state := .awaitingClaim, revision := d.revision + 1, deadline := deadline
      humanAttentionReason := none, updatedAt := now }
  | conclude (d₁ : ControllerDecision) (h : d.Regenerates d₁) (now : Time)
      (hstate : d.state ∈ [.awaitingClaim, .claimed]) (hclaimant : d.isModelClaim)
      (hpending : d.generation.inspectionPending) (hearlier : d₁.earlier = d.earlier) :
    Step mints decisionId d
      { d₁ with state := .claimed, humanAttentionReason := none, updatedAt := now }
  | deactivate (now : Time) (hstate : d.state = .claimed) (hclaimant : d.isModelClaim)
      (hinspected : d.generation.inspectionCompleted ∧ d.generation.inspected.isSome)
      (hdispatch : decisionId.dispatchId? ≠ none) :
    Step mints decisionId d (d.deactivate now)
  | deliver (state : ControllerDecisionState) (revision : ℕ) (deadline : Time) (lease : Option Time)
      (reason : Option String) (now : Time) (hstate : d.state = .pendingDelivery)
      (hto : state ∈ [.awaitingClaim, .humanAttentionRequired]) (hrevision : d.revision ≤ revision) :
    Step mints decisionId d { d with
      state := state, revision := revision, deadline := deadline, claimLeaseExpiresAt := lease
      humanAttentionReason := reason, updatedAt := now }
  | close (lease : Option Time) (now : Time)
      (hstate : d.state ∈
        [.pendingDelivery, .awaitingClaim, .claimed, .humanAttentionRequired]) :
    Step mints decisionId d { d with
      state := .superseded, supersededAt := some now, claimLeaseExpiresAt := lease
      humanAttentionReason := none, updatedAt := now }
  | commit (supersededAt : Option Time) (action : CommittedAction) (o : ActionOutbox)
      (state : ControllerDecisionState) (reason : Option String) (now : Time)
      (hstate : d.state ∈ [.awaitingClaim, .claimed])
      (hto : state ∈ [.humanAttentionRequired, .actionCommitted]) (houtbox : d.outbox = none)
      (hclaimant : d.claimant.isSome) :
    Step mints decisionId d { d with
      state := state, revision := d.revision + 1, action := some action, outbox := some o
      supersededAt := supersededAt, humanAttentionReason := reason, claimLeaseExpiresAt := none
      updatedAt := now }
  | acknowledge (d₁ : ControllerDecision) (reason : Option String) (now : Time)
      (hd₁ : d₁ = d ∨ d.state = .actionCommitted ∧ d₁ = { d with
        state := .humanAttentionRequired, humanAttentionReason := reason
        claimLeaseExpiresAt := none, updatedAt := now }) (houtbox : d.outbox.isSome) :
    Step mints decisionId d (d₁.acknowledge now)
  | fail (reason : Option String) (now : Time) (hstate : d.state = .actionCommitted) :
    Step mints decisionId d { d with
      state := .humanAttentionRequired, humanAttentionReason := reason
      claimLeaseExpiresAt := none, updatedAt := now }

/-- A step of a decision, with what it means for a wake in its SDK call: it was there before and the
call was no claim, or the decision still waits for its delivery. -/
structure DecisionRows.Step (mints : String → Prop) (decisionId : DecisionKey)
    (p p' : DecisionRows) : Prop where
  decision : ControllerDecision.Step mints decisionId p.decision p'.decision
  starting : ∀ w ∈ p'.wake, w.state = .starting → p'.decision.state = .pendingDelivery ∨
    w ∈ p.wake ∧ (p.decision.claimant = none → p'.decision.claimant = none)

end CodexFlow.Ledger
