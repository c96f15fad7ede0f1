import CodexFlow.Programs.Steps

/-!
# What every call keeps

The graph of a program stays as it was registered, its revision never falls, and the journals and
the dispatches of its milestones only grow.
-/

namespace CodexFlow.Programs

open Ledger (Time)
open Checked

variable {digests : Digests} {P P' P'' : Program} {m m' m'' : Milestone} {id : String} {now : Time}
  {event : Option NewEvent}

/-! ### Dispatches -/

namespace Milestone

/-- The largest generation that a fold over dispatches of a role ends with. -/
theorem latestGeneration_spec (role : String) (dispatches : List DispatchRow) (latest : ℕ) :
    let last := dispatches.foldl
      (fun latest d => if d.role = role then max latest d.generation else latest) latest
    latest ≤ last ∧ (∀ d ∈ dispatches, d.role = role → d.generation ≤ last) ∧
      (last = latest ∨ ⟨role, last⟩ ∈ dispatches) := by
  induction dispatches generalizing latest with
  | nil => exact ⟨Nat.le_refl _, fun _ h => (nomatch h), .inl rfl⟩
  | cons d dispatches ih =>
    obtain ⟨hle, hall, hlast⟩ := ih (if d.role = role then max latest d.generation else latest)
    rw [List.foldl_cons]
    by_cases hd : d.role = role
    · simp only [if_pos hd] at hle hall hlast ⊢
      refine ⟨(Nat.le_max_left _ _).trans hle, ?_, ?_⟩
      · intro d' hd' hrole
        obtain rfl | hd' := List.mem_cons.1 hd'
        · exact (Nat.le_max_right _ _).trans hle
        · exact hall d' hd' hrole
      · obtain hlast | hlast := hlast
        · rw [hlast]
          obtain hmax | hmax := Nat.le_total d.generation latest
          · exact .inl (Nat.max_eq_left hmax)
          · rw [Nat.max_eq_right hmax, ← hd]
            exact .inr List.mem_cons_self
        · exact .inr (List.mem_cons_of_mem _ hlast)
    · simp only [if_neg hd] at hle hall hlast ⊢
      refine ⟨hle, ?_, hlast.imp_right (List.mem_cons_of_mem _)⟩
      intro d' hd' hrole
      obtain rfl | hd' := List.mem_cons.1 hd'
      · exact absurd hrole hd
      · exact hall d' hd' hrole

theorem le_latestGeneration {d : DispatchRow} (h : d ∈ m.dispatches) :
    d.generation ≤ m.latestGeneration d.role :=
  (latestGeneration_spec d.role m.dispatches 0).2.1 d h rfl

theorem mem_of_latestGeneration {role : String} (h : m.latestGeneration role ≠ 0) :
    ⟨role, m.latestGeneration role⟩ ∈ m.dispatches :=
  (latestGeneration_spec role m.dispatches 0).2.2.resolve_left h

theorem nextGeneration_of_not_owns {role : String} (h : m.ownsRole role = false) :
    m.nextGeneration role = 1 := by
  unfold nextGeneration
  by_contra hne
  have hlatest : m.latestGeneration role ≠ 0 := by omega
  have howns := List.any_eq_false.1 h _ (mem_of_latestGeneration hlatest)
  simp at howns

/-- The generations of a role only rise, from one on. -/
structure Numbered (m : Milestone) : Prop where
  positive : ∀ d ∈ m.dispatches, 0 < d.generation
  rising : m.dispatches.Pairwise fun d d' => d.role = d'.role → d.generation < d'.generation

theorem Numbered.add (h : m.Numbered) {role : String} {generation : ℕ}
    (hnext : generation = m.nextGeneration role) : (m.addDispatch role generation).Numbered where
  positive := by
    intro d hd
    obtain hd | hd := List.mem_append.1 hd
    · exact h.positive d hd
    · rw [List.mem_singleton.1 hd, hnext]
      exact Nat.succ_pos _
  rising := by
    refine List.pairwise_append.2 ⟨h.rising, List.pairwise_singleton _ _, ?_⟩
    intro d hd d' hd' hrole
    rw [List.mem_singleton.1 hd'] at hrole ⊢
    show d.generation < generation
    rw [hnext, ← show d.role = role from hrole]
    exact Nat.lt_succ_of_le (le_latestGeneration hd)

end Milestone

/-! ### Milestones -/

/-- The node stays, what is appended to stays in front, and new dispatches have the next
generation of their role. -/
structure Milestone.Continues (m m' : Milestone) : Prop where
  node : m'.node = m.node
  lifecycle : m.lifecycle <+: m'.lifecycle
  dispatches : m.dispatches <+: m'.dispatches
  numbered : m.Numbered → m'.Numbered

namespace Milestone.Continues

theorem refl (m : Milestone) : m.Continues m := ⟨rfl, List.prefix_rfl, List.prefix_rfl, id⟩

theorem trans (h : m.Continues m') (h' : m'.Continues m'') : m.Continues m'' :=
  ⟨h'.node.trans h.node, h.lifecycle.trans h'.lifecycle, h.dispatches.trans h'.dispatches,
    h'.numbered ∘ h.numbered⟩

theorem of_dispatches (h : m.Continues m') (hnode : m''.node = m'.node)
    (hlifecycle : m'.lifecycle <+: m''.lifecycle) (hdispatches : m''.dispatches = m'.dispatches) :
    m.Continues m'' where
  node := hnode.trans h.node
  lifecycle := h.lifecycle.trans hlifecycle
  dispatches := hdispatches ▸ h.dispatches
  numbered hm := ⟨hdispatches ▸ (h.numbered hm).positive, hdispatches ▸ (h.numbered hm).rising⟩

theorem recordFact (h : m.Continues m') (fact : Fact) : m.Continues (m'.recordFact fact) :=
  h.of_dispatches rfl (Journal.prefix_record _ _) rfl

theorem moveTo (h : m.Continues m') (s : WorkflowState) : m.Continues (m'.moveTo s) :=
  h.of_dispatches rfl List.prefix_rfl rfl

theorem addDispatch (h : m.Continues m') {role : String} {generation : ℕ}
    (hnext : generation = m'.nextGeneration role) :
    m.Continues (m'.addDispatch role generation) :=
  ⟨h.node, h.lifecycle, h.dispatches.trans (List.prefix_append _ _),
    fun hm => (h.numbered hm).add hnext⟩

theorem supersede (h : m.Continues m') (predecessor : Option String) (commit : String)
    (dispatchId : Option DispatchValue) :
    m.Continues (m'.supersede predecessor commit dispatchId) := by
  unfold Milestone.supersede
  split
  · exact h
  · exact h.recordFact _

theorem promote (h : m.Continues m') (s : Subject) (ids : List String) :
    m.Continues (m'.promote s ids) := by
  unfold Milestone.promote
  split_ifs
  · exact h
  · exact h.recordFact _

/-- Rows that neither the journal nor the dispatches are part of. -/
theorem of_rows (h : m.Continues m') {outcomes : List ProgramOutcome}
    {integrations : List Integration} :
    m.Continues { m' with outcomes := outcomes, integrations := integrations } :=
  h.of_dispatches rfl List.prefix_rfl rfl

end Milestone.Continues

open Milestone.Continues

theorem Program.Adopts.continues {q : Adoption} {commit : String}
    (h : P.Adopts digests id q commit now m m') : m.Continues m' := by
  obtain ⟨predecessor, moved, adopted, dispatchId, -, hmoved, hadopted, rfl⟩ := h.result
  have hmove : m.Continues moved := by
    obtain ⟨-, -, hlaunch, -⟩ | ⟨-, hleave, -⟩ := hmoved
    · obtain ⟨-, dispatches, rfl, hdispatches⟩ := Milestone.launchAdopted_ok hlaunch
      obtain rfl | ⟨hfree, rfl⟩ := hdispatches
      · exact (refl m).moveTo _
      · exact ((refl m).addDispatch (Milestone.nextGeneration_of_not_owns hfree).symm).moveTo _
    · obtain ⟨rfl, -⟩ | ⟨-, -, rfl⟩ := Milestone.leaveFor_ok hleave
      · exact refl _
      · exact (refl m).moveTo _
  refine supersede ?_ predecessor commit dispatchId
  obtain rfl | ⟨-, r, rfl⟩ := Milestone.adoptOutcome_ok hadopted
  · exact hmove.recordFact _
  · exact (hmove.recordFact _).of_rows

theorem Program.Reports.continues {q : ExecutorResult} (h : Program.Reports q m m') :
    m.Continues m' := by
  obtain ⟨closed, predecessor, hclosed, -, rfl⟩ := h.result
  have hclose : m.Continues closed := by
    obtain ⟨-, rfl⟩ | ⟨-, rfl, -⟩ := Milestone.closeExecution_ok hclosed
    · exact (refl m).moveTo _
    · exact refl _
  exact ((hclose.recordFact _).supersede _ _ _).recordFact _

theorem Program.Reconciles.continues {q : Reconciliation} (h : Program.Reconciles q m m') :
    m.Continues m' := by
  rw [h.result]
  exact ((refl m).moveTo _).recordFact _

theorem recordManifest_continues {q : EvidenceResult}
    (h : m.recordManifest digests q now = .ok m') : m.Continues m' := by
  rw [Program.recordManifest_keeps h]
  exact (refl m).of_rows

theorem Program.Evidences.continues {q : EvidenceResult}
    (h : P.Evidences digests id q now m m') : m.Continues m' := by
  obtain ⟨recorded, hrecorded, -, rfl⟩ := h.result
  exact (((recordManifest_continues hrecorded).moveTo _).recordFact _).recordFact _

theorem Program.Invalidates.continues {evidenceSha256 reason : String}
    (h : Program.Invalidates evidenceSha256 reason m m') : m.Continues m' := by
  rw [h.result]
  refine recordFact ?_ _
  split_ifs
  · exact (refl m).moveTo _
  · exact refl m

theorem Program.Closes.continues {q : Closure} (h : P.Closes digests id q now m m') :
    m.Continues m' := by
  obtain ⟨closed, hclosed, rfl⟩ := h.closed
  refine moveTo (promote ?_ _ _) _
  rw [Program.closeOutcome_state hclosed]
  exact (refl m).of_rows

theorem Program.Integrates.continues {r : IntegrationReceipt} {i : Integration} {after : String}
    (h : P.Integrates digests id r i after now m m') : m.Continues m' := by
  rw [h.result]
  exact ((refl m).of_rows).recordFact _

/-! ### Programs -/

/-- The graph that a program was registered with stays, and what it counts only grows. -/
structure Program.Continues (P P' : Program) : Prop where
  programId : P'.programId = P.programId
  planDigest : P'.planDigest = P.planDigest
  registered : P'.registeredTrunkHead = P.registeredTrunkHead
  keys : P'.milestones.keys = P.milestones.keys
  milestones : ∀ id m, P.milestones.get? id = some m →
    ∃ m', P'.milestones.get? id = some m' ∧ m.Continues m'
  revision : P.revision ≤ P'.revision

namespace Program.Continues

theorem refl (P : Program) : P.Continues P :=
  ⟨rfl, rfl, rfl, rfl, fun _ m hm => ⟨m, hm, .refl m⟩, Nat.le_refl _⟩

theorem trans (h : P.Continues P') (h' : P'.Continues P'') : P.Continues P'' where
  programId := h'.programId.trans h.programId
  planDigest := h'.planDigest.trans h.planDigest
  registered := h'.registered.trans h.registered
  keys := h'.keys.trans h.keys
  milestones := by
    intro id m hm
    obtain ⟨m', hm', hmoved⟩ := h.milestones id m hm
    obtain ⟨m'', hm'', hmoved'⟩ := h'.milestones id m' hm'
    exact ⟨m'', hm'', hmoved.trans hmoved'⟩
  revision := h.revision.trans h'.revision

theorem set (hm : P.milestones.get? id = some m) (h : m.Continues m') :
    P.Continues (P.setMilestone id m') where
  programId := rfl
  planDigest := rfl
  registered := rfl
  keys := Table.keys_set _ _ _
  milestones := by
    intro other m₀ hm₀
    by_cases hother : other = id
    · subst hother
      rw [hm] at hm₀
      cases hm₀
      exact ⟨m', Table.get?_set_self hm m', h⟩
    · exact ⟨m₀, (Table.get?_set_ne _ hother _).trans hm₀, .refl m₀⟩
  revision := Nat.le_refl _

theorem of_row (h : P.Continues P') {trunkHead : String} {state : ProgramState} {revision : ℕ}
    {closedAt : Option Time} (hrevision : P'.revision ≤ revision) :
    P.Continues { P' with
      trunkHead := trunkHead, state := state, revision := revision, closedAt := closedAt } :=
  ⟨h.programId, h.planDigest, h.registered, h.keys, h.milestones, h.revision.trans hrevision⟩

theorem inState (h : P.Continues P') (state : ProgramState) : P.Continues (P'.inState state) :=
  h.of_row (Nat.le_refl _)

theorem advance (h : P.Continues P') : P.Continues P'.advance := h.of_row (Nat.le_succ _)

theorem refreshes {advanceRevision : Bool} (h : P.Continues P')
    (hrefresh : P'.Refreshes advanceRevision now P'') : P.Continues P'' := by
  obtain ⟨-, ⟨rfl, -⟩ | rfl⟩ | ⟨-, rfl⟩ := hrefresh.result
  · exact h
  all_goals exact h.of_row (Nat.le_add_right _ _)

end Program.Continues

open Program

theorem run_continues {call : Call} (h : P.run digests now call = .ok (P', event)) :
    P.Continues P' := by
  cases call with
  | start key =>
    obtain ⟨-, -, rfl⟩ := start_ok h
    split_ifs
    · exact ((Continues.refl P).inState _).advance
    · exact .refl P
  | attention key =>
    rw [attention_ok h]
    split_ifs
    · exact .refl P
    · exact (Continues.refl P).inState _
  | recordCandidate id c =>
    obtain ⟨-, ⟨rfl, -⟩ | ⟨m, hm, ⟨rfl, -⟩ | ⟨-, rfl, -⟩⟩⟩ := recordCandidate_ok h
    · exact .refl _
    · exact .refl _
    · exact .set hm ((Milestone.Continues.refl m).recordFact _)
  | adopt id q =>
    obtain ⟨commit, m, -, hm, -, ⟨rfl, -⟩ | ⟨m', hadopts, rfl, -⟩⟩ := adopt_ok h
    · exact .refl _
    · exact .set hm hadopts.continues
  | executorResult id q =>
    obtain ⟨m, hm, -, ⟨rfl, -⟩ | ⟨m', hreports, rfl | rfl⟩⟩ := executorResult_ok h
    · exact .refl _
    · exact .set hm hreports.continues
    · exact ((Continues.set hm hreports.continues).inState _).advance
  | controlResult id =>
    exact absurd h controlResult_ne_ok
  | reconcile id q =>
    obtain ⟨m, hm, -, ⟨rfl, -⟩ | ⟨m', hreconciles, rfl⟩⟩ := reconcile_ok h
    · exact .refl _
    · exact .set hm hreconciles.continues
  | runtimeEvidence id q queue =>
    obtain ⟨m, hm, -, ⟨-, m', hrecorded, rfl⟩ | ⟨m', hevidences, rfl | rfl⟩⟩ :=
      runtimeEvidence_ok h
    · exact .set hm (recordManifest_continues hrecorded)
    · exact .set hm hevidences.continues
    · exact ((Continues.set hm hevidences.continues).inState _).advance
  | invalidateEvidence id e reason =>
    obtain ⟨m, hm, -, ⟨rfl, -⟩ | ⟨m', hinvalidates, rfl⟩⟩ := invalidate_ok h
    · exact .refl _
    · split_ifs
      · exact ((Continues.set hm hinvalidates.continues).inState _).advance
      · exact .set hm hinvalidates.continues
  | closeNode id q =>
    obtain ⟨m, hm, ⟨rfl, -⟩ | ⟨m', hcloses, hrefresh⟩⟩ := closeNode_ok (closeProgramNode_ok h).2
    · exact .refl _
    · exact (Continues.set hm hcloses.continues).refreshes hrefresh
  | review id q =>
    obtain ⟨m, hm, -, -, ⟨rfl, -⟩ | rfl⟩ := review_ok h
    · exact .refl _
    · exact .set hm ((Milestone.Continues.refl m).recordFact _)
  | integration id c r state =>
    obtain ⟨m, i, hm, -, -, -, ⟨rfl, -⟩ | ⟨-, m', after, hintegrates, hrefresh⟩ | ⟨-, -, rfl⟩⟩ :=
      integration_ok h
    · exact .refl _
    · exact (((Continues.set hm hintegrates.continues).advance).of_row
        (Nat.le_refl _)).refreshes hrefresh
    · exact (Continues.set hm (Milestone.Continues.refl m).of_rows).inState _
  | claimDispatch id role =>
    obtain ⟨m, hm, ⟨rfl, -⟩ | ⟨⟨-, hfree⟩, rfl⟩⟩ := claimDispatch_ok (silently_ok h)
    · exact .refl _
    · exact .set hm (((Milestone.Continues.refl m).addDispatch
        (Milestone.nextGeneration_of_not_owns hfree).symm).moveTo _)
  | claimReview id role generation =>
    obtain ⟨-, m, hm, ⟨rfl, -⟩ | ⟨hnext, rfl⟩⟩ := claimReview_ok (silently_ok h)
    · exact .refl _
    · exact .set hm ((Milestone.Continues.refl m).addDispatch hnext)
  | claimRepair id generation =>
    obtain ⟨m, hm, ⟨rfl, -⟩ | ⟨-, -, hnext, rfl⟩⟩ := claimRepair_ok (silently_ok h)
    · exact .refl _
    · exact .set hm (((Milestone.Continues.refl m).addDispatch hnext).moveTo _)
  | move id target expected =>
    obtain ⟨m, hm, -, rfl⟩ := moveMilestone_ok (silently_ok h)
    exact .set hm ((Milestone.Continues.refl m).moveTo _)

/-! ### Bundles -/

variable {queue : QueueStates} {trunkHead : String}

theorem applyAction_continues {action : ProgramAction}
    (h : P.applyAction digests queue trunkHead now action = .ok P') : P.Continues P' := by
  cases action with
  | startReadyMilestones ids =>
    obtain ⟨rfl, -⟩ := startReadyMilestones_ok h
    exact .refl _
  | startReviews id s roles =>
    obtain ⟨m, hm, -, -, -, -, rfl⟩ := startReviews_ok h
    exact .set hm ((Milestone.Continues.refl m).moveTo _)
  | requestRepair id s findings =>
    obtain ⟨m, hm, -, -, -, -, rfl⟩ := requestRepair_ok h
    exact .set hm (((Milestone.Continues.refl m).moveTo _).recordFact _)
  | resolveCandidateBlocker id c gate resolution =>
    obtain ⟨m, -, hm, -, -, -, rfl⟩ := resolve_ok h
    exact .set hm ((Milestone.Continues.refl m).recordFact _)
  | promoteCandidate id s ids =>
    obtain ⟨m, hm, -, -, ⟨-, -, rfl⟩ | ⟨-, -, rfl⟩ | ⟨-, hclose⟩⟩ := promote_ok h
    · exact .refl _
    · exact .set hm (((Milestone.Continues.refl m).promote _ _).moveTo _)
    · have hpromoted := Continues.set hm ((Milestone.Continues.refl m).promote s ids)
      obtain ⟨m₁, hm₁, ⟨rfl, -⟩ | ⟨m', hcloses, hrefresh⟩⟩ := closeNode_ok hclose
      · exact hpromoted
      · exact (hpromoted.trans (.set hm₁ hcloses.continues)).refreshes hrefresh
  | integrateCandidate id c head strategy =>
    obtain ⟨m, hm, -, -, -, -, ⟨-, rfl⟩ | ⟨i, -, -, rfl⟩⟩ := integrate_ok h
    · exact .set hm (Milestone.Continues.refl m).of_rows
    · exact .refl _
  | requireReplan reason | requireHumanAttention reason =>
    rw [← pure_eq_ok.1 h]
    exact (Continues.refl P).inState _
  | acknowledgeOnly =>
    rw [← pure_eq_ok.1 h]
    exact .refl P

/-- What every action keeps, the actions of a bundle keep, in their order. -/
theorem applyActions_induction {J : Program → Prop} {actions : List ProgramAction}
    (hstep : ∀ action ∈ actions, ∀ P P', J P →
      P.applyAction digests queue trunkHead now action = .ok P' → J P')
    (h : actions.foldlM (Program.applyAction digests queue trunkHead now) P = .ok P')
    (hJ : J P) : J P' := by
  induction actions generalizing P with
  | nil =>
    rw [← pure_eq_ok.1 h]
    exact hJ
  | cons action actions ih =>
    rw [List.foldlM_cons, bind_eq_ok] at h
    obtain ⟨P₁, hP₁, h⟩ := h
    exact ih (fun a ha => hstep a (List.mem_cons_of_mem _ ha)) h
      (hstep action List.mem_cons_self P P₁ hJ hP₁)

theorem actionEffects_continues {b : ProgramBundle}
    (h : P.actionEffects digests queue b now = .ok P') : P.Continues P' := by
  simp only [actionEffects, bind_eq_ok] at h
  obtain ⟨-, -, h⟩ := h
  exact applyActions_induction (J := P.Continues)
    (fun _ _ _ _ hJ haction => hJ.trans (applyAction_continues haction)) h (.refl P)

/-- The actions of a bundle never advance the revision. -/
theorem applyAction_revision {action : ProgramAction}
    (h : P.applyAction digests queue trunkHead now action = .ok P') : P'.revision = P.revision := by
  cases action with
  | startReadyMilestones ids =>
    obtain ⟨rfl, -⟩ := startReadyMilestones_ok h
    rfl
  | startReviews id s roles =>
    obtain ⟨m, -, -, -, -, -, rfl⟩ := startReviews_ok h
    rfl
  | requestRepair id s findings =>
    obtain ⟨m, -, -, -, -, -, rfl⟩ := requestRepair_ok h
    rfl
  | resolveCandidateBlocker id c gate resolution =>
    obtain ⟨m, -, -, -, -, -, rfl⟩ := resolve_ok h
    rfl
  | promoteCandidate id s ids =>
    obtain ⟨m, -, -, -, ⟨-, -, rfl⟩ | ⟨-, -, rfl⟩ | ⟨-, hclose⟩⟩ := promote_ok h
    · rfl
    · rfl
    · obtain ⟨m₁, -, ⟨rfl, -⟩ | ⟨m', -, hrefresh⟩⟩ := closeNode_ok hclose
      · rfl
      · obtain ⟨-, ⟨rfl, -⟩ | rfl⟩ | ⟨-, rfl⟩ := hrefresh.result <;> rfl
  | integrateCandidate id c head strategy =>
    obtain ⟨m, -, -, -, -, -, ⟨-, rfl⟩ | ⟨i, -, -, rfl⟩⟩ := integrate_ok h <;> rfl
  | requireReplan reason | requireHumanAttention reason =>
    rw [← pure_eq_ok.1 h]
    rfl
  | acknowledgeOnly => rw [← pure_eq_ok.1 h]

theorem commitActions_continues {b : ProgramBundle}
    (h : P.commitActions digests queue b now = .ok P') :
    P.Continues P' ∧ P'.revision = P.revision + 1 := by
  simp only [commitActions, bind_eq_ok, pure_eq_ok] at h
  obtain ⟨P₁, hP₁, rfl⟩ := h
  refine ⟨(actionEffects_continues hP₁).of_row ?_, rfl⟩
  simp only [actionEffects, bind_eq_ok] at hP₁
  obtain ⟨-, -, hactions⟩ := hP₁
  have hsame : P₁.revision = P.revision := applyActions_induction
    (J := fun Q => Q.revision = P.revision)
    (fun _ _ _ _ hJ haction => (applyAction_revision haction).trans hJ) hactions rfl
  omega

theorem recordActionEffect_continues {actionId effectId : String} {b : ProgramBundle}
    {state : EffectState} {isNew : Bool}
    (h : P.recordActionEffect actionId effectId b state = .ok (P', isNew)) : P.Continues P' := by
  obtain rfl | ⟨id, m, hm, rfl | rfl⟩ := recordActionEffect_ok h
  · exact .refl _
  · exact .set hm ((Milestone.Continues.refl m).recordFact _)
  · exact (Continues.set hm ((Milestone.Continues.refl m).recordFact _)).inState _

end CodexFlow.Programs
