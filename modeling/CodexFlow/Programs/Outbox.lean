import CodexFlow.Programs.Frames
import Mathlib

/-!
# The integrations of a program

The rows of the integration outbox, what each call and each action does to them, and the receipts
of those that were applied.
-/

namespace CodexFlow.Programs

open Ledger (Time)
open Checked

variable {digests : Digests} {P P' : Program} {m m' : Milestone} {id : String} {now : Time}
  {event : Option NewEvent}

/-! ### Receipts -/

def Integration.appliedReceipt? (i : Integration) : Option IntegrationReceipt :=
  (i.ended.filter (·.state = .applied)).map (·.receipt)

theorem Integration.appliedReceipt?_ended (i : Integration) (e : IntegrationEnd) :
    { i with ended := some e }.appliedReceipt? =
      if e.state = .applied then some e.receipt else none := by
  by_cases h : e.state = .applied <;> simp [appliedReceipt?, Option.filter, h]

def Milestone.applied (m : Milestone) : List IntegrationReceipt :=
  m.integrations.filterMap (·.appliedReceipt?)

def Program.applied (P : Program) : List IntegrationReceipt :=
  P.milestones.entries.flatMap fun entry => entry.2.applied

/-! ### Rows of an outbox -/

def Milestone.OutboxKeyed (m : Milestone) : Prop := (m.integrations.map (·.candidateSha)).Nodup

namespace Milestone

def SameOutbox (m m' : Milestone) : Prop :=
  m'.node = m.node ∧ m'.integrations = m.integrations

theorem integrationOf_spec {c : String} {i : Integration} (h : m.integrationOf c = some i) :
    i ∈ m.integrations ∧ i.candidateSha = c :=
  ⟨List.mem_of_find?_eq_some h, by simpa using List.find?_some h⟩

theorem integrationOf_none {c : String} (h : m.integrationOf c = none) :
    c ∉ m.integrations.map (·.candidateSha) := by
  intro hmem
  obtain ⟨i, hi, rfl⟩ := List.mem_map.1 hmem
  have hne := List.find?_eq_none.1 h i hi
  simp at hne

theorem OutboxKeyed.add (h : m.OutboxKeyed) {i : Integration}
    (hnone : m.integrationOf i.candidateSha = none) : (m.addIntegration i).OutboxKeyed := by
  show ((m.integrations ++ [i]).map _).Nodup
  rw [List.map_append, List.map_singleton, ← List.concat_eq_append, List.nodup_concat]
  exact ⟨integrationOf_none hnone, h⟩

theorem setIntegration_keys (i : Integration) :
    (m.setIntegration i).integrations.map (·.candidateSha) =
      m.integrations.map (·.candidateSha) := by
  show ((m.integrations.map _).map _) = _
  rw [List.map_map]
  refine List.map_congr_left fun j _ => ?_
  simp only [Function.comp_apply]
  split_ifs with hj
  · exact hj.symm
  · rfl

theorem OutboxKeyed.set (h : m.OutboxKeyed) (i : Integration) :
    (m.setIntegration i).OutboxKeyed := by
  unfold OutboxKeyed
  rw [setIntegration_keys]
  exact h

/-- The integrations around that of a candidate, and once it is replaced. -/
theorem OutboxKeyed.split (h : m.OutboxKeyed) {c : String} {i : Integration}
    (hi : m.integrationOf c = some i) :
    ∃ before after, m.integrations = before ++ i :: after ∧
      ∀ j : Integration, j.candidateSha = i.candidateSha →
        (m.setIntegration j).integrations = before ++ j :: after := by
  obtain ⟨before, after, hsplit⟩ := List.append_of_mem (integrationOf_spec hi).1
  have hnodup := h
  unfold OutboxKeyed at hnodup
  rw [hsplit, List.map_append, List.map_cons] at hnodup
  have hbefore : ∀ k ∈ before, k.candidateSha ≠ i.candidateSha := by
    intro k hk heq
    exact (List.nodup_append.1 hnodup).2.2 _ (List.mem_map_of_mem hk) _ List.mem_cons_self heq
  have hafter : ∀ k ∈ after, k.candidateSha ≠ i.candidateSha := by
    intro k hk heq
    exact (List.nodup_cons.1 (List.nodup_append.1 hnodup).2.1).1 (List.mem_map.2 ⟨k, hk, heq⟩)
  refine ⟨before, after, hsplit, fun j hj => ?_⟩
  have hkeep : ∀ l : List Integration, (∀ k ∈ l, k.candidateSha ≠ i.candidateSha) →
      l.map (fun k => if k.candidateSha = j.candidateSha then j else k) = l := by
    intro l hl
    exact (List.map_congr_left fun k hk => if_neg (hj ▸ hl k hk)).trans (List.map_id _)
  show m.integrations.map _ = _
  rw [hsplit, List.map_append, List.map_cons, hkeep before hbefore, hkeep after hafter,
    if_pos hj.symm]

end Milestone

namespace Program

theorem applied_set (hm : P.milestones.get? id = some m) (m' : Milestone) :
    ((P.setMilestone id m').applied ++ m.applied).Perm (P.applied ++ m'.applied) := by
  obtain ⟨before, after, hsplit, hset⟩ := Table.exists_split hm
  unfold applied
  rw [setMilestone_milestones, hset, hsplit]
  simp only [List.flatMap_append, List.flatMap_cons, List.append_assoc]
  rw [List.perm_iff_count]
  intro r
  simp only [List.count_append]
  omega

/-! ### What a step does to the outbox -/

def integrationRows (P : Program) : List (String × Bool × List Integration) :=
  P.milestones.entries.map fun entry => (entry.1, entry.2.node.outcome.isGit, entry.2.integrations)

theorem rows_congr (hm : P.milestones.get? id = some m) {m₁ m₂ : Milestone}
    (h : m₁.SameOutbox m₂) :
    (P.setMilestone id m₂).integrationRows = (P.setMilestone id m₁).integrationRows := by
  obtain ⟨before, after, hsplit, hset⟩ := Table.exists_split hm
  unfold integrationRows
  rw [setMilestone_milestones, setMilestone_milestones, hset, hset, List.map_append,
    List.map_append, List.map_cons, List.map_cons, h.1, h.2]

theorem rows_set (hm : P.milestones.get? id = some m) (h : m.SameOutbox m') :
    (P.setMilestone id m').integrationRows = P.integrationRows := by
  rw [rows_congr hm h]
  unfold integrationRows
  rw [setMilestone_milestones, Table.set_self hm]

theorem applied_congr (h : P'.integrationRows = P.integrationRows) : P'.applied = P.applied := by
  have hrows : ∀ Q : Program, Q.applied =
      Q.integrationRows.flatMap fun entry => entry.2.2.filterMap (·.appliedReceipt?) := by
    intro Q
    unfold applied integrationRows
    rw [List.flatMap_map]
    rfl
  rw [hrows, hrows, h]

/-- A milestone has one integration for a candidate, and only that of a Git node has any. -/
def OutboxKept (P : Program) : Prop :=
  ∀ row ∈ P.integrationRows, (row.2.2.map (·.candidateSha)).Nodup ∧ (row.2.2 ≠ [] → row.2.1)

theorem OutboxKept.milestone (h : P.OutboxKept) (hm : P.milestones.get? id = some m) :
    m.OutboxKeyed ∧ (m.integrations ≠ [] → m.node.outcome.isGit) :=
  h _ (List.mem_map.2 ⟨(id, m), Table.get?_eq_some.1 hm, rfl⟩)

theorem mem_rows_set (hm : P.milestones.get? id = some m) {row : String × Bool × List Integration}
    (hrow : row ∈ (P.setMilestone id m').integrationRows) :
    row ∈ P.integrationRows ∨ row = (id, m'.node.outcome.isGit, m'.integrations) := by
  obtain ⟨before, after, hsplit, hset⟩ := Table.exists_split hm
  unfold integrationRows at hrow
  rw [setMilestone_milestones, hset] at hrow
  obtain ⟨entry, hentry, rfl⟩ := List.mem_map.1 hrow
  obtain hentry | hentry := List.mem_append.1 hentry
  · exact .inl (List.mem_map.2 ⟨entry, hsplit ▸ List.mem_append_left _ hentry, rfl⟩)
  · obtain rfl | hentry := List.mem_cons.1 hentry
    · exact .inr rfl
    · exact .inl (List.mem_map.2
        ⟨entry, hsplit ▸ List.mem_append_right _ (List.mem_cons_of_mem _ hentry), rfl⟩)

theorem OutboxKept.set (h : P.OutboxKept) (hm : P.milestones.get? id = some m)
    (hkeyed : m'.OutboxKeyed) (hgit : m'.integrations ≠ [] → m'.node.outcome.isGit) :
    (P.setMilestone id m').OutboxKept := by
  intro row hrow
  obtain hold | rfl := mem_rows_set hm hrow
  · exact h row hold
  · exact ⟨hkeyed, hgit⟩

/-- What a step can do to the integrations and to the trunk of a program. -/
inductive TrunkStep (P P' : Program) : Prop
  | keeps (hrows : P'.integrationRows = P.integrationRows) (htrunk : P'.trunkHead = P.trunkHead)
  | abandons (id : String) (m : Milestone) (i : Integration) (ended : IntegrationEnd)
      (hm : P.milestones.get? id = some m) (hi : m.integrationOf i.candidateSha = some i)
      (hpending : i.ended = none) (hstate : ended.state ≠ .applied)
      (hcheck : ended.receipt.check P id i ended.state = .ok ())
      (hrows : P'.integrationRows = (P.setMilestone id
        (m.setIntegration { i with ended := some ended })).integrationRows)
      (htrunk : P'.trunkHead = P.trunkHead)
  | applies (id : String) (m : Milestone) (i : Integration) (ended : IntegrationEnd)
      (hm : P.milestones.get? id = some m) (hi : m.integrationOf i.candidateSha = some i)
      (hpending : i.ended = none) (hstate : ended.state = .applied)
      (hcheck : ended.receipt.check P id i ended.state = .ok ())
      (hhead : ended.receipt.beforeTrunkHead = P.trunkHead)
      (hafter : ended.receipt.afterTrunkHead = some P'.trunkHead)
      (hrows : P'.integrationRows = (P.setMilestone id
        (m.setIntegration { i with ended := some ended })).integrationRows)

theorem Refreshes.outbox {advanceRevision : Bool} (h : P.Refreshes advanceRevision now P') :
    P'.integrationRows = P.integrationRows ∧ P'.trunkHead = P.trunkHead := by
  obtain ⟨-, ⟨rfl, -⟩ | rfl⟩ | ⟨-, rfl⟩ := h.result <;> exact ⟨rfl, rfl⟩

end Program

/-! ### Milestones that keep their integrations -/

namespace Milestone

theorem SameOutbox.of_rows (h : m.Continues m') (hrows : m'.integrations = m.integrations) :
    m.SameOutbox m' := ⟨h.node, hrows⟩

@[simp] theorem recordFact_integrations (fact : Fact) :
    (m.recordFact fact).integrations = m.integrations := rfl

@[simp] theorem moveTo_integrations (s : WorkflowState) :
    (m.moveTo s).integrations = m.integrations := rfl

@[simp] theorem supersede_integrations (predecessor : Option String) (commit : String)
    (dispatchId : Option DispatchValue) :
    (m.supersede predecessor commit dispatchId).integrations = m.integrations := by
  unfold supersede
  split <;> rfl

@[simp] theorem promote_integrations (s : Subject) (ids : List String) :
    (m.promote s ids).integrations = m.integrations := by
  unfold promote
  split_ifs <;> rfl

end Milestone

namespace Program

theorem Adopts.outbox {q : Adoption} {commit : String}
    (h : P.Adopts digests id q commit now m m') : m.SameOutbox m' := by
  refine .of_rows h.continues ?_
  obtain ⟨predecessor, moved, adopted, dispatchId, -, hmoved, hadopted, rfl⟩ := h.result
  have hmove : moved.integrations = m.integrations := by
    obtain ⟨-, -, hlaunch, -⟩ | ⟨-, hleave, -⟩ := hmoved
    · obtain ⟨-, dispatches, rfl, -⟩ := Milestone.launchAdopted_ok hlaunch
      rfl
    · obtain ⟨rfl, -⟩ | ⟨-, -, rfl⟩ := Milestone.leaveFor_ok hleave <;> rfl
  rw [Milestone.supersede_integrations]
  obtain rfl | ⟨-, r, rfl⟩ := Milestone.adoptOutcome_ok hadopted <;> exact hmove

theorem Reports.outbox {q : ExecutorResult} (h : Reports q m m') : m.SameOutbox m' := by
  refine .of_rows h.continues ?_
  obtain ⟨closed, predecessor, hclosed, -, rfl⟩ := h.result
  have hclose : closed.integrations = m.integrations := by
    obtain ⟨-, rfl⟩ | ⟨-, rfl, -⟩ := Milestone.closeExecution_ok hclosed <;> rfl
  simpa [Milestone.recordResult] using hclose

theorem Evidences.outbox {q : EvidenceResult} (h : P.Evidences digests id q now m m') :
    m.SameOutbox m' := by
  refine .of_rows h.continues ?_
  obtain ⟨recorded, hrecorded, -, rfl⟩ := h.result
  rw [recordManifest_keeps hrecorded]
  rfl

theorem Invalidates.outbox {evidenceSha256 reason : String}
    (h : Invalidates evidenceSha256 reason m m') : m.SameOutbox m' := by
  refine .of_rows h.continues ?_
  rw [h.result]
  split_ifs <;> rfl

theorem Closes.outbox {q : Closure} (h : P.Closes digests id q now m m') :
    m.SameOutbox m' := by
  refine .of_rows h.continues ?_
  obtain ⟨closed, hclosed, rfl⟩ := h.closed
  rw [Milestone.moveTo_integrations, Milestone.promote_integrations, closeOutcome_state hclosed]

theorem TrunkStep.of_set (hm : P.milestones.get? id = some m)
    (hset : P'.milestones = (P.setMilestone id m').milestones) (htrunk : P'.trunkHead = P.trunkHead)
    (h : m.SameOutbox m') : TrunkStep P P' := by
  refine .keeps ?_ htrunk
  rw [← rows_set hm h]
  unfold integrationRows
  rw [hset]

theorem TrunkStep.refreshes {advanceRevision : Bool} (hm : P.milestones.get? id = some m)
    (h : m.SameOutbox m')
    (hrefresh : (P.setMilestone id m').Refreshes advanceRevision now P') : TrunkStep P P' :=
  .keeps (hrefresh.outbox.1.trans (rows_set hm h)) hrefresh.outbox.2

theorem run_trunk {call : Call} (h : P.run digests now call = .ok (P', event)) :
    TrunkStep P P' := by
  cases call with
  | start key =>
    obtain ⟨-, -, rfl⟩ := start_ok h
    split_ifs <;> exact .keeps rfl rfl
  | attention key =>
    rw [attention_ok h]
    split_ifs <;> exact .keeps rfl rfl
  | recordCandidate id c =>
    obtain ⟨-, ⟨rfl, -⟩ | ⟨m, hm, ⟨rfl, -⟩ | ⟨-, rfl, -⟩⟩⟩ := recordCandidate_ok h
    · exact .keeps rfl rfl
    · exact .keeps rfl rfl
    · exact .of_set hm rfl rfl ⟨rfl, rfl⟩
  | adopt id q =>
    obtain ⟨commit, m, -, hm, -, ⟨rfl, -⟩ | ⟨m', hadopts, rfl, -⟩⟩ := adopt_ok h
    · exact .keeps rfl rfl
    · exact .of_set hm rfl rfl hadopts.outbox
  | executorResult id q =>
    obtain ⟨m, hm, -, ⟨rfl, -⟩ | ⟨m', hreports, rfl | rfl⟩⟩ := executorResult_ok h
    · exact .keeps rfl rfl
    all_goals exact .of_set hm rfl rfl hreports.outbox
  | controlResult id =>
    exact absurd h controlResult_ne_ok
  | reconcile id q =>
    obtain ⟨m, hm, -, ⟨rfl, -⟩ | ⟨m', hreconciles, rfl⟩⟩ := reconcile_ok h
    · exact .keeps rfl rfl
    · exact .of_set hm rfl rfl ⟨by rw [hreconciles.result]; rfl, by rw [hreconciles.result]; rfl⟩
  | runtimeEvidence id q queue =>
    obtain ⟨m, hm, -, ⟨-, m', hrecorded, rfl⟩ | ⟨m', hevidences, rfl | rfl⟩⟩ :=
      runtimeEvidence_ok h
    · exact .of_set hm rfl rfl (.of_rows (recordManifest_continues hrecorded)
        (by rw [recordManifest_keeps hrecorded]))
    all_goals exact .of_set hm rfl rfl hevidences.outbox
  | invalidateEvidence id e reason =>
    obtain ⟨m, hm, -, ⟨rfl, -⟩ | ⟨m', hinvalidates, rfl⟩⟩ := invalidate_ok h
    · exact .keeps rfl rfl
    · split_ifs <;> exact .of_set hm rfl rfl hinvalidates.outbox
  | closeNode id q =>
    obtain ⟨m, hm, ⟨rfl, -⟩ | ⟨m', hcloses, hrefresh⟩⟩ := closeNode_ok (closeProgramNode_ok h).2
    · exact .keeps rfl rfl
    · exact .refreshes hm hcloses.outbox hrefresh
  | review id q =>
    obtain ⟨m, hm, -, -, ⟨rfl, -⟩ | rfl⟩ := review_ok h
    · exact .keeps rfl rfl
    · exact .of_set hm rfl rfl ⟨rfl, rfl⟩
  | integration id c r state =>
    obtain ⟨m, i, hm, hi, hcheck, -, ⟨rfl, -⟩ | ⟨-, m', after, h, hrefresh⟩ | ⟨hstate, hpending, rfl⟩⟩ :=
      integration_ok h
    · exact .keeps rfl rfl
    all_goals
      have hcandidate := (Milestone.integrationOf_spec hi).2
      rw [← hcandidate] at hi
    · simp only [IntegrationReceipt.check, checks_ok] at hcheck
      have htrunk : after = P'.trunkHead := hrefresh.outbox.2.symm
      refine .applies id m i ⟨.applied, r, now⟩ hm hi h.pending rfl h.check ?_ (htrunk ▸ h.head) ?_
      · exact hcheck.2.1.trans h.trunk.symm
      · refine hrefresh.outbox.1.trans ?_
        exact rows_congr hm ⟨by rw [h.result]; rfl, by rw [h.result]; rfl⟩
    · exact .abandons id m i ⟨state, r, now⟩ hm hi hpending hstate hcheck rfl rfl
  | claimDispatch id role =>
    obtain ⟨m, hm, ⟨rfl, -⟩ | ⟨-, rfl⟩⟩ := claimDispatch_ok (silently_ok h)
    · exact .keeps rfl rfl
    · exact .of_set hm rfl rfl ⟨rfl, rfl⟩
  | claimReview id role generation =>
    obtain ⟨-, m, hm, ⟨rfl, -⟩ | ⟨-, rfl⟩⟩ := claimReview_ok (silently_ok h)
    · exact .keeps rfl rfl
    · exact .of_set hm rfl rfl ⟨rfl, rfl⟩
  | claimRepair id generation =>
    obtain ⟨m, hm, ⟨rfl, -⟩ | ⟨-, -, -, rfl⟩⟩ := claimRepair_ok (silently_ok h)
    · exact .keeps rfl rfl
    · exact .of_set hm rfl rfl ⟨rfl, rfl⟩
  | move id target expected =>
    obtain ⟨m, hm, -, rfl⟩ := moveMilestone_ok (silently_ok h)
    exact .of_set hm rfl rfl ⟨rfl, rfl⟩

/-! ### Bundles -/

variable {queue : QueueStates} {trunkHead : String}

/-- What an action does to the outbox: an integration adds a row or finds one, and no other action
changes any. -/
inductive Authorizes (trunkHead : String) (now : Time) (P : Program) : ProgramAction → Program → Prop
  | other {action : ProgramAction} {P' : Program}
      (hrows : P'.integrationRows = P.integrationRows) (htrunk : P'.trunkHead = P.trunkHead) :
    Authorizes trunkHead now P action P'
  | again (id c : String) (strategy : IntegrationStrategy) (m : Milestone) (i : Integration)
      (hm : P.milestones.get? id = some m) (hi : m.integrationOf c = some i)
      (hpending : i.ended = none) :
    Authorizes trunkHead now P (.integrateCandidate id c trunkHead strategy) P
  | adds (id c : String) (strategy : IntegrationStrategy) (m : Milestone)
      (hm : P.milestones.get? id = some m) (hnone : m.integrationOf c = none)
      (hgit : m.node.outcome.isGit) :
    Authorizes trunkHead now P (.integrateCandidate id c trunkHead strategy)
      (P.setMilestone id (m.addIntegration ⟨c, trunkHead, strategy, now, none⟩))

theorem applyAction_outbox {action : ProgramAction}
    (h : P.applyAction digests queue trunkHead now action = .ok P') :
    P.Authorizes trunkHead now action P' := by
  cases action with
  | startReadyMilestones ids =>
    obtain ⟨rfl, -⟩ := startReadyMilestones_ok h
    exact .other rfl rfl
  | startReviews id s roles =>
    obtain ⟨m, hm, -, -, -, -, rfl⟩ := startReviews_ok h
    exact .other (rows_set hm ⟨rfl, rfl⟩) rfl
  | requestRepair id s findings =>
    obtain ⟨m, hm, -, -, -, -, rfl⟩ := requestRepair_ok h
    exact .other (rows_set hm ⟨rfl, rfl⟩) rfl
  | resolveCandidateBlocker id c gate resolution =>
    obtain ⟨m, -, hm, -, -, -, rfl⟩ := resolve_ok h
    exact .other (rows_set hm ⟨rfl, rfl⟩) rfl
  | promoteCandidate id s ids =>
    have hpromoted : ∀ m : Milestone, m.SameOutbox (m.promote s ids) :=
      fun m => .of_rows ((Milestone.Continues.refl m).promote s ids)
        (Milestone.promote_integrations s ids)
    obtain ⟨m, hm, -, -, ⟨-, -, rfl⟩ | ⟨-, -, rfl⟩ | ⟨-, hclose⟩⟩ := promote_ok h
    · exact .other rfl rfl
    · exact .other (rows_set hm (hpromoted m)) rfl
    · obtain ⟨m₁, hm₁, ⟨rfl, -⟩ | ⟨m', hcloses, hrefresh⟩⟩ := closeNode_ok hclose
      · exact .other (rows_set hm (hpromoted m)) rfl
      · refine .other ?_ hrefresh.outbox.2
        calc P'.integrationRows
            = _ := hrefresh.outbox.1
          _ = _ := rows_set hm₁ hcloses.outbox
          _ = P.integrationRows := rows_set hm (hpromoted m)
  | integrateCandidate id c head strategy =>
    obtain ⟨m, hm, -, rfl, hgit, -, ⟨hnone, rfl⟩ | ⟨i, hi, hpending, rfl⟩⟩ := integrate_ok h
    · exact .adds id c strategy m hm hnone hgit
    · exact .again id c strategy m i hm hi hpending
  | requireReplan | requireHumanAttention | acknowledgeOnly =>
    rw [← pure_eq_ok.1 h]
    exact .other rfl rfl

theorem Authorizes.trunk {action : ProgramAction} (h : P.Authorizes trunkHead now action P') :
    P'.trunkHead = P.trunkHead := by
  cases h with
  | other _ htrunk => exact htrunk
  | again | adds => rfl

theorem Authorizes.applied {action : ProgramAction} (h : P.Authorizes trunkHead now action P') :
    P'.applied.Perm P.applied := by
  cases h with
  | other hrows => exact .of_eq (applied_congr hrows)
  | again => exact .refl _
  | adds id c strategy m hm hnone hgit =>
    refine (List.perm_append_right_iff m.applied).1 ((applied_set hm _).trans (.of_eq ?_))
    show P.applied ++ (m.integrations ++ [_]).filterMap _ = P.applied ++ m.integrations.filterMap _
    rw [List.filterMap_append]
    exact congrArg _ (List.append_nil _)

theorem commitActions_applied {b : ProgramBundle}
    (h : P.commitActions digests queue b now = .ok P') :
    P'.trunkHead = P.trunkHead ∧ P'.applied.Perm P.applied := by
  simp only [commitActions, actionEffects, bind_eq_ok, pure_eq_ok] at h
  obtain ⟨P₁, ⟨-, -, hactions⟩, rfl⟩ := h
  have hkept : P₁.trunkHead = P.trunkHead ∧ P₁.applied.Perm P.applied := applyActions_induction
    (J := fun Q => Q.trunkHead = P.trunkHead ∧ Q.applied.Perm P.applied)
    (fun _ _ _ _ hJ haction =>
      ⟨(applyAction_outbox haction).trunk.trans hJ.1, (applyAction_outbox haction).applied.trans hJ.2⟩)
    hactions ⟨rfl, .refl _⟩
  exact hkept

/-! ### What the outbox keeps -/

theorem OutboxKept.congr (h : P.OutboxKept) (hrows : P'.integrationRows = P.integrationRows) :
    P'.OutboxKept := by
  unfold OutboxKept
  rw [hrows]
  exact h

theorem OutboxKept.setIntegration (h : P.OutboxKept) {c : String} {i : Integration}
    (hm : P.milestones.get? id = some m) (hi : m.integrationOf c = some i) (j : Integration) :
    (P.setMilestone id (m.setIntegration j)).OutboxKept :=
  h.set hm ((h.milestone hm).1.set j)
    fun _ => (h.milestone hm).2 (List.ne_nil_of_mem (Milestone.integrationOf_spec hi).1)

theorem OutboxKept.trunkStep (h : P.OutboxKept) (hstep : P.TrunkStep P') : P'.OutboxKept := by
  cases hstep with
  | keeps hrows htrunk => exact h.congr hrows
  | abandons _ _ _ _ hm hi _ _ _ hrows | applies _ _ _ _ hm hi _ _ _ _ _ hrows =>
    exact (h.setIntegration hm hi _).congr hrows

theorem OutboxKept.authorizes {action : ProgramAction} (h : P.OutboxKept)
    (hstep : P.Authorizes trunkHead now action P') : P'.OutboxKept := by
  cases hstep with
  | other hrows => exact h.congr hrows
  | again => exact h
  | adds id c strategy m hm hnone hgit => exact h.set hm ((h.milestone hm).1.add hnone) fun _ => hgit

/-- A step of the outbox applies no receipt, or one that starts at the trunk and moves it. -/
theorem TrunkStep.applied (h : P.TrunkStep P') (hkept : P.OutboxKept) :
    P'.trunkHead = P.trunkHead ∧ P'.applied.Perm P.applied ∨
      ∃ r, r.beforeTrunkHead = P.trunkHead ∧ r.afterTrunkHead = some P'.trunkHead ∧
        P'.applied.Perm (r :: P.applied) := by
  have hset : ∀ {id : String} {m : Milestone} {i : Integration} {ended : IntegrationEnd},
      P.milestones.get? id = some m → m.integrationOf i.candidateSha = some i → i.ended = none →
      P'.integrationRows = (P.setMilestone id
        (m.setIntegration { i with ended := some ended })).integrationRows →
      P'.applied.Perm ((if ended.state = .applied then [ended.receipt] else []) ++ P.applied) := by
    intro id m i ended hm hi hpending hrows
    rw [applied_congr hrows]
    obtain ⟨before, after, hsplit, hreplaced⟩ := (hkept.milestone hm).1.split hi
    have hold : m.applied = before.filterMap (·.appliedReceipt?) ++
        after.filterMap (·.appliedReceipt?) := by
      have hnone : i.appliedReceipt? = none := by simp [Integration.appliedReceipt?, hpending]
      unfold Milestone.applied
      rw [hsplit, List.filterMap_append, List.filterMap_cons, hnone]
    have hnew : (m.setIntegration { i with ended := some ended }).applied =
        before.filterMap (·.appliedReceipt?) ++
          ((if ended.state = .applied then [ended.receipt] else []) ++
            after.filterMap (·.appliedReceipt?)) := by
      unfold Milestone.applied
      rw [hreplaced { i with ended := some ended } rfl, List.filterMap_append, List.filterMap_cons,
        Integration.appliedReceipt?_ended]
      by_cases hstate : ended.state = .applied <;> simp only [hstate, if_true, if_false] <;> rfl
    have hperm := applied_set hm (m.setIntegration { i with ended := some ended })
    rw [hold, hnew, List.perm_iff_count] at hperm
    rw [List.perm_iff_count]
    intro r
    have hcount := hperm r
    simp only [List.count_append] at hcount ⊢
    omega
  cases h with
  | keeps hrows htrunk => exact .inl ⟨htrunk, .of_eq (applied_congr hrows)⟩
  | abandons id m i ended hm hi hpending hstate hcheck hrows htrunk =>
    have hperm := hset hm hi hpending hrows
    rw [if_neg hstate] at hperm
    exact .inl ⟨htrunk, hperm⟩
  | applies id m i ended hm hi hpending hstate hcheck hhead hafter hrows =>
    have hperm := hset hm hi hpending hrows
    rw [if_pos hstate] at hperm
    exact .inr ⟨ended.receipt, hhead, hafter, hperm⟩

/-! ### Receipts of what has ended -/

/-- An integration that has ended has a receipt of what was authorized. -/
def EndsChecked (P : Program) : Prop :=
  ∀ row ∈ P.integrationRows, ∀ i ∈ row.2.2, ∀ e, i.ended = some e →
    e.receipt.check P row.1 i e.state = .ok ()

theorem check_congr (h : P'.programId = P.programId) (r : IntegrationReceipt) (i : Integration)
    (state : IntegrationState) : r.check P' id i state = r.check P id i state := by
  unfold IntegrationReceipt.check
  rw [h]

theorem EndsChecked.congr (h : P.EndsChecked) (hid : P'.programId = P.programId)
    (hrows : P'.integrationRows = P.integrationRows) : P'.EndsChecked := by
  intro row hrow i hi e he
  rw [hrows] at hrow
  rw [check_congr hid]
  exact h row hrow i hi e he

theorem EndsChecked.milestone (h : P.EndsChecked) (hm : P.milestones.get? id = some m)
    {i : Integration} (hi : i ∈ m.integrations) {e : IntegrationEnd} (he : i.ended = some e) :
    e.receipt.check P id i e.state = .ok () :=
  h _ (List.mem_map.2 ⟨(id, m), Table.get?_eq_some.1 hm, rfl⟩) i hi e he

theorem EndsChecked.set (h : P.EndsChecked) (hm : P.milestones.get? id = some m)
    (hends : ∀ i ∈ m'.integrations, ∀ e, i.ended = some e →
      e.receipt.check P id i e.state = .ok ()) : (P.setMilestone id m').EndsChecked := by
  intro row hrow i hi e he
  refine (check_congr (P := P) rfl e.receipt i e.state).trans ?_
  obtain hold | rfl := mem_rows_set hm hrow
  · exact h row hold i hi e he
  · exact hends i hi e he

theorem EndsChecked.setEnd (h : P.EndsChecked) (hm : P.milestones.get? id = some m)
    (i : Integration) {ended : IntegrationEnd}
    (hcheck : ended.receipt.check P id i ended.state = .ok ()) :
    (P.setMilestone id (m.setIntegration { i with ended := some ended })).EndsChecked := by
  refine h.set hm fun j hj e he => ?_
  obtain ⟨k, hk, rfl⟩ := List.mem_map.1 hj
  split_ifs at he ⊢
  · obtain rfl : ended = e := Option.some.inj he
    exact hcheck
  · exact h.milestone hm hk he

theorem EndsChecked.trunkStep (h : P.EndsChecked) (hid : P'.programId = P.programId)
    (hstep : P.TrunkStep P') : P'.EndsChecked := by
  cases hstep with
  | keeps hrows htrunk => exact h.congr hid hrows
  | abandons _ _ i _ hm _ _ _ hcheck hrows | applies _ _ i _ hm _ _ _ hcheck _ _ hrows =>
    exact (h.setEnd hm i hcheck).congr hid hrows

theorem EndsChecked.authorizes {action : ProgramAction} (h : P.EndsChecked)
    (hid : P'.programId = P.programId) (hstep : P.Authorizes trunkHead now action P') :
    P'.EndsChecked := by
  cases hstep with
  | other hrows => exact h.congr hid hrows
  | again => exact h
  | adds id c strategy m hm hnone hgit =>
    refine h.set hm fun j hj e he => ?_
    obtain hold | hnew := List.mem_append.1 hj
    · exact h.milestone hm hold he
    · rw [List.mem_singleton.1 hnew] at he
      cases he

end Program

theorem recordActionEffect_trunk {actionId effectId : String} {b : ProgramBundle}
    {state : EffectState} {isNew : Bool}
    (h : P.recordActionEffect actionId effectId b state = .ok (P', isNew)) : P.TrunkStep P' := by
  obtain rfl | ⟨id, m, hm, rfl | rfl⟩ := Program.recordActionEffect_ok h
  · exact .keeps rfl rfl
  all_goals exact .of_set hm rfl rfl ⟨rfl, rfl⟩

theorem commitActions_kept {queue : QueueStates} {b : ProgramBundle} (hkept : P.OutboxKept)
    (h : P.commitActions digests queue b now = .ok P') : P'.OutboxKept := by
  simp only [Program.commitActions, Program.actionEffects, bind_eq_ok, pure_eq_ok] at h
  obtain ⟨P₁, ⟨-, -, hactions⟩, rfl⟩ := h
  have hkept₁ : P₁.OutboxKept := applyActions_induction (J := Program.OutboxKept)
    (fun _ _ _ _ hJ haction => hJ.authorizes (Program.applyAction_outbox haction)) hactions hkept
  exact hkept₁

theorem commitActions_checked {queue : QueueStates} {b : ProgramBundle} (hchecked : P.EndsChecked)
    (h : P.commitActions digests queue b now = .ok P') : P'.EndsChecked := by
  simp only [Program.commitActions, Program.actionEffects, bind_eq_ok, pure_eq_ok] at h
  obtain ⟨P₁, ⟨-, -, hactions⟩, rfl⟩ := h
  have hchecked₁ : P₁.EndsChecked := applyActions_induction (J := Program.EndsChecked)
    (fun _ _ _ _ hJ haction => hJ.authorizes (applyAction_continues haction).programId
      (Program.applyAction_outbox haction)) hactions hchecked
  exact hchecked₁

end CodexFlow.Programs
