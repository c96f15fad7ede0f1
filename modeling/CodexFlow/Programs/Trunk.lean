import CodexFlow.Programs.Outbox
import CodexFlow.Programs.ReviewPhases
import CodexFlow.Programs.Projection
import CodexFlow.Programs.Stages

/-!
# Integrations and the trunk

The trunk of a program moves only with an applied integration, whose receipt starts at the trunk
that it found. An integration is applied at the trunk that it was authorized for, and an accepted
milestone stays accepted.
-/

namespace CodexFlow.Programs

open Ledger (Time)
open Checked

variable {digests : Digests} {P P' : Program} {m m' : Milestone} {id : String} {now : Time}
  {event : Option NewEvent}

/-! ### Receipts in the order of a run -/

/-- Receipts that lead from one trunk to another. -/
def Linked : String → List IntegrationReceipt → String → Prop
  | first, [], last => first = last
  | first, r :: receipts, last =>
    r.beforeTrunkHead = first ∧ ∃ after, r.afterTrunkHead = some after ∧ Linked after receipts last

theorem linked_append {first middle last : String} {receipts receipts' : List IntegrationReceipt}
    (h : Linked first receipts middle) (h' : Linked middle receipts' last) :
    Linked first (receipts ++ receipts') last := by
  induction receipts generalizing first with
  | nil =>
    obtain rfl : first = middle := h
    exact h'
  | cons r receipts ih =>
    obtain ⟨hbefore, after, hafter, hrest⟩ := h
    exact ⟨hbefore, after, hafter, ih hrest⟩

theorem diff_of_perm_append {receipts l l' : List IntegrationReceipt}
    (h : l'.Perm (receipts ++ l)) : (l'.diff l).Perm receipts := by
  rw [← Multiset.coe_eq_coe, ← Multiset.coe_add] at h
  rw [← Multiset.coe_eq_coe, ← Multiset.coe_sub, h, add_tsub_cancel_right]

namespace System

variable {host : Host} {S S' : System}

/-- The receipts that a step of the machine applied to a program. -/
def newlyApplied (S S' : System) (id : String) : List IntegrationReceipt :=
  match S.programs.get? id, S'.programs.get? id with
  | some P, some P' => P'.applied.diff P.applied
  | _, _ => []

/-- The receipts that a run applied to a program, in the order of its steps. -/
def appliedAlong (host : Host) (id : String) : System → List Op → List IntegrationReceipt
  | _, [] => []
  | S, op :: ops =>
    S.newlyApplied (S.next host op) id ++ appliedAlong host id (S.next host op) ops

theorem next_linked (host : Host) (op : Op) (hP : S.programs.get? id = some P)
    (hkept : P.OutboxKept) :
    ∃ P', (S.next host op).programs.get? id = some P' ∧ P'.OutboxKept ∧
      Linked P.trunkHead (S.newlyApplied (S.next host op) id) P'.trunkHead ∧
      P'.applied.Perm (S.newlyApplied (S.next host op) id ++ P.applied) := by
  obtain ⟨P', hP', hstep⟩ := (next_moves host S op).program_step hP
  refine ⟨P', hP', ?_⟩
  have hnew : S.newlyApplied (S.next host op) id = P'.applied.diff P.applied := by
    unfold newlyApplied
    rw [hP, hP']
  rw [hnew]
  have hlinked : ∀ receipts : List IntegrationReceipt, receipts.length ≤ 1 →
      Linked P.trunkHead receipts P'.trunkHead → P'.applied.Perm (receipts ++ P.applied) →
      Linked P.trunkHead (P'.applied.diff P.applied) P'.trunkHead ∧
        P'.applied.Perm (P'.applied.diff P.applied ++ P.applied) := by
    intro receipts hlength hlinked hperm
    have hdiff : P'.applied.diff P.applied = receipts := by
      have hsame := diff_of_perm_append hperm
      cases receipts with
      | nil => exact List.perm_nil.1 hsame
      | cons r rest =>
        obtain rfl := List.length_eq_zero_iff.1 (Nat.le_zero.1 (Nat.le_of_succ_le_succ hlength))
        exact List.perm_singleton.1 hsame
    rw [hdiff]
    exact ⟨hlinked, hperm⟩
  have htrunk : P.TrunkStep P' → P'.OutboxKept ∧
      Linked P.trunkHead (P'.applied.diff P.applied) P'.trunkHead ∧
        P'.applied.Perm (P'.applied.diff P.applied ++ P.applied) := by
    intro hstep
    refine ⟨hkept.trunkStep hstep, ?_⟩
    obtain ⟨htrunk, hperm⟩ | ⟨r, hbefore, hafter, hperm⟩ := hstep.applied hkept
    · exact hlinked [] (Nat.zero_le _) htrunk.symm hperm
    · exact hlinked [r] (Nat.le_refl _) ⟨hbefore, _, hafter, rfl⟩ hperm
  obtain rfl | ⟨call, now, event, hrun⟩ | ⟨queue, b, now, hcommit⟩ |
    ⟨actionId, effectId, b, state, isNew, heffect⟩ := hstep
  · exact htrunk (.keeps rfl rfl)
  · exact htrunk (Program.run_trunk hrun)
  · obtain ⟨htrunk, hperm⟩ := Program.commitActions_applied hcommit
    exact ⟨commitActions_kept hkept hcommit,
      hlinked [] (Nat.zero_le _) htrunk.symm hperm⟩
  · exact htrunk (recordActionEffect_trunk heffect)

theorem run_linked (host : Host) (ops : List Op) (hP : S.programs.get? id = some P)
    (hkept : P.OutboxKept) :
    ∃ P', (Machine.run (next host) S ops).programs.get? id = some P' ∧
      Linked P.trunkHead (appliedAlong host id S ops) P'.trunkHead ∧
      P'.applied.Perm (appliedAlong host id S ops ++ P.applied) := by
  induction ops generalizing S P with
  | nil => exact ⟨P, hP, rfl, .refl _⟩
  | cons op ops ih =>
    obtain ⟨P₁, hP₁, hkept₁, hlinked, hperm⟩ := next_linked host op hP hkept
    obtain ⟨P', hP', hlinked', hperm'⟩ := ih hP₁ hkept₁
    refine ⟨P', hP', linked_append hlinked hlinked', ?_⟩
    show P'.applied.Perm (_ ++ _ ++ P.applied)
    rw [List.perm_iff_count] at hperm hperm' ⊢
    intro r
    have hcount := hperm r
    have hcount' := hperm' r
    simp only [List.count_append] at hcount hcount' ⊢
    omega

theorem registered_rows {g : ProgramGraph} (h : g.register = .ok P) :
    ∀ row ∈ P.integrationRows, row.2.2 = [] := by
  obtain rfl := register_ok h
  intro row hrow
  obtain ⟨entry, hentry, rfl⟩ := List.mem_map.1 hrow
  obtain ⟨node, -, rfl⟩ := List.mem_map.1 hentry
  rfl

theorem registered_kept {g : ProgramGraph} (h : g.register = .ok P) :
    P.OutboxKept ∧ P.applied = [] ∧ P.trunkHead = P.registeredTrunkHead := by
  have hrows := registered_rows h
  obtain rfl := register_ok h
  refine ⟨fun row hrow => ?_, ?_, rfl⟩
  · rw [hrows row hrow]
    exact ⟨List.nodup_nil, fun hne => absurd rfl hne⟩
  · unfold Program.applied ProgramGraph.program
    rw [List.flatMap_map]
    exact List.flatMap_eq_nil_iff.2 fun entry _ => rfl

/-- The receipts that a run applied link the registered trunk to the current one, and are those of
the outbox. -/
theorem receipts_linked (host : Host) (ops : List Op)
    (hP : (Machine.run (next host) {} ops).programs.get? id = some P) :
    Linked P.registeredTrunkHead (appliedAlong host id {} ops) P.trunkHead ∧
      P.applied.Perm (appliedAlong host id {} ops) := by
  have hfrom : ∀ (ops : List Op) (S : System), S.programs.get? id = none →
      (Machine.run (next host) S ops).programs.get? id = some P →
      Linked P.registeredTrunkHead (appliedAlong host id S ops) P.trunkHead ∧
        P.applied.Perm (appliedAlong host id S ops) := by
    intro ops
    induction ops with
    | nil =>
      intro S hnone hP
      rw [Machine.run_nil, hnone] at hP
      cases hP
    | cons op ops ih =>
      intro S hnone hP
      have hnew : S.newlyApplied (S.next host op) id = [] := by
        unfold newlyApplied
        rw [hnone]
      show Linked _ (_ ++ _) _ ∧ P.applied.Perm (_ ++ _)
      rw [hnew, List.nil_append]
      cases hget : (S.next host op).programs.get? id with
      | none => exact ih (S.next host op) hget hP
      | some Q =>
        obtain ⟨g, -, hregister⟩ := (next_moves host S op).registered hnone hget
        obtain ⟨hkept, hempty, htrunk⟩ := registered_kept hregister
        obtain ⟨P', hP', hlinked, hperm⟩ := run_linked host ops hget hkept
        obtain rfl := Option.some.inj (hP.symm.trans hP')
        obtain ⟨P'', hP'', hcontinues⟩ := run_continues host _ ops id Q hget
        obtain rfl := Option.some.inj (hP'.symm.trans hP'')
        rw [hempty, List.append_nil] at hperm
        rw [hcontinues.registered, ← htrunk]
        exact ⟨hlinked, hperm⟩
  exact hfrom ops {} rfl hP

def sampleReceipt : IntegrationReceipt where
  programId := "run"
  milestoneId := "m1"
  candidateSha := sampleCandidate
  expectedTrunkHead := sampleTrunk
  strategy := .fastForward
  beforeTrunkHead := sampleTrunk
  afterTrunkHead := some sampleCandidate
  parents := some [sampleTrunk]
  tree := some sampleTrunk
  logicalPromotion := false
  linearChain := false
  lineage := none
  rest := ""

/-- The candidate of the executor is reviewed, promoted and integrated. -/
def integratedRun : List Op :=
  executing .git ++
    [.call "run" (reported sampleCandidate .completed 1 none) 3,
      .ledger (.acquireHarness Ledger.nonceSha256 (Ledger.seconds 900) 4) rfl] ++
    dispatched "code-reviewer" ++ finished "code-reviewer" ++
    [.call "run" (.review "m1" codeReview) 10, .call "run" (.move "m1" .reviewing .completed) 10,
      .call "run" (.start "start") 11, claimed startEvent 12,
      submitted (sampleBundle startEvent 1 sampleTrunk
        [.promoteCandidate "m1" (.commit sampleCandidate) ["review-1"],
          .integrateCandidate "m1" sampleCandidate sampleTrunk .fastForward] "first") 13,
      .call "run" (.integration "m1" sampleCandidate sampleReceipt .applied) 14]

theorem integratedRun_applies : ofMilestone integratedRun (fun _ P m =>
    P.trunkHead = sampleCandidate && m.integrations.any (·.ended.isSome) &&
      m.state = .accepted) = true := by
  decide +kernel

theorem integratedRun_linked : ∃ P,
    (Machine.run (next Host.sample) {} integratedRun).programs.get? "run" = some P ∧
      P.trunkHead = sampleCandidate ∧
      Linked P.registeredTrunkHead (appliedAlong Host.sample "run" {} integratedRun) P.trunkHead ∧
      P.applied.Perm (appliedAlong Host.sample "run" {} integratedRun) := by
  obtain ⟨P, m, hP, -, happlies⟩ := exists_of_milestone integratedRun_applies
  exact ⟨P, hP, of_decide_eq_true (Bool.and_eq_true_iff.1 (Bool.and_eq_true_iff.1 happlies).1).1,
    receipts_linked Host.sample integratedRun hP⟩

/-- Every program keeps one integration for a candidate, of Git nodes only, and what has ended has a
receipt of what was authorized. -/
theorem outbox_sound (hS : S.Reachable host) (hP : S.programs.get? id = some P)
    {milestoneId : String} (hm : P.milestones.get? milestoneId = some m) :
    (m.integrations.map (·.candidateSha)).Nodup ∧
      (m.integrations ≠ [] → m.node.outcome.isGit) ∧
      ∀ i ∈ m.integrations, ∀ e, i.ended = some e →
        e.receipt.check P milestoneId i e.state = .ok () := by
  have hsound : P.OutboxKept ∧ P.EndsChecked := by
    refine hS.program (I := fun P => P.OutboxKept ∧ P.EndsChecked) ?_ ?_ ?_ ?_ hP
    · intro g P hg
      refine ⟨(registered_kept hg).1, fun row hrow i hi => ?_⟩
      rw [registered_rows hg row hrow] at hi
      exact (List.not_mem_nil hi).elim
    · intro P P' call now event h hrun
      have hstep := Program.run_trunk hrun
      exact ⟨h.1.trunkStep hstep, h.2.trunkStep (Programs.run_continues hrun).programId hstep⟩
    · intro P P' queue b now h hcommit
      exact ⟨commitActions_kept h.1 hcommit, commitActions_checked h.2 hcommit⟩
    · intro P P' actionId effectId b state isNew h heffect
      have hstep := recordActionEffect_trunk heffect
      exact ⟨h.1.trunkStep hstep,
        h.2.trunkStep (recordActionEffect_continues heffect).programId hstep⟩
  obtain ⟨hkeyed, hgit⟩ := hsound.1.milestone hm
  exact ⟨hkeyed, hgit, fun i hi e he => hsound.2.milestone hm hi he⟩

theorem integratedRun_sound : ∃ P m,
    (Machine.run (next Host.sample) {} integratedRun).programs.get? "run" = some P ∧
      P.milestones.get? "m1" = some m ∧
      ∃ i ∈ m.integrations, ∃ e, i.ended = some e ∧ e.receipt.check P "m1" i e.state = .ok () := by
  obtain ⟨P, m, hP, hm, happlies⟩ := exists_of_milestone integratedRun_applies
  obtain ⟨i, hi, hended⟩ :=
    List.any_eq_true.1 (Bool.and_eq_true_iff.1 (Bool.and_eq_true_iff.1 happlies).1).2
  obtain ⟨e, he⟩ := Option.isSome_iff_exists.1 hended
  obtain ⟨-, -, hchecked⟩ := outbox_sound ⟨integratedRun, rfl⟩ hP hm
  exact ⟨P, m, hP, hm, i, hi, e, he, hchecked i hi e he⟩

/-! ### Acceptance -/

/-- The policy has no edge out of acceptance, and what goes around the policy leaves it alone. -/
theorem step_accepted {act : Act} (h : m.Step digests P id now act m')
    (hstate : m.state = .accepted) : m'.state = .accepted := by
  have hno : ∀ {states : List WorkflowState}, m.state ∈ states → .accepted ∈ states :=
    fun hmem => hstate ▸ hmem
  cases h with
  | rests act m' h => exact h.accepted hstate
  | adopts q commit m' h =>
    obtain ⟨p, moved, adopted, d, -, hmoved, hadopted, rfl⟩ := h.result
    have hsame : moved = m := by
      obtain ⟨-, -, hlaunch, -⟩ | ⟨-, hleave, -⟩ := hmoved
      · exact absurd (hno (Milestone.launchAdopted_ok hlaunch).1) (by decide)
      · obtain ⟨hsame, -⟩ | ⟨hfrom, -⟩ := Milestone.leaveFor_ok hleave
        · exact hsame
        · exact absurd (hno hfrom) (by decide)
    subst hsame
    obtain rfl | ⟨-, r, rfl⟩ := Milestone.adoptOutcome_ok hadopted <;> cases p <;> exact hstate
  | reports q m' h =>
    obtain ⟨closed, p, hclosed, -, rfl⟩ := h.result
    obtain ⟨hfrom, -⟩ | ⟨-, rfl, -⟩ := Milestone.closeExecution_ok hclosed
    · exact absurd (hno hfrom) (by decide)
    · cases p <;> exact hstate
  | reconciles q m' h =>
    rw [h.result]
    obtain hsame | hallowed := h.move
    · exact hsame.symm.trans hstate
    · rw [hstate] at hallowed
      cases hallowed
  | manifests q queue m' _ h =>
    rw [Program.recordManifest_keeps h]
    exact hstate
  | evidences q queue m' h =>
    obtain ⟨recorded, -, hsame | hfrom, rfl⟩ := h.result
    · exact hsame.symm.trans hstate
    · exact absurd (hno hfrom) (by decide)
  | invalidates e reason m' h =>
    rw [h.result, if_neg fun hfrom => absurd (hno hfrom) (by decide)]
    exact hstate
  | integrates c r i after m' hi h =>
    rw [h.result]
    exact hstate
  | repairs s findings hkind hsubject hfrom => exact absurd (hno hfrom) (by decide)
  | promotesClosed => exact (Program.promote_state _ _).trans hstate
  | closes q m' h | promotesAdopted s ids m' _ _ _ h =>
    obtain ⟨closed, -, rfl⟩ := h.closed
    rfl
  | promotes => rfl
  | records | reviews | abandons | resolves | authorizes | affects => exact hstate

theorem Touches.accepted {op : Op} {programId : String} (h : S.Touches host programId id m op m')
    (hstate : m.state = .accepted) : m'.state = .accepted := by
  cases h with
  | keeps => exact hstate
  | call call now P m' hP hstep => exact step_accepted hstep hstate
  | effect actionId effectId state now P m' hstep => exact step_accepted hstep hstate
  | bundle q now m' hprogram hsteps =>
    induction hsteps with
    | refl => exact hstate
    | tail _ hstep ih =>
      obtain ⟨P, now, action, -, hstep⟩ := hstep
      exact step_accepted hstep ih

def Accepted (S : System) (programId id : String) : Prop :=
  ∃ m, S.milestone? programId id = some m ∧ m.state = .accepted

/-- Once a milestone is accepted, it is accepted after any run. -/
theorem accepted_final (host : Host) (S : System) (ops : List Op) {programId : String}
    (h : S.Accepted programId id) : (Machine.run (next host) S ops).Accepted programId id := by
  refine Machine.invariant (I := fun S : System => S.Accepted programId id) (fun S op hS => ?_) h ops
  obtain ⟨m, hm, hstate⟩ := hS
  obtain ⟨m', hm', htouches⟩ := (next_moves host S op).touches hm
  exact ⟨m', hm', htouches.accepted hstate⟩

theorem integratedRun_accepted :
    (Machine.run (next Host.sample) (Machine.run (next Host.sample) {} integratedRun)
      [.call "run" (.move "m1" .blocked .accepted) 15]).Accepted "run" "m1" := by
  obtain ⟨P, m, hP, hm, happlies⟩ := exists_of_milestone integratedRun_applies
  exact accepted_final _ _ _ ⟨m, milestone?_eq_some.2 ⟨P, hP, hm⟩,
    of_decide_eq_true (Bool.and_eq_true_iff.1 happlies).2⟩

end System

end CodexFlow.Programs
