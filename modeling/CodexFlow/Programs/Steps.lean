import CodexFlow.Programs.System

/-!
# What a call makes of a milestone

The rows that each call and each action writes, with what it checked before it wrote them. Every
call writes at most one milestone.
-/

namespace CodexFlow.Programs

open Ledger (Time isGitSha)
open Checked

variable {digests : Digests} {P P' : Program} {m m' : Milestone} {id : String} {now : Time}
  {event : Option NewEvent}

/-! ### Moves -/

theorem transition_ok {actual target expected s : WorkflowState} :
    transition actual target expected = .ok s ↔
      s = target ∧ (actual = target ∨ actual = expected ∧ actual.isTransitionAllowed target) := by
  unfold transition
  split_ifs with h
  · simp only [steps_ok]
    constructor
    · rintro ⟨hallowed, heq⟩
      exact ⟨heq.symm, .inr ⟨h.1, hallowed⟩⟩
    · rintro ⟨heq, hmove⟩
      exact ⟨(hmove.resolve_left h.2).2, heq.symm⟩
  · simp only [steps_ok]
    constructor
    · rintro ⟨rfl, rfl⟩
      exact ⟨rfl, .inl rfl⟩
    · rintro ⟨rfl, rfl | ⟨hexpected, hallowed⟩⟩
      · exact ⟨rfl, rfl⟩
      · have hsame : actual = s := by
          by_contra hne
          exact h ⟨hexpected, hne⟩
        exact ⟨hsame, hsame⟩

namespace Milestone

theorem transition_eq_ok {target expected : WorkflowState} :
    m.transition target expected = .ok m' ↔ m' = m.moveTo target ∧
      (m.state = target ∨ m.state = expected ∧ m.state.isTransitionAllowed target) := by
  simp only [transition, bind_eq_ok, transition_ok, pure_eq_ok]
  constructor
  · rintro ⟨s, ⟨rfl, hmove⟩, rfl⟩
    exact ⟨rfl, hmove⟩
  · rintro ⟨rfl, hmove⟩
    exact ⟨_, ⟨rfl, hmove⟩, rfl⟩

@[simp] theorem moveTo_state (s : WorkflowState) : (m.moveTo s).state = s := rfl

@[simp] theorem moveTo_lifecycle (s : WorkflowState) : (m.moveTo s).lifecycle = m.lifecycle := rfl

theorem moveTo_self : m.moveTo m.state = m := rfl

@[simp] theorem recordFact_lifecycle (fact : Fact) :
    (m.recordFact fact).lifecycle = Journal.record m.lifecycle fact := rfl

@[simp] theorem recordFact_state (fact : Fact) : (m.recordFact fact).state = m.state := rfl

/-- The moves of an adopted milestone end in the same rows, up to its state and its dispatch. -/
theorem launchAdopted_ok (h : m.launchAdopted = .ok m') :
    m.state ∈ [.planned, .starting, .running, .completed] ∧
      ∃ dispatches, m' = { m with state := .completed, dispatches := dispatches } ∧
        (dispatches = m.dispatches ∨
          m.ownsRole executor = false ∧ dispatches = m.dispatches ++ [⟨executor, 1⟩]) := by
  simp only [launchAdopted, bind_eq_ok] at h
  obtain ⟨claimed, hclaimed, running, hrunning, hcompleted⟩ := h
  have hclaim : (claimed = m ∧ m.state ≠ .planned) ∨
      (m.state = .planned ∧ m.ownsRole executor = false ∧
        claimed = (m.addDispatch executor 1).moveTo .starting) := by
    unfold claimAdopted at hclaimed
    split_ifs at hclaimed with hplanned
    · simp only [steps_ok] at hclaimed
      obtain ⟨hfree, rfl⟩ := hclaimed
      exact .inr ⟨hplanned, by simpa using hfree, rfl⟩
    · exact .inl ⟨(pure_eq_ok.1 hclaimed).symm, hplanned⟩
  have hrun : (running = claimed ∧ claimed.state ≠ .starting) ∨
      (claimed.state = .starting ∧ running = claimed.moveTo .running) := by
    unfold runStarting at hrunning
    split_ifs at hrunning with hstarting
    · exact .inr ⟨hstarting, (transition_eq_ok.1 hrunning).1⟩
    · exact .inl ⟨(pure_eq_ok.1 hrunning).symm, hstarting⟩
  have hend : m' = running.moveTo .completed ∧ running.state ∈ [.running, .completed] := by
    unfold completeRunning at hcompleted
    split_ifs at hcompleted with hstate
    · exact ⟨(transition_eq_ok.1 hcompleted).1, by simp [hstate]⟩
    · simp only [steps_ok] at hcompleted
      obtain ⟨hstate, rfl⟩ := hcompleted
      exact ⟨by rw [← hstate, moveTo_self], by simp [hstate]⟩
  obtain ⟨rfl, hstate⟩ := hend
  obtain ⟨rfl, -⟩ | ⟨hplanned, hfree, rfl⟩ := hclaim
  · obtain ⟨rfl, -⟩ | ⟨hstarting, rfl⟩ := hrun
    · refine ⟨?_, running.dispatches, rfl, .inl rfl⟩
      simp only [List.mem_cons, List.not_mem_nil, or_false] at hstate ⊢
      exact .inr (.inr hstate)
    · exact ⟨by simp [hstarting], claimed.dispatches, rfl, .inl rfl⟩
  · refine ⟨by simp [hplanned], m.dispatches ++ [⟨executor, 1⟩], ?_, .inr ⟨hfree, rfl⟩⟩
    obtain ⟨rfl, hne⟩ | ⟨-, rfl⟩ := hrun
    · exact absurd rfl hne
    · rfl

theorem leaveFor_ok {target : WorkflowState} (h : m.leaveFor target = .ok m') :
    (m' = m ∧ (m.state ∉ [.failed, .blocked, .needsDecision, .repairRequired] ∨
        m.state = target)) ∨
      (m.state ∈ [.failed, .blocked, .needsDecision, .repairRequired] ∧
        m.state.isTransitionAllowed target ∧ m' = m.moveTo target) := by
  unfold leaveFor at h
  split_ifs at h with hstate
  · obtain ⟨rfl, hmove⟩ := transition_eq_ok.1 h
    exact .inr ⟨hstate.1, (hmove.resolve_left hstate.2).2, rfl⟩
  · refine .inl ⟨(pure_eq_ok.1 h).symm, ?_⟩
    by_cases hmem : m.state ∈ [.failed, .blocked, .needsDecision, .repairRequired]
    · exact .inr (by_contra fun hne => hstate ⟨hmem, hne⟩)
    · exact .inl hmem

theorem adoptOutcome_ok {receipt : Option AdoptionReceipt} {commit : String}
    (h : m.adoptOutcome receipt commit now = .ok m') :
    m' = m ∨ m.outcomeRow (.commit commit) = none ∧
      ∃ r, m' = m.addOutcome ⟨.commit commit, .adoption r, 0, 0, now⟩ := by
  unfold adoptOutcome at h
  split at h
  · exact .inl (pure_eq_ok.1 h).symm
  split at h
  · exact .inr ⟨‹_›, _, (pure_eq_ok.1 h).symm⟩
  · simp only [bind_eq_ok, pure_eq_ok] at h
    obtain ⟨-, -, rfl⟩ := h
    exact .inl rfl

theorem closeExecution_ok {target : WorkflowState} (h : m.closeExecution target = .ok m') :
    (m.state ∈ [.starting, .running] ∧ m' = m.moveTo target) ∨
      (m.state ∉ [.starting, .running] ∧ m' = m ∧
        (m.state = target ∨ target = .completed ∨ m.state = .planned ∧ target = .failed)) := by
  unfold closeExecution at h
  split_ifs at h with hstate
  · exact .inl ⟨hstate, (pure_eq_ok.1 h).symm⟩
  · simp only [steps_ok] at h
    obtain ⟨hguard, rfl⟩ := h
    exact .inr ⟨hstate, rfl, hguard⟩

theorem recordManifest_ok {q : EvidenceResult} (h : m.recordManifest digests q now = .ok m') :
    m' = m ∨ m.outcomeRow (q.subject digests) = none ∧
      m' = m.addOutcome ⟨q.subject digests, .evidence q.manifest, 0, 0, now⟩ := by
  unfold recordManifest at h
  split at h
  · exact .inr ⟨‹_›, (pure_eq_ok.1 h).symm⟩
  · simp only [bind_eq_ok, pure_eq_ok] at h
    obtain ⟨-, -, rfl⟩ := h
    exact .inl rfl

/-- A runtime result moves a milestone that is at work, or finds it where it leaves it. -/
theorem closeRuntime_ok {target : WorkflowState} (h : m.closeRuntime target = .ok m') :
    m' = m.moveTo target ∧ (m.state = target ∨ m.state ∈ [.starting, .running, .repairRequired]) := by
  simp only [closeRuntime, bind_eq_ok] at h
  obtain ⟨begun, hbegun, h⟩ := h
  have hbegin : begun = m ∨ (m.state = .starting ∧ begun = m.moveTo .running) := by
    unfold runStarting at hbegun
    split_ifs at hbegun with hstarting
    · exact .inr ⟨hstarting, (transition_eq_ok.1 hbegun).1⟩
    · exact .inl (pure_eq_ok.1 hbegun).symm
  have hend : ∀ {resumed : Milestone} {error}, (if resumed.state = .running then
        resumed.transition target .running
      else do
        ensure (resumed.state = target) error
        pure resumed) = .ok m' →
      m' = resumed.moveTo target ∧ (resumed.state = target ∨ resumed.state = .running) := by
    intro resumed error hended
    split_ifs at hended with hrunning
    · exact ⟨(transition_eq_ok.1 hended).1, .inr hrunning⟩
    · simp only [steps_ok] at hended
      obtain ⟨hstate, rfl⟩ := hended
      exact ⟨by rw [← hstate, moveTo_self], .inl hstate⟩
  split_ifs at h with hrepair
  · obtain ⟨resumed, hresumed, hended⟩ := bind_eq_ok.1 h
    obtain ⟨rfl, -⟩ := transition_eq_ok.1 hresumed
    obtain ⟨rfl, -⟩ := hend hended
    obtain rfl | ⟨hstarting, rfl⟩ := hbegin
    · exact ⟨rfl, .inr (by simp [hrepair.1])⟩
    · exact ⟨rfl, .inr (by simp [hstarting])⟩
  · obtain ⟨rfl, hstate⟩ := hend h
    obtain rfl | ⟨hstarting, rfl⟩ := hbegin
    · exact ⟨rfl, hstate.imp_right fun hrunning => by simp [hrunning]⟩
    · exact ⟨rfl, .inr (by simp [hstarting])⟩

theorem accept_ok {error : Ledger.LedgerError} (h : m.accept error = .ok m') :
    m' = m.moveTo .accepted ∧ m.state ∈ [.reviewing, .accepted] := by
  unfold accept at h
  split_ifs at h with hstate
  · exact ⟨(transition_eq_ok.1 h).1, by simp [hstate]⟩
  · simp only [steps_ok] at h
    obtain ⟨hstate, rfl⟩ := h
    exact ⟨by rw [← hstate, moveTo_self], by simp [hstate]⟩

end Milestone

/-! ### The program around a milestone -/

namespace Program

@[simp] theorem setMilestone_milestones (id : String) (m : Milestone) :
    (P.setMilestone id m).milestones = P.milestones.set id m := rfl

@[simp] theorem inState_milestones (s : ProgramState) :
    (P.inState s).milestones = P.milestones := rfl

@[simp] theorem advance_milestones : P.advance.milestones = P.milestones := rfl

theorem milestone_eq_ok {error : Ledger.LedgerError} :
    P.milestone id error = .ok m ↔ P.milestones.get? id = some m := by
  unfold milestone
  cases P.milestones.get? id with
  | none => exact ⟨(nomatch ·), (nomatch ·)⟩
  | some m' => rw [pure_eq_ok, Option.some.injEq]

/-- The status of every node can be read. -/
def Readable (P : Program) : Prop := ∃ nodes, P.nodes = .ok nodes

theorem returning_ok {result : Program × Option NewEvent} :
    P.returning event = .ok result ↔ P.Readable ∧ result = (P, event) := by
  simp only [returning, bind_eq_ok, pure_eq_ok]
  constructor
  · rintro ⟨nodes, hnodes, heq⟩
    exact ⟨⟨nodes, hnodes⟩, heq.symm⟩
  · rintro ⟨⟨nodes, hnodes⟩, heq⟩
    exact ⟨nodes, hnodes, heq.symm⟩

structure Refreshes (advanceRevision : Bool) (now : Time) (P P' : Program) : Prop where
  capable : P.requireCapability = .ok ()
  readable : P.Readable
  result : (P.nodes.toOption.any (·.all (·.isClosed)) ∧
      (P' = P ∧ P.state = .completed ∨
        P' = { P with
          state := .completed
          revision := P.revision + if advanceRevision then 1 else 0
          closedAt := some (P.closedAt.getD now) })) ∨
    (P.state ≠ .completed ∧
      P' = { P with
        state := if P.state = .registered then .running else P.state
        revision := P.revision + if advanceRevision then 1 else 0 })

theorem refreshCompletion_ok {advanceRevision : Bool}
    (h : P.refreshCompletion advanceRevision now = .ok P') :
    P.Refreshes advanceRevision now P' := by
  simp only [refreshCompletion, bind_eq_ok] at h
  obtain ⟨⟨⟩, hcapable, nodes, hnodes, h⟩ := h
  refine ⟨hcapable, ⟨nodes, hnodes⟩, ?_⟩
  rw [hnodes]
  by_cases hclosed : nodes.all (·.isClosed)
  · rw [if_pos hclosed] at h
    refine .inl ⟨hclosed, ?_⟩
    by_cases hdone : P.state = .completed ∧ P.closedAt.isSome
    · rw [if_pos hdone] at h
      exact .inl ⟨(pure_eq_ok.1 h).symm, hdone.1⟩
    · rw [if_neg hdone] at h
      exact .inr (pure_eq_ok.1 h).symm
  · rw [if_neg hclosed] at h
    simp only [steps_ok] at h
    obtain ⟨hstate, rfl⟩ := h
    refine .inr ⟨hstate, ?_⟩
    cases advanceRevision <;> by_cases hregistered : P.state = .registered <;>
      simp [hregistered, advance, inState]

theorem Refreshes.milestones {advanceRevision : Bool}
    (h : P.Refreshes advanceRevision now P') : P'.milestones = P.milestones := by
  obtain ⟨-, ⟨rfl, -⟩ | rfl⟩ | ⟨-, rfl⟩ := h.result <;> rfl

/-- The rows of a node that is closed for a subject. -/
structure Closes (digests : Digests) (P : Program) (id : String) (q : Closure) (now : Time)
    (m m' : Milestone) : Prop where
  kind : q.subject.kind = m.node.outcome.kind
  notGit : m.node.outcome.isGit = false
  fenced : m.node.outcome = .noIntegration → q.expectedProgramRevision = some P.revision
  reviews : m.validateReviewSet q.subject q.reviewIds = .ok ()
  state : m.state ∈ [.reviewing, .accepted]
  closed : ∃ closed, m.closeOutcome digests P id q now = .ok closed ∧
    m' = (closed.promote q.subject q.reviewIds).moveTo .accepted

theorem closeOutcome_state {q : Closure} (h : m.closeOutcome digests P id q now = .ok m') :
    m' = { m with outcomes := m'.outcomes } := by
  simp only [Milestone.closeOutcome] at h
  split at h
  · simp only [bind_eq_ok] at h
    obtain ⟨-, -, h⟩ := h
    split at h
    · cases h
    · simp only [bind_eq_ok, pure_eq_ok] at h
      obtain ⟨-, -, rfl⟩ := h
      rfl
  · split at h <;> simp only [bind_eq_ok, pure_eq_ok] at h
    · obtain ⟨-, -, -, -, rfl⟩ := h
      rfl
    · obtain ⟨-, -, -, -, -, -, rfl⟩ := h
      rfl

@[simp] theorem promote_state (s : Subject) (ids : List String) :
    (m.promote s ids).state = m.state := by
  unfold Milestone.promote
  split_ifs <;> rfl

theorem closeNode_ok {q : Closure} {advanceRevision : Bool}
    (h : P.closeNode digests id q advanceRevision now = .ok P') :
    ∃ m, P.milestones.get? id = some m ∧
      ((P' = P ∧ m.promotedAlready q.subject ∧
          (m.outcomeRow q.subject).any (·.closureGeneration = 1) ∧ m.state = .accepted) ∨
        ∃ m', P.Closes digests id q now m m' ∧
          (P.setMilestone id m').Refreshes advanceRevision now P') := by
  simp only [closeNode, checks_ok, milestone_eq_ok] at h
  obtain ⟨-, -, m, hm, hkind, hgit, hfenced, ⟨⟩, hreviews, h⟩ := h
  refine ⟨m, hm, ?_⟩
  split_ifs at h with hdone
  · simp only [steps_ok] at h
    obtain ⟨hstate, rfl⟩ := h
    exact .inl ⟨rfl, hdone.1, hdone.2, hstate⟩
  · simp only [bind_eq_ok] at h
    obtain ⟨closed, hclosed, accepted, haccepted, h⟩ := h
    obtain ⟨rfl, hstate⟩ := Milestone.accept_ok haccepted
    rw [promote_state, closeOutcome_state hclosed] at hstate
    exact .inr ⟨_, ⟨hkind, by simpa using hgit, hfenced, hreviews, hstate, closed, hclosed, rfl⟩,
      refreshCompletion_ok h⟩

structure Adopts (digests : Digests) (P : Program) (id : String) (q : Adoption) (commit : String)
    (now : Time) (m m' : Milestone) : Prop where
  sha : q.candidate.commitSha = some commit
  check : P.checkAdoption digests id m.node q = .ok ()
  promoted : m.isPromoted commit →
    m.node.outcome.isAlreadyIntegrated ∧ m.candidateSha = some commit
  result : ∃ predecessor moved adopted dispatchId,
    m.adoptionPredecessor commit q.dispatchId = .ok predecessor ∧
    (q.target m = .completed ∧ m.candidateSha ≠ some commit ∧ m.launchAdopted = .ok moved ∧
        q.dispatchId.all (· = P.initialExecutor id) ∧
        dispatchId = some (P.initialExecutor id) ∨
      q.target m ≠ .completed ∧ m.leaveFor (q.target m) = .ok moved ∧ dispatchId = q.dispatchId) ∧
    (moved.adopt q commit dispatchId (q.inheritedStatus m) (q.terminalBlocker m)).adoptOutcome
      q.receipt commit now = .ok adopted ∧
    m' = adopted.supersede predecessor commit dispatchId

theorem adopt_ok {q : Adoption}
    (h : P.adoptProgramCandidate digests id q now = .ok (P', event)) :
    ∃ commit m, q.candidate.commitSha = some commit ∧ P.milestones.get? id = some m ∧
      P'.Readable ∧ (P' = P ∧ event = none ∧ m.candidateSha = some commit ∨
        ∃ m', P.Adopts digests id q commit now m m' ∧ P' = P.setMilestone id m' ∧
          event = some (candidateEvent id commit)) := by
  unfold adoptProgramCandidate at h
  split at h
  · cases h
  rename_i commit hcommit
  simp only [checks_ok, milestone_eq_ok] at h
  obtain ⟨m, hm, -, -, ⟨⟩, hcheck, hpromoted, predecessor, hpredecessor, h⟩ := h
  refine ⟨commit, m, hcommit, hm, ?_⟩
  split_ifs at h with htarget hcurrent
  · simp only [checks_ok] at h
    obtain ⟨-, h⟩ := h
    unfold replayAdoption at h
    split at h
    · cases h
    simp only [checks_ok, returning_ok, Prod.mk.injEq] at h
    obtain ⟨-, hread, rfl, rfl⟩ := h
    exact ⟨hread, .inl ⟨rfl, rfl, hcurrent⟩⟩
  · simp only [recordAdoption, checks_ok, returning_ok] at h
    obtain ⟨hdispatch, moved, hmoved, adopted, hadopted, hread, heq⟩ := h
    obtain ⟨rfl, rfl⟩ := Prod.mk.inj heq
    exact ⟨hread, .inr ⟨_, ⟨hcommit, hcheck, hpromoted, predecessor, moved, adopted, _,
      hpredecessor, .inl ⟨htarget, hcurrent, hmoved, hdispatch, rfl⟩, hadopted, rfl⟩, rfl, rfl⟩⟩
  · simp only [recordAdoption, bind_eq_ok, returning_ok] at h
    obtain ⟨moved, hmoved, adopted, hadopted, hread, heq⟩ := h
    obtain ⟨rfl, rfl⟩ := Prod.mk.inj heq
    exact ⟨hread, .inr ⟨_, ⟨hcommit, hcheck, hpromoted, predecessor, moved, adopted, _,
      hpredecessor, .inr ⟨htarget, hmoved, rfl⟩, hadopted, rfl⟩, rfl, rfl⟩⟩

structure Reports (q : ExecutorResult) (m m' : Milestone) : Prop where
  check : q.check = .ok ()
  fresh : m.terminalOf q.dispatchId = none
  result : ∃ closed predecessor, m.closeExecution q.target = .ok closed ∧
    m.resultPredecessor q = .ok predecessor ∧ m' = closed.recordResult q predecessor

theorem executorResult_ok {q : ExecutorResult}
    (h : P.recordProgramExecutorResult id q = .ok (P', event)) :
    ∃ m, P.milestones.get? id = some m ∧ P'.Readable ∧
      (P' = P ∧ event = none ∧ m.terminalOf q.dispatchId = some q.terminalFact ∨
        ∃ m', Reports q m m' ∧
          (P' = P.setMilestone id m' ∨
            P' = ((P.setMilestone id m').inState q.programState).advance)) := by
  simp only [recordProgramExecutorResult, bind_eq_ok, milestone_eq_ok] at h
  obtain ⟨⟨⟩, hcheck, m, hm, -, -, h⟩ := h
  refine ⟨m, hm, ?_⟩
  split at h
  · simp only [checks_ok, returning_ok, Prod.mk.injEq] at h
    obtain ⟨rfl, hread, rfl, rfl⟩ := h
    exact ⟨hread, .inl ⟨rfl, rfl, ‹_›⟩⟩
  rename_i hfresh
  simp only [bind_eq_ok] at h
  obtain ⟨closed, hclosed, predecessor, hpredecessor, h⟩ := h
  have hreports : Reports q m (closed.recordResult q predecessor) :=
    ⟨hcheck, hfresh, closed, predecessor, hclosed, hpredecessor, rfl⟩
  split at h
  · obtain ⟨hread, heq⟩ := returning_ok.1 h
    obtain ⟨rfl, rfl⟩ := Prod.mk.inj heq
    exact ⟨hread, .inr ⟨_, hreports, .inl rfl⟩⟩
  · obtain ⟨hread, heq⟩ := returning_ok.1 h
    obtain ⟨rfl, rfl⟩ := Prod.mk.inj heq
    exact ⟨hread, .inr ⟨_, hreports, .inr rfl⟩⟩

structure Reconciles (q : Reconciliation) (m m' : Milestone) : Prop where
  check : q.check = .ok ()
  retains : m.retains q.candidateSha
  fresh : m.reconciledOf q.candidateSha = none
  move : m.state = q.target ∨ m.state.isTransitionAllowed q.target
  result : m' = (m.moveTo q.target).recordFact (.candidateReconciled q.fact)

theorem reconcile_ok {q : Reconciliation}
    (h : P.reconcileProgramCandidate id q = .ok (P', event)) :
    ∃ m, P.milestones.get? id = some m ∧ P'.Readable ∧
      (P' = P ∧ event = none ∧ m.reconciledOf q.candidateSha = some q.fact ∨
        ∃ m', Reconciles q m m' ∧ P' = P.setMilestone id m') := by
  simp only [reconcileProgramCandidate, checks_ok, milestone_eq_ok] at h
  obtain ⟨⟨⟩, hcheck, m, hm, -, -, hretains, h⟩ := h
  refine ⟨m, hm, ?_⟩
  split at h
  · simp only [checks_ok, returning_ok, Prod.mk.injEq] at h
    obtain ⟨rfl, hread, rfl, rfl⟩ := h
    exact ⟨hread, .inl ⟨rfl, rfl, ‹_›⟩⟩
  rename_i hfresh
  simp only [bind_eq_ok] at h
  obtain ⟨moved, hmoved, h⟩ := h
  obtain ⟨rfl, hmove⟩ := Milestone.transition_eq_ok.1 hmoved
  obtain ⟨hread, heq⟩ := returning_ok.1 h
  obtain ⟨rfl, rfl⟩ := Prod.mk.inj heq
  exact ⟨hread, .inr ⟨_, ⟨hcheck, hretains, hfresh, hmove.imp_right (·.2), rfl⟩, rfl⟩⟩

/-- The rows of runtime evidence; a replay may add the outcome of its manifest only. -/
structure Evidences (digests : Digests) (P : Program) (id : String) (q : EvidenceResult)
    (now : Time) (m m' : Milestone) : Prop where
  check : q.check P.programId id = .ok ()
  runtime : m.node.outcome = .noIntegration
  fresh : ∀ t ∈ m.lifecycle.filterMap Fact.executorTerminal?,
    t.dispatchId ≠ some (.dispatch q.dispatchId)
  result : ∃ recorded, m.recordManifest digests q now = .ok recorded ∧
    (m.state = q.target ∨ m.state ∈ [.starting, .running, .repairRequired]) ∧
    m' = ((recorded.moveTo q.target).recordFact
      (.evidenceRecorded (digests.manifest q.manifest))).recordFact
        (.executorTerminal (q.terminalFact digests))

theorem recordManifest_keeps {q : EvidenceResult}
    (h : m.recordManifest digests q now = .ok m') : m' = { m with outcomes := m'.outcomes } := by
  obtain rfl | ⟨-, rfl⟩ := Milestone.recordManifest_ok h <;> rfl

theorem runtimeEvidence_ok {q : EvidenceResult} {queue : Option QueueFacts}
    (h : P.recordRuntimeEvidence digests id q queue now = .ok (P', event)) :
    ∃ m, P.milestones.get? id = some m ∧ P'.Readable ∧
      ((m.node.outcome = .noIntegration ∧ ∃ m', m.recordManifest digests q now = .ok m' ∧
          P' = P.setMilestone id m') ∨
        ∃ m', P.Evidences digests id q now m m' ∧
          (P' = P.setMilestone id m' ∨
            P' = ((P.setMilestone id m').inState q.programState).advance)) := by
  simp only [recordRuntimeEvidence, bind_eq_ok, milestone_eq_ok] at h
  obtain ⟨⟨⟩, hcheck, m, hm, -, -, ⟨⟩, hnode, -, -, recorded, hrecorded, h⟩ := h
  simp only [EvidenceResult.checkNode, checks_ok] at hnode
  refine ⟨m, hm, ?_⟩
  split at h
  · simp only [checks_ok, returning_ok, Prod.mk.injEq] at h
    obtain ⟨-, hread, rfl, rfl⟩ := h
    exact ⟨hread, .inl ⟨hnode.1, recorded, hrecorded, rfl⟩⟩
  rename_i hfresh
  simp only [bind_eq_ok] at h
  obtain ⟨closed, hclosed, h⟩ := h
  obtain ⟨rfl, hstate⟩ := Milestone.closeRuntime_ok hclosed
  rw [recordManifest_keeps hrecorded] at hstate
  have hnone : ∀ t ∈ m.lifecycle.filterMap Fact.executorTerminal?,
      t.dispatchId ≠ some (.dispatch q.dispatchId) := by
    intro t ht heq
    obtain ⟨fact, hfact, hterminal⟩ := List.mem_filterMap.1 ht
    have hno := List.findSome?_eq_none_iff.1 hfresh fact hfact
    rw [hterminal, Option.filter_some, if_pos (by simpa using heq)] at hno
    cases hno
  have hevidences := Evidences.mk hcheck hnode.1 hnone ⟨recorded, hrecorded, hstate, rfl⟩
  split_ifs at h
  · obtain ⟨hread, heq⟩ := returning_ok.1 h
    obtain ⟨rfl, rfl⟩ := Prod.mk.inj heq
    exact ⟨hread, .inr ⟨_, hevidences, .inl rfl⟩⟩
  · obtain ⟨hread, heq⟩ := returning_ok.1 h
    obtain ⟨rfl, rfl⟩ := Prod.mk.inj heq
    exact ⟨hread, .inr ⟨_, hevidences, .inr rfl⟩⟩

structure Invalidates (evidenceSha256 reason : String) (m m' : Milestone) : Prop where
  outcome : (m.outcomeRow (.evidence evidenceSha256)).isSome
  result : m' = (if m.state ∈ [.running, .completed, .reviewing] then m.moveTo .blocked
    else m).recordFact (.evidenceInvalidated evidenceSha256 (integrityBlocker reason))

theorem invalidate_ok {evidenceSha256 reason : String}
    (h : P.invalidateRuntimeEvidence id evidenceSha256 reason = .ok (P', event)) :
    ∃ m, P.milestones.get? id = some m ∧ P'.Readable ∧
      (P' = P ∧ event = none ∨
        ∃ m', Invalidates evidenceSha256 reason m m' ∧
          P' = if P.state = .completed then
            ((P.setMilestone id m').inState .needsDecision).advance else P.setMilestone id m') := by
  simp only [invalidateRuntimeEvidence, checks_ok, milestone_eq_ok] at h
  obtain ⟨-, m, hm, -, -, houtcome, h⟩ := h
  refine ⟨m, hm, ?_⟩
  split at h
  · simp only [checks_ok, returning_ok, Prod.mk.injEq] at h
    obtain ⟨-, hread, rfl, rfl⟩ := h
    exact ⟨hread, .inl ⟨rfl, rfl⟩⟩
  by_cases hstate : m.state ∈ [.running, .completed, .reviewing]
  · rw [if_pos hstate] at h
    simp only [bind_eq_ok, Milestone.transition_eq_ok, returning_ok] at h
    obtain ⟨moved, ⟨rfl, -⟩, hread, heq⟩ := h
    obtain ⟨rfl, rfl⟩ := Prod.mk.inj heq
    exact ⟨hread, .inr ⟨_, ⟨houtcome, by rw [if_pos hstate]⟩, rfl⟩⟩
  · rw [if_neg hstate] at h
    simp only [bind_eq_ok, pure_eq_ok, returning_ok] at h
    obtain ⟨moved, rfl, hread, heq⟩ := h
    obtain ⟨rfl, rfl⟩ := Prod.mk.inj heq
    exact ⟨hread, .inr ⟨_, ⟨houtcome, by rw [if_neg hstate]⟩, rfl⟩⟩

theorem review_ok {q : ReviewResult} (h : P.recordProgramReview digests id q = .ok (P', event)) :
    ∃ m, P.milestones.get? id = some m ∧ q.reviewedRevision.kind = m.node.outcome.kind ∧
      m.subject = some q.reviewedRevision ∧
      (P' = P ∧ event = none ∨
        P' = P.setMilestone id (m.recordFact (.reviewCompleted (q.fact m.node)))) := by
  simp only [recordProgramReview, checks_ok, milestone_eq_ok] at h
  obtain ⟨-, -, -, -, m, hm, hsubject, -, h⟩ := h
  refine ⟨m, hm, hsubject.1, hsubject.2, ?_⟩
  split at h
  · simp only [bind_eq_ok, pure_eq_ok, Prod.mk.injEq] at h
    obtain ⟨-, -, rfl, rfl⟩ := h
    exact .inl ⟨rfl, rfl⟩
  · obtain ⟨rfl, -⟩ := Prod.mk.inj (pure_eq_ok.1 h)
    exact .inr rfl

theorem recordCandidate_ok {c : String} (h : P.recordProgramCandidate id c = .ok (P', event)) :
    isGitSha c ∧
      (P' = P ∧ P.milestones.get? id = none ∨ ∃ m, P.milestones.get? id = some m ∧
        (P' = P ∧ event = none ∧ m.candidateSha = some c ∧
            m.lifecycle.any (·.recordedCandidate? = some c) ∨
          ¬(m.candidateSha = some c ∧ m.lifecycle.any (·.recordedCandidate? = some c)) ∧
            P' = P.setMilestone id (m.recordFact (.candidateRecorded c)) ∧
            event = some (candidateEvent id c))) := by
  simp only [recordProgramCandidate, checks_ok] at h
  obtain ⟨hsha, -, -, h⟩ := h
  refine ⟨hsha, ?_⟩
  split at h
  · obtain ⟨rfl, -⟩ := Prod.mk.inj (pure_eq_ok.1 h)
    exact .inl ⟨rfl, ‹_›⟩
  rename_i m hm
  refine .inr ⟨m, hm, ?_⟩
  split_ifs at h with hrecorded
  · obtain ⟨rfl, rfl⟩ := Prod.mk.inj (pure_eq_ok.1 h)
    exact .inl ⟨rfl, rfl, hrecorded⟩
  · obtain ⟨rfl, rfl⟩ := Prod.mk.inj (pure_eq_ok.1 h)
    exact .inr ⟨hrecorded, rfl, rfl⟩

structure Integrates (digests : Digests) (P : Program) (id : String) (r : IntegrationReceipt)
    (i : Integration) (after : String) (now : Time) (m m' : Milestone) : Prop where
  pending : i.ended = none
  check : r.check P id i .applied = .ok ()
  trunk : P.trunkHead = i.expectedTrunkHead
  head : r.afterTrunkHead = some after
  result : m' = (m.setIntegration { i with ended := some ⟨.applied, r, now⟩ }).recordFact
    (.integrationCompleted i.candidateSha (digests.integration r) after)

theorem integration_ok {c : String} {r : IntegrationReceipt} {state : IntegrationState}
    (h : P.completeIntegration digests id c r state now = .ok (P', event)) :
    ∃ m i, P.milestones.get? id = some m ∧ m.integrationOf c = some i ∧
      r.check P id i state = .ok () ∧ P'.Readable ∧
      (P' = P ∧ event = none ∧ i.ended.isSome ∨
        (state = .applied ∧ ∃ m' after, P.Integrates digests id r i after now m m' ∧
          ({ (P.setMilestone id m').advance with trunkHead := after } : Program).Refreshes false now
            P') ∨
        state ≠ .applied ∧ i.ended = none ∧
          P' = (P.setMilestone id
            (m.setIntegration { i with ended := some ⟨state, r, now⟩ })).inState
              (if state = .conflict then .needsDecision else .failed)) := by
  simp only [completeIntegration, checks_ok, milestone_eq_ok] at h
  obtain ⟨-, -, -, m, hm, h⟩ := h
  split at h
  · cases h
  rename_i i hi
  simp only [bind_eq_ok] at h
  obtain ⟨⟨⟩, hcheck, h⟩ := h
  refine ⟨m, i, hm, hi, hcheck, ?_⟩
  split at h
  · rename_i ended hended
    simp only [checks_ok, returning_ok, Prod.mk.injEq] at h
    obtain ⟨-, hread, rfl, rfl⟩ := h
    exact ⟨hread, .inl ⟨rfl, rfl, by rw [hended]; rfl⟩⟩
  rename_i hpending
  split at h
  · rename_i after hafter
    simp only [applyIntegration, checks_ok, returning_ok] at h
    obtain ⟨htrunk, refreshed, hrefreshed, hread, heq⟩ := h
    obtain ⟨rfl, -⟩ := Prod.mk.inj heq
    exact ⟨hread, .inr (.inl ⟨rfl, _, after, ⟨hpending, hcheck, htrunk, hafter, rfl⟩,
      refreshCompletion_ok hrefreshed⟩)⟩
  · rename_i hother
    obtain ⟨hread, heq⟩ := returning_ok.1 h
    obtain ⟨rfl, -⟩ := Prod.mk.inj heq
    refine ⟨hread, .inr (.inr ⟨?_, hpending, rfl⟩)⟩
    rintro rfl
    simp only [IntegrationReceipt.check, IntegrationReceipt.checkApplied, checks_ok,
      if_pos] at hcheck
    obtain ⟨-, -, hafter, -⟩ := hcheck
    cases hsome : r.afterTrunkHead with
    | none =>
      rw [hsome] at hafter
      cases hafter
    | some after => exact hother after rfl hsome

theorem closeProgramNode_ok {q : Closure}
    (h : P.closeProgramNode digests id q now = .ok (P', event)) :
    P'.Readable ∧ P.closeNode digests id q true now = .ok P' := by
  simp only [closeProgramNode, checks_ok, returning_ok] at h
  obtain ⟨-, closed, hclosed, hread, heq⟩ := h
  obtain ⟨rfl, -⟩ := Prod.mk.inj heq
  exact ⟨hread, hclosed⟩

theorem controlResult_ne_ok {result : Program × Option NewEvent} :
    P.recordControlExecutorResult id ≠ .ok result := by
  intro h
  simp only [recordControlExecutorResult, bind_eq_ok] at h
  obtain ⟨-, -, h⟩ := h
  cases h

theorem silently_ok {result : Checked Program} (h : silently result = .ok (P', event)) :
    result = .ok P' := by
  simp only [silently, bind_eq_ok, pure_eq_ok, Prod.mk.injEq] at h
  obtain ⟨P₁, hP₁, rfl, -⟩ := h
  exact hP₁

/-! ### Dispatches -/

theorem claimDispatch_ok {role : String} (h : P.claimDispatch id role = .ok P') :
    ∃ m, P.milestones.get? id = some m ∧
      (P' = P ∧ m.hasDispatch role 1 ∨
        (m.state = .planned ∧ m.ownsRole role = false) ∧
          P' = P.setMilestone id ((m.addDispatch role 1).moveTo .starting)) := by
  simp only [claimDispatch, bind_eq_ok, milestone_eq_ok] at h
  obtain ⟨m, hm, h⟩ := h
  refine ⟨m, hm, ?_⟩
  split_ifs at h with hhas
  · exact .inl ⟨(pure_eq_ok.1 h).symm, hhas⟩
  · simp only [steps_ok] at h
    obtain ⟨hfree, hstate, rfl⟩ := h
    exact .inr ⟨⟨hstate, by simpa using hfree⟩, rfl⟩

theorem claimReview_ok {role : String} {generation : ℕ}
    (h : P.claimReviewDispatch id role generation = .ok P') :
    role ≠ executor ∧ ∃ m, P.milestones.get? id = some m ∧
      (P' = P ∧ m.hasDispatch role generation ∨
        generation = m.nextGeneration role ∧
          P' = P.setMilestone id (m.addDispatch role generation)) := by
  simp only [claimReviewDispatch, checks_ok, milestone_eq_ok] at h
  obtain ⟨hrole, m, hm, h⟩ := h
  refine ⟨hrole, m, hm, ?_⟩
  split_ifs at h with hhas
  · exact .inl ⟨(pure_eq_ok.1 h).symm, hhas⟩
  · simp only [steps_ok] at h
    obtain ⟨hnext, -, rfl⟩ := h
    exact .inr ⟨hnext, rfl⟩

theorem claimRepair_ok {generation : ℕ} (h : P.claimRepairDispatch id generation = .ok P') :
    ∃ m, P.milestones.get? id = some m ∧
      (P' = P ∧ m.hasDispatch executor generation ∨
        m.state = .repairRequired ∧ m.ownsRole executor ∧
          generation = m.nextGeneration executor ∧
          P' = P.setMilestone id ((m.addDispatch executor generation).moveTo .starting)) := by
  simp only [claimRepairDispatch, checks_ok, milestone_eq_ok] at h
  obtain ⟨-, m, hm, h⟩ := h
  refine ⟨m, hm, ?_⟩
  split_ifs at h with hhas
  · exact .inl ⟨(pure_eq_ok.1 h).symm, hhas⟩
  · simp only [steps_ok] at h
    obtain ⟨howns, hnext, hstate, rfl⟩ := h
    exact .inr ⟨hstate, howns, hnext, rfl⟩

theorem moveMilestone_ok {target expected : WorkflowState}
    (h : P.moveMilestone id target expected = .ok P') :
    ∃ m, P.milestones.get? id = some m ∧ m.state.isTransitionAllowed target ∧
      P' = P.setMilestone id (m.moveTo target) := by
  simp only [moveMilestone, steps_ok, milestone_eq_ok] at h
  obtain ⟨m, hm, -, -, hallowed, rfl⟩ := h
  exact ⟨m, hm, hallowed, rfl⟩

theorem start_ok {key : String} (h : P.startProgram key = .ok (P', event)) :
    P'.Readable ∧ P.state ∉ [.completed, .failed] ∧
      P' = if P.state = .registered then (P.inState .running).advance else P := by
  simp only [startProgram, checks_ok, returning_ok] at h
  obtain ⟨-, -, hstate, hread, heq⟩ := h
  obtain ⟨rfl, -⟩ := Prod.mk.inj heq
  exact ⟨hread, hstate, rfl⟩

theorem attention_ok {key : String} (h : P.recordProgramAttention key = .ok (P', event)) :
    P' = if P.state ∈ [.completed, .failed, .externalBlocked] then P
      else P.inState .needsDecision := by
  simp only [recordProgramAttention, bind_eq_ok, pure_eq_ok] at h
  obtain ⟨-, -, heq⟩ := h
  exact (Prod.mk.inj heq).1.symm

/-! ### Actions -/

variable {queue : QueueStates} {trunkHead : String}

theorem checkStarts_ok {seen ids : List String} (h : P.checkStarts seen ids = .ok ()) :
    ∀ id ∈ ids, ∃ m, P.milestones.get? id = some m ∧ m.ownsRole executor = false := by
  induction ids generalizing seen with
  | nil => exact fun _ hmem => nomatch hmem
  | cons first ids ih =>
    simp only [checkStarts, checks_ok, milestone_eq_ok] at h
    obtain ⟨m, hm, -, -, -, -, howns, h⟩ := h
    intro id hmem
    obtain rfl | hmem := List.mem_cons.1 hmem
    · exact ⟨m, hm, by simpa using howns⟩
    · exact ih h id hmem

theorem startReadyMilestones_ok {ids : List String} (h : P.startReadyMilestones ids = .ok P') :
    P' = P ∧ ∀ id ∈ ids, ∃ m, P.milestones.get? id = some m ∧ m.ownsRole executor = false := by
  simp only [startReadyMilestones, bind_eq_ok, pure_eq_ok] at h
  obtain ⟨-, -, -, -, ⟨⟩, hstarts, rfl⟩ := h
  exact ⟨rfl, checkStarts_ok hstarts⟩

theorem targets_ok {s : Subject} {action : String} {u : Unit} :
    targets m s action = .ok u ↔ s.kind = m.node.outcome.kind ∧ m.subject = some s :=
  ensure_eq_ok

theorem startReviews_ok {s : Subject} {roles : List String}
    (h : P.startReviews queue id s roles = .ok P') :
    ∃ m, P.milestones.get? id = some m ∧ s.kind = m.node.outcome.kind ∧ m.subject = some s ∧
      (∀ role ∈ roles, P.reviewerIsFree queue id m role) ∧
      (m.state = .reviewing ∨ m.state.isTransitionAllowed .reviewing) ∧
      P' = P.setMilestone id (m.moveTo .reviewing) := by
  simp only [startReviews, steps_ok, milestone_eq_ok, targets_ok, Milestone.transition_eq_ok] at h
  obtain ⟨m, hm, hsubject, -, -, -, -, hfree, -, moved, ⟨rfl, hmove⟩, rfl⟩ := h
  exact ⟨m, hm, hsubject.1, hsubject.2, List.all_eq_true.1 hfree, hmove.imp_right (·.2), rfl⟩

theorem requestRepair_ok {s : Subject} {findings : List String}
    (h : P.requestRepair id s findings = .ok P') :
    ∃ m, P.milestones.get? id = some m ∧ s.kind = m.node.outcome.kind ∧ m.subject = some s ∧
      m.ownsRole executor ∧ m.state ∈ [.reviewing, .repairRequired] ∧
      P' = P.setMilestone id ((m.moveTo .repairRequired).recordFact
        (.repairRequested s.candidateSha? findings)) := by
  simp only [requestRepair, steps_ok, milestone_eq_ok, targets_ok, Milestone.transition_eq_ok] at h
  obtain ⟨m, hm, hsubject, -, howns, hstate, moved, ⟨rfl, -⟩, rfl⟩ := h
  exact ⟨m, hm, hsubject.1, hsubject.2, howns, hstate, rfl⟩

theorem resolve_ok {c gate : String} {resolution : BlockerResolution}
    (h : P.resolveCandidateBlocker id c gate resolution = .ok P') :
    ∃ m b, P.milestones.get? id = some m ∧ m.candidateSha = some c ∧
      programCandidateBlocker m.lifecycle c = .ok (some b) ∧ b.gateId = gate ∧
      P' = P.setMilestone id (m.recordFact (.candidateBlockerResolved c gate resolution)) := by
  simp only [resolveCandidateBlocker, steps_ok, milestone_eq_ok] at h
  obtain ⟨m, hm, hcandidate, blocker, hblocker, hgate, rfl⟩ := h
  obtain ⟨b, rfl, hgate⟩ := (Option.any_eq_true _ _).1 hgate
  exact ⟨m, b, hm, hcandidate, hblocker, by simpa using hgate, rfl⟩

theorem promote_ok {s : Subject} {ids : List String}
    (h : P.promoteCandidate digests id s ids now = .ok P') :
    ∃ m, P.milestones.get? id = some m ∧ s.kind = m.node.outcome.kind ∧ m.subject = some s ∧
      ((m.node.outcome = .noIntegration ∧ m.state = .reviewing ∧ P' = P) ∨
        (m.node.outcome = .git ∧ m.state ∈ [.reviewing, .accepted] ∧
          P' = P.setMilestone id ((m.promote s ids).moveTo .accepted)) ∨
        m.node.outcome.isAlreadyIntegrated ∧
          (P.setMilestone id (m.promote s ids)).closeNode digests id
            { subject := s, reviewIds := ids } false now = .ok P') := by
  simp only [promoteCandidate, checks_ok, milestone_eq_ok, targets_ok] at h
  obtain ⟨m, hm, hsubject, -, -, -, -, -, h⟩ := h
  refine ⟨m, hm, hsubject.1, hsubject.2, ?_⟩
  split at h
  · rename_i houtcome
    simp only [steps_ok] at h
    obtain ⟨hstate, rfl⟩ := h
    exact .inl ⟨houtcome, hstate, rfl⟩
  · rename_i houtcome
    simp only [bind_eq_ok, pure_eq_ok] at h
    obtain ⟨accepted, haccepted, rfl⟩ := h
    obtain ⟨rfl, hstate⟩ := Milestone.accept_ok haccepted
    rw [promote_state] at hstate
    exact .inr (.inl ⟨houtcome, hstate, rfl⟩)
  · rename_i houtcome
    refine .inr (.inr ⟨?_, h⟩)
    rw [houtcome]
    rfl

theorem integrate_ok {c head : String} {strategy : IntegrationStrategy}
    (h : P.integrateCandidate trunkHead id c head strategy now = .ok P') :
    ∃ m, P.milestones.get? id = some m ∧ m.candidateSha = some c ∧ head = trunkHead ∧
      m.node.outcome.isGit ∧ m.promotedAlready (.commit c) ∧
      ((m.integrationOf c = none ∧
          P' = P.setMilestone id (m.addIntegration ⟨c, head, strategy, now, none⟩)) ∨
        ∃ i, m.integrationOf c = some i ∧ i.ended = none ∧ P' = P) := by
  simp only [integrateCandidate, checks_ok, milestone_eq_ok] at h
  obtain ⟨m, hm, hcandidate, hhead, hgit, hpromoted, -, -, -, h⟩ := h
  refine ⟨m, hm, hcandidate, hhead, hgit, hpromoted, ?_⟩
  split at h
  · exact .inl ⟨‹_›, (pure_eq_ok.1 h).symm⟩
  · rename_i i hi
    simp only [steps_ok] at h
    obtain ⟨hpending, rfl⟩ := h
    exact .inr ⟨i, hi, Option.isNone_iff_eq_none.1 hpending, rfl⟩

/-! ### Effects -/

theorem recordActionEffect_ok {actionId effectId : String} {b : ProgramBundle}
    {state : EffectState} {isNew : Bool}
    (h : P.recordActionEffect actionId effectId b state = .ok (P', isNew)) :
    P' = P ∨ ∃ id m, P.milestones.get? id = some m ∧
      (P' = P.setMilestone id (m.recordFact (.programEffect actionId effectId state)) ∨
        P' = (P.setMilestone id
          (m.recordFact (.programEffect actionId effectId state))).inState .needsDecision) := by
  unfold recordActionEffect at h
  split at h
  · cases h
  rename_i effect heffect
  simp only [bind_eq_ok, milestone_eq_ok] at h
  obtain ⟨-, -, m, hm, h⟩ := h
  split at h
  · simp only [steps_ok, Prod.mk.injEq] at h
    exact .inl h.2.1.symm
  · obtain ⟨rfl, -⟩ := Prod.mk.inj (pure_eq_ok.1 h)
    refine .inr ⟨effect.2, m, hm, ?_⟩
    split_ifs
    · exact .inr rfl
    · exact .inl rfl

end Program

end CodexFlow.Programs
