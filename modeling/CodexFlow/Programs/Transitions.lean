import CodexFlow.Programs.Revisions

/-!
# Operations and the transition policy

Adoption, reconciliation and executor results compute the state that a milestone is left in. The
policy has an edge for most of these moves, and which it has none for is listed here.
-/

namespace CodexFlow.Programs

open Ledger (Time)
open Checked

variable {digests : Digests} {P : Program} {m moved : Milestone} {id : String} {now : Time}
  {call : Call} {moves : List (WorkflowState × WorkflowState)}
  {result : Program × Option NewEvent}

/-! ### Requested moves -/

namespace Milestone

variable (m : Milestone)

/-- The move to another state, if the milestone is in one that the operation leaves. -/
def movesFrom (states : List WorkflowState) (target : WorkflowState) :
    List (WorkflowState × WorkflowState) :=
  if m.state ∈ states ∧ m.state ≠ target then [(m.state, target)] else []

def movedFrom (states : List WorkflowState) (target : WorkflowState) : Milestone :=
  if m.state ∈ states then m.moveTo target else m

/-- The states that an adoption leaves. -/
def adoptable : List WorkflowState := [.failed, .blocked, .needsDecision, .repairRequired]

def launchMoves : WorkflowState → List (WorkflowState × WorkflowState)
  | .planned => [(.planned, .starting), (.starting, .running), (.running, .completed)]
  | .starting => [(.starting, .running), (.running, .completed)]
  | .running => [(.running, .completed)]
  | _ => []

def launched : Milestone :=
  (if m.state = .planned then m.addDispatch executor 1 else m).moveTo .completed

structure ChecksAdoption (digests : Digests) (P : Program) (id : String) (q : Adoption)
    (commit : String) (predecessor : Option String) : Prop where
  sha : q.candidate.commitSha = some commit
  stored : P.milestones.get? id = some m
  capable : P.requireCapability = .ok ()
  check : P.checkAdoption digests id m.node q = .ok ()
  promoted : m.isPromoted commit →
    m.node.outcome.isAlreadyIntegrated ∧ m.candidateSha = some commit
  predecessor : m.adoptionPredecessor commit q.dispatchId = .ok predecessor

end Milestone

/-- The moves that a call asks for and the result that it has once the milestone is moved, when its
own checks pass. -/
inductive Plans (digests : Digests) (P : Program) (now : Time) :
    Call → List (WorkflowState × WorkflowState) → Program × Option NewEvent → Prop
  | replays (call : Call) (h : P.run digests now call = .ok (P, none)) :
    Plans digests P now call [] (P, none)
  | adopts (id : String) (q : Adoption) (m : Milestone) (commit : String)
      (predecessor : Option String) (result : Program × Option NewEvent)
      (hchecks : m.ChecksAdoption digests P id q commit predecessor)
      (htarget : q.target m ≠ .completed)
      (hresult : P.recordAdoption id m (m.movedFrom Milestone.adoptable (q.target m)) q commit
        q.dispatchId predecessor now = .ok result) :
    Plans digests P now (.adopt id q) (m.movesFrom Milestone.adoptable (q.target m)) result
  | launches (id : String) (q : Adoption) (m : Milestone) (commit : String)
      (predecessor : Option String) (result : Program × Option NewEvent)
      (hchecks : m.ChecksAdoption digests P id q commit predecessor)
      (htarget : q.target m = .completed) (hnew : m.candidateSha ≠ some commit)
      (hdispatch : q.dispatchId.all (· = P.initialExecutor id))
      (hstate : m.state ∈ [.planned, .starting, .running, .completed])
      (hfree : m.state = .planned → m.ownsRole executor = false)
      (hresult : P.recordAdoption id m m.launched q commit (some (P.initialExecutor id))
        predecessor now = .ok result) :
    Plans digests P now (.adopt id q) (Milestone.launchMoves m.state) result
  | reconciles (id : String) (q : Reconciliation) (m : Milestone)
      (result : Program × Option NewEvent) (hcheck : q.check = .ok ())
      (hm : P.milestones.get? id = some m) (hcapable : P.requireCapability = .ok ())
      (hretains : m.retains q.candidateSha) (hfresh : m.reconciledOf q.candidateSha = none)
      (hresult : (P.setMilestone id
          ((m.moveTo q.target).recordFact (.candidateReconciled q.fact))).returning
        (some ⟨.controllerAttention,
          s!"milestone/{id}/candidate/{q.candidateSha}/reconciled"⟩) = .ok result) :
    Plans digests P now (.reconcile id q) (m.movesFrom [m.state] q.target) result
  | reports (id : String) (q : ExecutorResult) (m : Milestone)
      (result : Program × Option NewEvent) (hm : P.milestones.get? id = some m)
      (hfresh : m.terminalOf q.dispatchId = none)
      (hrun : P.recordProgramExecutorResult id q = .ok result) :
    Plans digests P now (.executorResult id q)
      (m.movesFrom [.starting, .running] q.target) result

/-! ### Missing edges -/

def adoptionGaps : List (WorkflowState × WorkflowState) :=
  [(.needsDecision, .repairRequired), (.failed, .blocked)]

def reconciliationGaps : List (WorkflowState × WorkflowState) :=
  [(.failed, .blocked), (.accepted, .blocked), (.cancelled, .blocked),
    (.planned, .repairRequired), (.starting, .repairRequired), (.needsDecision, .repairRequired),
    (.completed, .repairRequired), (.accepted, .repairRequired), (.cancelled, .repairRequired)]

def resultGaps : List (WorkflowState × WorkflowState) :=
  [(.starting, .completed), (.starting, .needsDecision), (.starting, .repairRequired)]

/-- The moves that the operation asks for and the policy has no edge for. -/
def Call.missingMoves : Call → List (WorkflowState × WorkflowState)
  | .adopt .. => adoptionGaps
  | .reconcile .. => reconciliationGaps
  | .executorResult .. => resultGaps
  | _ => []

/-- Every call whose own checks pass asks for moves that the policy permits, and commits. -/
def Agrees (digests : Digests) (P : Program) (now : Time) (call : Call) : Prop :=
  ∀ moves result, Plans digests P now call moves result →
    (∀ move ∈ moves, move.1.isTransitionAllowed move.2) ∧ P.run digests now call = .ok result

/-! ### Which moves the policy permits -/

theorem mem_movesFrom {states : List WorkflowState} {target : WorkflowState}
    {move : WorkflowState × WorkflowState} :
    move ∈ m.movesFrom states target ↔
      move = (m.state, target) ∧ m.state ∈ states ∧ m.state ≠ target := by
  unfold Milestone.movesFrom
  split_ifs with h
  · rw [List.mem_singleton]
    exact ⟨fun hmove => ⟨hmove, h⟩, fun hmove => hmove.1⟩
  · exact ⟨fun hmove => (List.not_mem_nil hmove).elim, fun hmove => absurd hmove.2 h⟩

/-- A launch only makes moves that the policy permits. -/
theorem launchMoves_allowed {state : WorkflowState} {move : WorkflowState × WorkflowState}
    (h : move ∈ Milestone.launchMoves state) : move.1.isTransitionAllowed move.2 := by
  have hall : ∀ s, ∀ move ∈ Milestone.launchMoves s, move.1.isTransitionAllowed move.2 := by
    intro s
    cases s <;> decide
  exact hall state move h

theorem adoptionTarget {q : Adoption} (h : q.target m ≠ .completed) :
    q.target m ∈ [WorkflowState.blocked, .repairRequired] := by
  unfold Adoption.target at h ⊢
  split_ifs at h ⊢ with hcompleted
  · exact absurd rfl h
  all_goals decide

theorem adoptionMove_allowed {state target : WorkflowState} (hstate : state ∈ Milestone.adoptable)
    (htarget : target ∈ [WorkflowState.blocked, .repairRequired]) (hne : state ≠ target) :
    state.isTransitionAllowed target ↔ (state, target) ∉ adoptionGaps := by
  revert hstate hne
  simp only [List.mem_cons, List.not_mem_nil, or_false] at htarget
  obtain rfl | rfl := htarget <;> cases state <;> decide

theorem reconcileMove_allowed {q : Reconciliation} {state : WorkflowState}
    (hne : state ≠ q.target) :
    state.isTransitionAllowed q.target ↔ (state, q.target) ∉ reconciliationGaps := by
  revert hne
  unfold Reconciliation.target
  split_ifs <;> cases state <;> decide

theorem reportMove_allowed {q : ExecutorResult} {state : WorkflowState}
    (hstate : state ∈ [WorkflowState.starting, .running]) :
    state.isTransitionAllowed q.target ↔ (state, q.target) ∉ resultGaps := by
  have hmove : ∀ target ∈ [WorkflowState.failed, .completed, .blocked, .needsDecision,
      .repairRequired], ∀ state ∈ [WorkflowState.starting, .running],
      state.isTransitionAllowed target ↔ (state, target) ∉ resultGaps := by
    decide
  refine hmove q.target ?_ state hstate
  unfold ExecutorResult.target
  split_ifs
  · decide
  · cases q.terminalStatus <;> decide

/-- A move that a call asks for is permitted unless it is listed as missing. -/
theorem Plans.allowed (h : Plans digests P now call moves result)
    {move : WorkflowState × WorkflowState} (hmove : move ∈ moves) :
    move.1.isTransitionAllowed move.2 ↔ move ∉ call.missingMoves := by
  cases h with
  | replays call hrun => exact (List.not_mem_nil hmove).elim
  | adopts id q m commit predecessor result hchecks htarget hresult =>
    obtain ⟨rfl, hstate, hne⟩ := mem_movesFrom.1 hmove
    exact adoptionMove_allowed hstate (adoptionTarget htarget) hne
  | launches id q m commit predecessor result hchecks htarget hnew hdispatch hstate hfree hresult =>
    have hallowed := launchMoves_allowed hmove
    refine ⟨fun _ hmissing => ?_, fun _ => hallowed⟩
    obtain rfl | hmissing := List.mem_cons.1 hmissing
    · cases hallowed
    · obtain rfl := List.mem_singleton.1 hmissing
      cases hallowed
  | reconciles id q m result hcheck hm hcapable hretains hfresh hresult =>
    obtain ⟨rfl, -, hne⟩ := mem_movesFrom.1 hmove
    exact reconcileMove_allowed hne
  | reports id q m result hm hfresh hrun =>
    obtain ⟨rfl, hstate, -⟩ := mem_movesFrom.1 hmove
    exact reportMove_allowed hstate

/-! ### Which calls commit -/

theorem leaveFor_eq {target : WorkflowState}
    (h : ∀ move ∈ m.movesFrom Milestone.adoptable target, move.1.isTransitionAllowed move.2) :
    m.leaveFor target = .ok (m.movedFrom Milestone.adoptable target) := by
  unfold Milestone.leaveFor Milestone.movedFrom
  by_cases hstate : m.state ∈ Milestone.adoptable
  · rw [if_pos hstate]
    by_cases hne : m.state = target
    · rw [if_neg fun hmove => hmove.2 hne, ← hne, Milestone.moveTo_self]
      rfl
    · rw [if_pos ⟨hstate, hne⟩]
      have hallowed := h _ (mem_movesFrom.2 ⟨rfl, hstate, hne⟩)
      exact Milestone.transition_eq_ok.2 ⟨rfl, .inr ⟨rfl, hallowed⟩⟩
  · rw [if_neg hstate, if_neg fun hmove => hstate hmove.1]
    rfl

theorem launchAdopted_eq (hstate : m.state ∈ [.planned, .starting, .running, .completed])
    (hfree : m.state = .planned → m.ownsRole executor = false) :
    m.launchAdopted = .ok m.launched := by
  have hrun : ∀ {m : Milestone}, m.state = .running → m.completeRunning = .ok (m.moveTo .completed) := by
    intro m hm
    unfold Milestone.completeRunning
    rw [if_pos hm]
    exact Milestone.transition_eq_ok.2 ⟨rfl, .inr ⟨hm, by rw [hm]; rfl⟩⟩
  have hstart : ∀ {m : Milestone}, m.state = .starting → m.runStarting = .ok (m.moveTo .running) := by
    intro m hm
    unfold Milestone.runStarting
    rw [if_pos hm]
    exact Milestone.transition_eq_ok.2 ⟨rfl, .inr ⟨hm, by rw [hm]; rfl⟩⟩
  show (m.claimAdopted >>= fun claimed => claimed.runStarting >>= fun running =>
    running.completeRunning) = .ok m.launched
  unfold Milestone.launched
  by_cases hplanned : m.state = .planned
  · have hclaim : m.claimAdopted = .ok ((m.addDispatch executor 1).moveTo .starting) := by
      unfold Milestone.claimAdopted
      rw [if_pos hplanned, ensure_of (by rw [hfree hplanned]; rfl)]
      rfl
    rw [hclaim, ok_bind, hstart rfl, ok_bind, hrun rfl, if_pos hplanned]
    rfl
  · have hclaim : m.claimAdopted = .ok m := if_neg hplanned
    rw [hclaim, ok_bind, if_neg hplanned]
    by_cases hstarting : m.state = .starting
    · rw [hstart hstarting, ok_bind, hrun rfl]
      rfl
    · have hsame : m.runStarting = .ok m := if_neg hstarting
      rw [hsame, ok_bind]
      by_cases hrunning : m.state = .running
      · exact hrun hrunning
      · have hcompleted : m.state = .completed := by
          simpa [hplanned, hstarting, hrunning] using hstate
        unfold Milestone.completeRunning
        rw [if_neg hrunning, ensure_of hcompleted, ← hcompleted, Milestone.moveTo_self]
        rfl

theorem Milestone.ChecksAdoption.run {q : Adoption} {commit : String}
    {predecessor : Option String} (h : m.ChecksAdoption digests P id q commit predecessor) :
    P.adoptProgramCandidate digests id q now =
      (if q.target m = .completed then do
        ensure (q.dispatchId.all (· = P.initialExecutor id))
          (.staleWriter "already-integrated adoption dispatch identity is not the initial executor")
        if m.candidateSha = some commit then P.replayAdoption id m q commit
        else do
          let moved ← m.launchAdopted
          P.recordAdoption id m moved q commit (some (P.initialExecutor id)) predecessor now
      else do
        let moved ← m.leaveFor (q.target m)
        P.recordAdoption id m moved q commit q.dispatchId predecessor now) := by
  unfold Program.adoptProgramCandidate
  simp only [h.sha, Program.milestone_eq_ok.2 h.stored, ok_bind, h.capable, h.check,
    ensure_of h.promoted, h.predecessor]

theorem Plans.commits (h : Plans digests P now call moves result)
    (hallowed : ∀ move ∈ moves, move.1.isTransitionAllowed move.2) :
    P.run digests now call = .ok result := by
  cases h with
  | replays call hrun => exact hrun
  | adopts id q m commit predecessor result hchecks htarget hresult =>
    refine hchecks.run.trans ?_
    rw [if_neg htarget, leaveFor_eq hallowed, ok_bind, hresult]
  | launches id q m commit predecessor result hchecks htarget hnew hdispatch hstate hfree hresult =>
    refine hchecks.run.trans ?_
    rw [if_pos htarget, ensure_of hdispatch, ok_bind, if_neg hnew, launchAdopted_eq hstate hfree,
      ok_bind, hresult]
  | reconciles id q m result hcheck hm hcapable hretains hfresh hresult =>
    have hmove : m.transition q.target m.state = .ok (m.moveTo q.target) := by
      refine Milestone.transition_eq_ok.2 ⟨rfl, ?_⟩
      by_cases hsame : m.state = q.target
      · exact .inl hsame
      · exact .inr ⟨rfl, hallowed _ (mem_movesFrom.2 ⟨rfl, by simp, hsame⟩)⟩
    show P.reconcileProgramCandidate id q = .ok result
    unfold Program.reconcileProgramCandidate
    simp only [hcheck, Program.milestone_eq_ok.2 hm, hcapable, ensure_of hretains, hfresh, hmove,
      ok_bind]
    exact hresult
  | reports id q m result hm hfresh hrun => exact hrun

def sampleCandidate : String := "266ec841a313476ea6cf2d7e453e490ae0585e54"

def executorDispatch (generation : ℕ) : DispatchValue :=
  .dispatch ⟨"run", "m1", executor, generation⟩

def executing (outcome : NodeOutcome) : List Op :=
  [.register (sampleGraph outcome), .call "run" (.claimDispatch "m1" executor) 1,
    .call "run" (.move "m1" .running .starting) 2]

def reported (candidateSha : String) (status : TerminalStatus) (generation : ℕ)
    (blocker : Option TypedBlocker) : Call :=
  .executorResult "m1"
    { candidateSha := some candidateSha
      terminalStatus := status
      dispatchId := some (executorDispatch generation)
      resultSha256 := none
      record := none
      blocker := blocker }

def undecidedRun : List Op :=
  executing .git ++ [.call "run" (reported sampleCandidate .needsDecision 1 none) 3]

def sampleAdoption : Adoption where
  candidate :=
    { path := "/workspace"
      head := some sampleCandidate
      digest := none
      dirty := false
      reason := none
      disposition := .verifiedCommit
      commitSha := some sampleCandidate
      verified := by simp
      head_isSome := fun _ => rfl }
  dispatchId := none
  terminalStatus := none
  blocker := none
  receipt := none

end CodexFlow.Programs
