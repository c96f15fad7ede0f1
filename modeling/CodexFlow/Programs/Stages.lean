import CodexFlow.Programs.Runs
import Mathlib

/-!
# What one call makes of a milestone

Every call, every action of a bundle and every effect changes at most one milestone, in one of a few
ways. What all of these keep, the milestones of every reachable program have.
-/

namespace CodexFlow.Programs

open Ledger (Time isGitSha)
open Checked

variable {digests : Digests} {P P' : Program} {m m' : Milestone} {id : String} {now : Time}
  {event : Option NewEvent} {queue : QueueStates} {trunkHead : String}

/-- What changes a program. -/
inductive Act where
  | call (call : Call)
  | action (action : ProgramAction)
  | effect

/-- The act ends with a status of the program. -/
def Act.reads : Act → Bool
  | call (.attention _) | call (.recordCandidate ..) | call (.review ..) => false
  | call (.claimDispatch ..) | call (.claimReview ..) | call (.claimRepair ..) => false
  | call (.move ..) | action _ | effect => false
  | _ => true

/-- The journal, the outcomes and the integrations stay, and an accepted milestone stays so. -/
structure Milestone.Rests (m m' : Milestone) : Prop where
  node : m'.node = m.node
  lifecycle : m'.lifecycle = m.lifecycle
  outcomes : m'.outcomes = m.outcomes
  integrations : m'.integrations = m.integrations
  accepted : m.state = .accepted → m'.state = .accepted

inductive Milestone.Step (digests : Digests) (P : Program) (id : String) (now : Time)
    (m : Milestone) : Act → Milestone → Prop
  | rests (act : Act) (m' : Milestone) (h : m.Rests m') : Step digests P id now m act m'
  | records (c : String) (hsha : isGitSha c)
      (hnew : ¬(m.candidateSha = some c ∧ m.lifecycle.any (·.recordedCandidate? = some c))) :
    Step digests P id now m (.call (.recordCandidate id c)) (m.recordFact (.candidateRecorded c))
  | adopts (q : Adoption) (commit : String) (m' : Milestone)
      (h : P.Adopts digests id q commit now m m') :
    Step digests P id now m (.call (.adopt id q)) m'
  | reports (q : ExecutorResult) (m' : Milestone) (h : Program.Reports q m m') :
    Step digests P id now m (.call (.executorResult id q)) m'
  | reconciles (q : Reconciliation) (m' : Milestone) (h : Program.Reconciles q m m') :
    Step digests P id now m (.call (.reconcile id q)) m'
  | manifests (q : EvidenceResult) (queue : Option QueueFacts) (m' : Milestone)
      (hruntime : m.node.outcome = .noIntegration) (h : m.recordManifest digests q now = .ok m') :
    Step digests P id now m (.call (.runtimeEvidence id q queue)) m'
  | evidences (q : EvidenceResult) (queue : Option QueueFacts) (m' : Milestone)
      (h : P.Evidences digests id q now m m') :
    Step digests P id now m (.call (.runtimeEvidence id q queue)) m'
  | invalidates (evidenceSha256 reason : String) (m' : Milestone)
      (h : Program.Invalidates evidenceSha256 reason m m') :
    Step digests P id now m (.call (.invalidateEvidence id evidenceSha256 reason)) m'
  | closes (q : Closure) (m' : Milestone) (h : P.Closes digests id q now m m') :
    Step digests P id now m (.call (.closeNode id q)) m'
  | reviews (q : ReviewResult) (hkind : q.reviewedRevision.kind = m.node.outcome.kind)
      (hsubject : m.subject = some q.reviewedRevision) :
    Step digests P id now m (.call (.review id q))
      (m.recordFact (.reviewCompleted (q.fact m.node)))
  | integrates (c : String) (r : IntegrationReceipt) (i : Integration) (after : String)
      (m' : Milestone) (hi : m.integrationOf c = some i)
      (h : P.Integrates digests id r i after now m m') :
    Step digests P id now m (.call (.integration id c r .applied)) m'
  | abandons (c : String) (r : IntegrationReceipt) (i : Integration) (state : IntegrationState)
      (hi : m.integrationOf c = some i) (hpending : i.ended = none) (hstate : state ≠ .applied) :
    Step digests P id now m (.call (.integration id c r state))
      (m.setIntegration { i with ended := some ⟨state, r, now⟩ })
  | repairs (s : Subject) (findings : List String) (hkind : s.kind = m.node.outcome.kind)
      (hsubject : m.subject = some s) (hstate : m.state ∈ [.reviewing, .repairRequired]) :
    Step digests P id now m (.action (.requestRepair id s findings))
      ((m.moveTo .repairRequired).recordFact (.repairRequested s.candidateSha? findings))
  | resolves (c gate : String) (resolution : BlockerResolution) (b : TypedBlocker)
      (hcandidate : m.candidateSha = some c)
      (hblocker : programCandidateBlocker m.lifecycle c = .ok (some b)) (hgate : b.gateId = gate) :
    Step digests P id now m (.action (.resolveCandidateBlocker id c gate resolution))
      (m.recordFact (.candidateBlockerResolved c gate resolution))
  | promotes (s : Subject) (ids : List String) (hkind : s.kind = m.node.outcome.kind)
      (hsubject : m.subject = some s) (hgit : m.node.outcome = .git)
      (hstate : m.state ∈ [.reviewing, .accepted]) :
    Step digests P id now m (.action (.promoteCandidate id s ids))
      ((m.promote s ids).moveTo .accepted)
  | promotesClosed (s : Subject) (ids : List String) (hkind : s.kind = m.node.outcome.kind)
      (hsubject : m.subject = some s) (hadopted : m.node.outcome.isAlreadyIntegrated)
      (hstate : m.state = .accepted) :
    Step digests P id now m (.action (.promoteCandidate id s ids)) (m.promote s ids)
  | promotesAdopted (s : Subject) (ids : List String) (m' : Milestone)
      (hkind : s.kind = m.node.outcome.kind) (hsubject : m.subject = some s)
      (hadopted : m.node.outcome.isAlreadyIntegrated)
      (h : (P.setMilestone id (m.promote s ids)).Closes digests id
        { subject := s, reviewIds := ids } now (m.promote s ids) m') :
    Step digests P id now m (.action (.promoteCandidate id s ids)) m'
  | authorizes (c : String) (strategy : IntegrationStrategy)
      (hcandidate : m.candidateSha = some c) (hgit : m.node.outcome.isGit)
      (hpromoted : m.promotedAlready (.commit c)) (hnone : m.integrationOf c = none)
      (trunkHead : String) :
    Step digests P id now m (.action (.integrateCandidate id c trunkHead strategy))
      (m.addIntegration ⟨c, trunkHead, strategy, now, none⟩)
  | affects (actionId effectId : String) (state : EffectState) :
    Step digests P id now m .effect (m.recordFact (.programEffect actionId effectId state))

/-- The status of every node can be read, and every node is closed. -/
def Program.AllClosed (P : Program) : Prop :=
  ∃ nodes, P.nodes = .ok nodes ∧ ∀ s ∈ nodes, s.isClosed

structure Program.Step (digests : Digests) (now : Time) (act : Act) (P P' : Program) : Prop where
  milestones : P'.milestones = P.milestones ∨ ∃ id m m', P.milestones.get? id = some m ∧
    P'.milestones = P.milestones.set id m' ∧ m.Step digests P id now act m'
  readable : act.reads → P'.Readable
  completed : P'.state = .completed → P.state = .completed ∨ P'.AllClosed

namespace Program

/-- A program is completed by a refresh that finds every node closed. -/
theorem Refreshes.completed {advanceRevision : Bool} (h : P.Refreshes advanceRevision now P')
    (hstate : P'.state = .completed) : P'.AllClosed := by
  have hsame := h.milestones
  obtain ⟨hclosed, -⟩ | ⟨hne, rfl⟩ := h.result
  · obtain ⟨nodes, hnodes⟩ := h.readable
    rw [hnodes] at hclosed
    refine ⟨nodes, ?_, fun s hs => List.all_eq_true.1 hclosed s hs⟩
    unfold Program.nodes at hnodes ⊢
    rw [hsame]
    exact hnodes
  · by_cases hregistered : P.state = .registered
    · rw [show (_ : ProgramState) = _ from if_pos hregistered] at hstate
      cases hstate
    · rw [show (_ : ProgramState) = _ from if_neg hregistered] at hstate
      exact absurd hstate hne

/-! ### Calls -/

theorem Step.keeps {act : Act} (hsame : P'.milestones = P.milestones)
    (hread : act.reads → P'.Readable)
    (hcompleted : P'.state = .completed → P.state = .completed ∨ P'.AllClosed) :
    P.Step digests now act P' :=
  ⟨.inl hsame, hread, hcompleted⟩

theorem Step.of {act : Act} (hm : P.milestones.get? id = some m)
    (hset : P'.milestones = P.milestones.set id m') (h : m.Step digests P id now act m')
    (hread : act.reads → P'.Readable)
    (hcompleted : P'.state = .completed → P.state = .completed ∨ P'.AllClosed) :
    P.Step digests now act P' :=
  ⟨.inr ⟨id, m, m', hm, hset, h⟩, hread, hcompleted⟩

theorem ExecutorResult.programState_ne (q : ExecutorResult) : q.programState ≠ .completed := by
  unfold ExecutorResult.programState
  split_ifs
  · exact ProgramState.noConfusion
  · cases q.terminalStatus <;> exact ProgramState.noConfusion

theorem EvidenceResult.programState_ne (q : EvidenceResult) : q.programState ≠ .completed := by
  unfold EvidenceResult.programState
  cases q.terminalStatus <;> exact ProgramState.noConfusion

theorem run_step {call : Call} (h : P.run digests now call = .ok (P', event)) :
    P.Step digests now (.call call) P' := by
  cases call with
  | start key =>
    obtain ⟨hread, hstate, rfl⟩ := start_ok h
    refine .keeps ?_ (fun _ => hread) fun hcompleted => ?_
    · split_ifs <;> rfl
    · split_ifs at hcompleted
      · cases hcompleted
      · exact .inl hcompleted
  | attention key =>
    obtain rfl := attention_ok h
    refine .keeps ?_ (nomatch ·) fun hcompleted => ?_
    · split_ifs <;> rfl
    · split_ifs at hcompleted
      · exact .inl hcompleted
      · cases hcompleted
  | recordCandidate id c =>
    obtain ⟨hsha, ⟨rfl, -⟩ | ⟨m, hm, ⟨rfl, -⟩ | ⟨hnew, rfl, -⟩⟩⟩ := recordCandidate_ok h
    · exact .keeps rfl (nomatch ·) .inl
    · exact .keeps rfl (nomatch ·) .inl
    · exact .of hm rfl (.records c hsha hnew) (nomatch ·) .inl
  | adopt id q =>
    obtain ⟨commit, m, -, hm, hread, ⟨rfl, -⟩ | ⟨m', hadopts, rfl, -⟩⟩ := adopt_ok h
    · exact .keeps rfl (fun _ => hread) .inl
    · exact .of hm rfl (.adopts q commit m' hadopts) (fun _ => hread) .inl
  | executorResult id q =>
    obtain ⟨m, hm, hread, ⟨rfl, -⟩ | ⟨m', hreports, rfl | rfl⟩⟩ := executorResult_ok h
    · exact .keeps rfl (fun _ => hread) .inl
    · exact .of hm rfl (.reports q m' hreports) (fun _ => hread) .inl
    · exact .of hm rfl (.reports q m' hreports) (fun _ => hread)
        fun hcompleted => absurd hcompleted (ExecutorResult.programState_ne q)
  | controlResult id =>
    exact absurd h controlResult_ne_ok
  | reconcile id q =>
    obtain ⟨m, hm, hread, ⟨rfl, -⟩ | ⟨m', hreconciles, rfl⟩⟩ := reconcile_ok h
    · exact .keeps rfl (fun _ => hread) .inl
    · exact .of hm rfl (.reconciles q m' hreconciles) (fun _ => hread) .inl
  | runtimeEvidence id q queue =>
    obtain ⟨m, hm, hread, ⟨hruntime, m', hrecorded, rfl⟩ | ⟨m', hevidences, rfl | rfl⟩⟩ :=
      runtimeEvidence_ok h
    · exact .of hm rfl (.manifests q queue m' hruntime hrecorded) (fun _ => hread) .inl
    · exact .of hm rfl (.evidences q queue m' hevidences) (fun _ => hread) .inl
    · exact .of hm rfl (.evidences q queue m' hevidences) (fun _ => hread)
        fun hcompleted => absurd hcompleted (EvidenceResult.programState_ne q)
  | invalidateEvidence id e reason =>
    obtain ⟨m, hm, hread, ⟨rfl, -⟩ | ⟨m', hinvalidates, rfl⟩⟩ := invalidate_ok h
    · exact .keeps rfl (fun _ => hread) .inl
    · refine .of hm ?_ (.invalidates e reason m' hinvalidates) (fun _ => hread)
        fun hcompleted => ?_
      · split_ifs <;> rfl
      · split_ifs at hcompleted
        · cases hcompleted
        · exact .inl hcompleted
  | closeNode id q =>
    obtain ⟨hread, hclose⟩ := closeProgramNode_ok h
    obtain ⟨m, hm, ⟨rfl, -⟩ | ⟨m', hcloses, hrefresh⟩⟩ := closeNode_ok hclose
    · exact .keeps rfl (fun _ => hread) .inl
    · exact .of hm hrefresh.milestones (.closes q m' hcloses) (fun _ => hread)
        fun hcompleted => .inr (hrefresh.completed hcompleted)
  | review id q =>
    obtain ⟨m, hm, hkind, hsubject, ⟨rfl, -⟩ | rfl⟩ := review_ok h
    · exact .keeps rfl (nomatch ·) .inl
    · exact .of hm rfl (.reviews q hkind hsubject) (nomatch ·) .inl
  | integration id c r state =>
    obtain ⟨m, i, hm, hi, -, hread, ⟨rfl, -⟩ | ⟨rfl, m', after, hintegrates, hrefresh⟩ |
      ⟨hstate, hpending, rfl⟩⟩ := integration_ok h
    · exact .keeps rfl (fun _ => hread) .inl
    · exact .of hm hrefresh.milestones (.integrates c r i after m' hi hintegrates) (fun _ => hread)
        fun hcompleted => .inr (hrefresh.completed hcompleted)
    · refine .of hm rfl (.abandons c r i state hi hpending hstate) (fun _ => hread)
        fun hcompleted => ?_
      have hne : (if state = .conflict then ProgramState.needsDecision else .failed) ≠
          .completed := by split_ifs <;> exact ProgramState.noConfusion
      exact absurd hcompleted hne
  | claimDispatch id role =>
    obtain ⟨m, hm, ⟨rfl, -⟩ | ⟨⟨hstate, -⟩, rfl⟩⟩ := claimDispatch_ok (silently_ok h)
    · exact .keeps rfl (nomatch ·) .inl
    · refine .of hm rfl (.rests _ _ ⟨rfl, rfl, rfl, rfl, fun haccepted => ?_⟩) (nomatch ·) .inl
      rw [hstate] at haccepted
      cases haccepted
  | claimReview id role generation =>
    obtain ⟨-, m, hm, ⟨rfl, -⟩ | ⟨-, rfl⟩⟩ := claimReview_ok (silently_ok h)
    · exact .keeps rfl (nomatch ·) .inl
    · exact .of hm rfl (.rests _ _ ⟨rfl, rfl, rfl, rfl, fun h => h⟩) (nomatch ·) .inl
  | claimRepair id generation =>
    obtain ⟨m, hm, ⟨rfl, -⟩ | ⟨hstate, -, -, rfl⟩⟩ := claimRepair_ok (silently_ok h)
    · exact .keeps rfl (nomatch ·) .inl
    · refine .of hm rfl (.rests _ _ ⟨rfl, rfl, rfl, rfl, fun haccepted => ?_⟩) (nomatch ·) .inl
      rw [hstate] at haccepted
      cases haccepted
  | move id target expected =>
    obtain ⟨m, hm, hallowed, rfl⟩ := moveMilestone_ok (silently_ok h)
    refine .of hm rfl (.rests _ _ ⟨rfl, rfl, rfl, rfl, fun haccepted => ?_⟩) (nomatch ·) .inl
    rw [haccepted] at hallowed
    cases hallowed

/-! ### Bundles and effects -/

theorem applyAction_step {action : ProgramAction}
    (h : P.applyAction digests queue trunkHead now action = .ok P') :
    P.Step digests now (.action action) P' := by
  cases action with
  | startReadyMilestones ids =>
    obtain ⟨rfl, -⟩ := startReadyMilestones_ok h
    exact .keeps rfl (nomatch ·) .inl
  | startReviews id s roles =>
    obtain ⟨m, hm, -, -, -, hmove, rfl⟩ := startReviews_ok h
    refine .of hm rfl (.rests _ _ ⟨rfl, rfl, rfl, rfl, fun haccepted => ?_⟩) (nomatch ·) .inl
    rw [haccepted] at hmove
    obtain hmove | hmove := hmove <;> cases hmove
  | requestRepair id s findings =>
    obtain ⟨m, hm, hkind, hsubject, -, hstate, rfl⟩ := requestRepair_ok h
    exact .of hm rfl (.repairs s findings hkind hsubject hstate) (nomatch ·) .inl
  | resolveCandidateBlocker id c gate resolution =>
    obtain ⟨m, b, hm, hcandidate, hblocker, hgate, rfl⟩ := resolve_ok h
    exact .of hm rfl (.resolves c gate resolution b hcandidate hblocker hgate) (nomatch ·) .inl
  | promoteCandidate id s ids =>
    obtain ⟨m, hm, hkind, hsubject, ⟨-, -, rfl⟩ | ⟨hgit, hstate, rfl⟩ | ⟨hadopted, hclose⟩⟩ :=
      promote_ok h
    · exact .keeps rfl (nomatch ·) .inl
    · exact .of hm rfl (.promotes s ids hkind hsubject hgit hstate) (nomatch ·) .inl
    · obtain ⟨m₁, hm₁, hclosed⟩ := closeNode_ok hclose
      obtain rfl := Option.some.inj ((Table.get?_set_self hm _).symm.trans hm₁)
      obtain ⟨rfl, -, -, hstate⟩ | ⟨m', hcloses, hrefresh⟩ := hclosed
      · rw [promote_state] at hstate
        exact .of hm rfl (.promotesClosed s ids hkind hsubject hadopted hstate) (nomatch ·) .inl
      · refine .of hm ?_ (.promotesAdopted s ids m' hkind hsubject hadopted hcloses) (nomatch ·)
          fun hcompleted => .inr (hrefresh.completed hcompleted)
        rw [hrefresh.milestones, setMilestone_milestones, setMilestone_milestones, Table.set_set]
  | integrateCandidate id c head strategy =>
    obtain ⟨m, hm, hcandidate, -, hgit, hpromoted, ⟨hnone, rfl⟩ | ⟨i, -, -, rfl⟩⟩ := integrate_ok h
    · exact .of hm rfl (.authorizes c strategy hcandidate hgit hpromoted hnone head) (nomatch ·)
        .inl
    · exact .keeps rfl (nomatch ·) .inl
  | requireReplan reason | requireHumanAttention reason =>
    obtain rfl := pure_eq_ok.1 h
    exact .keeps rfl (nomatch ·) (nomatch ·)
  | acknowledgeOnly =>
    obtain rfl := pure_eq_ok.1 h
    exact .keeps rfl (nomatch ·) .inl

theorem recordActionEffect_step {actionId effectId : String} {b : ProgramBundle}
    {state : EffectState} {isNew : Bool}
    (h : P.recordActionEffect actionId effectId b state = .ok (P', isNew)) :
    P.Step digests now .effect P' := by
  obtain rfl | ⟨id, m, hm, rfl | rfl⟩ := recordActionEffect_ok h
  · exact .keeps rfl (nomatch ·) .inl
  · exact .of hm rfl (.affects actionId effectId state) (nomatch ·) .inl
  · exact .of hm rfl (.affects actionId effectId state) (nomatch ·) (nomatch ·)

end Program

/-- What depends on the milestones only, and every action of the bundle keeps, its commit keeps. -/
theorem commitActions_induction {J : Program → Prop} {b : ProgramBundle}
    (hrow : ∀ P P' : Program, P'.milestones = P.milestones → J P → J P')
    (hstep : ∀ action ∈ b.actions, ∀ P P' : Program, J P →
      P.Step digests now (.action action) P' → J P')
    (h : P.commitActions digests queue b now = .ok P') (hJ : J P) : J P' := by
  simp only [Program.commitActions, Program.actionEffects, bind_eq_ok, pure_eq_ok] at h
  obtain ⟨P₁, ⟨-, -, hactions⟩, rfl⟩ := h
  have hJ₁ : J P₁ := applyActions_induction
    (fun action hmem Q Q' hQ haction => hstep action hmem Q Q' hQ (Program.applyAction_step haction))
    hactions hJ
  exact hrow P₁ _ rfl hJ₁

/-! ### Milestones of reachable programs -/

def Program.AllMilestones (I : Milestone → Prop) (P : Program) : Prop :=
  ∀ id m, P.milestones.get? id = some m → I m

namespace Program.AllMilestones

variable {I : Milestone → Prop}

theorem set (h : P.AllMilestones I) (hm : P.milestones.get? id = some m)
    (hset : P'.milestones = P.milestones.set id m') (hI : I m') : P'.AllMilestones I := by
  intro other m₀ hm₀
  rw [hset] at hm₀
  by_cases hother : other = id
  · subst hother
    rw [Table.get?_set_self hm] at hm₀
    cases hm₀
    exact hI
  · exact h other m₀ (by rwa [Table.get?_set_ne _ hother] at hm₀)

theorem registered (hI : ∀ node, I { node := node }) {g : ProgramGraph}
    (h : g.register = .ok P) : P.AllMilestones I := by
  intro id m hm
  rw [System.register_ok h] at hm
  obtain ⟨entry, -, hentry⟩ := List.mem_map.1 (Table.get?_eq_some.1 hm)
  obtain ⟨rfl, rfl⟩ := Prod.mk.inj hentry
  exact hI entry.2

end Program.AllMilestones

/-! ### One milestone of a system -/

namespace System

variable {host : Host} {S S' : System} {op : Op} {programId : String}

def milestone? (S : System) (programId id : String) : Option Milestone :=
  (S.programs.get? programId).bind (·.milestones.get? id)

theorem milestone?_eq_some : S.milestone? programId id = some m ↔
    ∃ P, S.programs.get? programId = some P ∧ P.milestones.get? id = some m :=
  Option.bind_eq_some_iff

theorem perform_call {call : Call} (hok : (S.perform host (.call programId call now)).isOk) :
    ∃ P P' event, S.programs.get? programId = some P ∧
      P.run host.digests now call = .ok (P', event) ∧
        (S.next host (.call programId call now)).programs.get? programId = some P' := by
  obtain ⟨S', hS'⟩ : ∃ S', S.perform host (.call programId call now) = .ok S' := by
    cases h : S.perform host (.call programId call now) with
    | error e =>
      rw [h] at hok
      cases hok
    | ok S' => exact ⟨S', rfl⟩
  have hnext : S.next host (.call programId call now) = S' := by
    unfold next
    rw [hS']
    rfl
  obtain ⟨-, hbody, -⟩ := perform_ok.1 hS'
  simp only [body, callProgram, bind_eq_ok, program_eq_ok, pure_eq_ok] at hbody
  obtain ⟨P, hP, ⟨P', event⟩, hrun, L, -, rfl⟩ := hbody
  exact ⟨P, P', event, hP, hrun, hnext ▸ Table.get?_set_self hP P'⟩

end System

def Milestone.ActionStep (digests : Digests) (id : String) (b : ProgramBundle)
    (m m' : Milestone) : Prop :=
  ∃ P now, ∃ action ∈ b.actions, m.Step digests P id now (.action action) m'

def Milestone.ActionSteps (digests : Digests) (id : String) (b : ProgramBundle) :
    Milestone → Milestone → Prop :=
  Relation.ReflTransGen (Milestone.ActionStep digests id b)

theorem commitActions_milestone {b : ProgramBundle}
    (h : P.commitActions digests queue b now = .ok P') (hm : P.milestones.get? id = some m) :
    ∃ m', P'.milestones.get? id = some m' ∧ m.ActionSteps digests id b m' := by
  refine commitActions_induction
    (J := fun Q => ∃ m', Q.milestones.get? id = some m' ∧ m.ActionSteps digests id b m')
    (fun Q Q' hsame hQ => hsame ▸ hQ) (fun action hmem Q Q' hQ hstep => ?_) h ⟨m, hm, .refl⟩
  obtain ⟨m₁, hm₁, hsteps⟩ := hQ
  obtain hsame | ⟨other, m₂, m', hm₂, hset, hm'⟩ := hstep.milestones
  · exact ⟨m₁, hsame ▸ hm₁, hsteps⟩
  · by_cases hother : id = other
    · subst hother
      obtain rfl := Option.some.inj (hm₁.symm.trans hm₂)
      exact ⟨m', hset ▸ Table.get?_set_self hm₁ m', hsteps.tail ⟨Q, now, action, hmem, hm'⟩⟩
    · exact ⟨m₁, hset ▸ (Table.get?_set_ne _ hother _).trans hm₁, hsteps⟩

/-- What an operation makes of a milestone. -/
inductive System.Touches (host : Host) (S : System) (programId id : String) (m : Milestone) :
    Op → Milestone → Prop
  | keeps (op : Op) : Touches host S programId id m op m
  | call (call : Call) (now : Time) (P : Program) (m' : Milestone)
      (hP : S.programs.get? programId = some P)
      (hstep : m.Step host.digests P id now (.call call) m') :
    Touches host S programId id m (.call programId call now) m'
  | bundle (q : System.Submission) (now : Time) (m' : Milestone)
      (hprogram : q.bundle.programId = programId)
      (hsteps : m.ActionSteps host.digests id q.bundle m') :
    Touches host S programId id m (.submit q now) m'
  | effect (actionId effectId : String) (state : EffectState) (now : Time) (P : Program)
      (m' : Milestone) (hstep : m.Step host.digests P id now .effect m') :
    Touches host S programId id m (.effect actionId effectId state now) m'

theorem Program.Step.milestone {act : Act} (h : P.Step digests now act P')
    (hm : P.milestones.get? id = some m) :
    ∃ m', P'.milestones.get? id = some m' ∧ (m' = m ∨ m.Step digests P id now act m') := by
  obtain hsame | ⟨other, m₀, m', hm₀, hset, hm'⟩ := h.milestones
  · exact ⟨m, hsame ▸ hm, .inl rfl⟩
  · by_cases hother : id = other
    · subst hother
      obtain rfl := Option.some.inj (hm.symm.trans hm₀)
      exact ⟨m', hset ▸ Table.get?_set_self hm m', .inr hm'⟩
    · exact ⟨m, hset ▸ (Table.get?_set_ne _ hother _).trans hm, .inl rfl⟩

theorem System.Moves.touches {host : Host} {S S' : System} {op : Op} {programId : String}
    (h : S.Moves host op S') (h₀ : S.milestone? programId id = some m) :
    ∃ m', S'.milestone? programId id = some m' ∧ S.Touches host programId id m op m' := by
  obtain ⟨P, hP, hm⟩ := System.milestone?_eq_some.1 h₀
  have hother : ∀ {key : String} {Q : Program}, programId ≠ key →
      ((S.programs.set key Q).get? programId).bind (·.milestones.get? id) = some m := by
    intro key Q hkey
    rw [Table.get?_set_ne _ hkey, hP, Option.bind_some, hm]
  have hself : ∀ {Q : Program} {m' : Milestone}, Q.milestones.get? id = some m' →
      ((S.programs.set programId Q).get? programId).bind (·.milestones.get? id) = some m' := by
    intro Q m' hm'
    rw [Table.get?_set_self hP, Option.bind_some, hm']
  cases h with
  | ledger op L => exact ⟨m, System.milestone?_eq_some.2 ⟨P, hP, hm⟩, .keeps op⟩
  | registers g Q hregister hfresh =>
    have hkey : programId ≠ g.programId := by
      rintro rfl
      rw [hfresh] at hP
      cases hP
    refine ⟨m, System.milestone?_eq_some.2 ⟨P, ?_, hm⟩, .keeps _⟩
    exact (Table.get?_insert_ne _ hkey _).trans hP
  | calls key call now Q Q' event L hQ hrun =>
    by_cases hkey : programId = key
    · subst hkey
      obtain rfl := Option.some.inj (hP.symm.trans hQ)
      obtain ⟨m', hm', rfl | hstep⟩ := (Program.run_step hrun).milestone hm
      · exact ⟨m', hself hm', .keeps _⟩
      · exact ⟨m', hself hm', .call call now P m' hP hstep⟩
    · exact ⟨m, hother hkey, .keeps _⟩
  | commits q now event Q Q' L hcommit =>
    by_cases hkey : programId = q.bundle.programId
    · subst hkey
      obtain rfl := Option.some.inj (hP.symm.trans hcommit.program)
      obtain ⟨m', hm', hsteps⟩ := commitActions_milestone hcommit.effects hm
      exact ⟨m', hself hm', .bundle q now m' rfl hsteps⟩
    · exact ⟨m, hother hkey, .keeps _⟩
  | effects actionId effectId state now action Q Q' isNew L haction hQ heffect =>
    by_cases hkey : programId = action.event.programId
    · subst hkey
      obtain rfl := Option.some.inj (hP.symm.trans hQ)
      obtain ⟨m', hm', rfl | hstep⟩ :=
        (Program.recordActionEffect_step heffect).milestone hm
      · exact ⟨m', hself hm', .keeps _⟩
      · exact ⟨m', hself hm', .effect actionId effectId state now P m' hstep⟩
    · exact ⟨m, hother hkey, .keeps _⟩

end CodexFlow.Programs
