import CodexFlow.Programs.Revisions

/-!
# One start a worker

A bundle that starts an executor or reviewers is checked against the dispatches that there are, and
those are made by the effects of the bundle, after its commit. So two bundles start one worker
exactly when the second is committed before the dispatch of the first is there.
-/

namespace CodexFlow.Programs

open Ledger (Time)
open Checked

variable {digests : Digests} {P P' : Program} {m m' : Milestone} {id : String} {now : Time}
  {queue : QueueStates} {trunkHead : String} {host : Host} {S : System}

/-! ### Dispatches of a program -/

namespace Program

def dispatchesOf (P : Program) (id : String) : List DispatchRow :=
  ((P.milestones.get? id).map (·.dispatches)).getD []

theorem dispatchesOf_eq (hm : P.milestones.get? id = some m) : P.dispatchesOf id = m.dispatches := by
  unfold dispatchesOf
  rw [hm]
  rfl

theorem dispatchesOf_set (hm : P.milestones.get? id = some m)
    (hsame : m'.dispatches = m.dispatches) (other : String) :
    (P.setMilestone id m').dispatchesOf other = P.dispatchesOf other := by
  unfold dispatchesOf
  by_cases hother : other = id
  · subst hother
    rw [setMilestone_milestones, Table.get?_set_self hm, hm, Option.map_some, Option.map_some, hsame]
  · rw [setMilestone_milestones, Table.get?_set_ne _ hother]

theorem promote_dispatches (s : Subject) (ids : List String) :
    (m.promote s ids).dispatches = m.dispatches := by
  unfold Milestone.promote
  split_ifs <;> rfl

theorem Closes.dispatches {q : Closure} (h : P.Closes digests id q now m m') :
    m'.dispatches = m.dispatches := by
  obtain ⟨closed, hclosed, rfl⟩ := h.closed
  show (Milestone.promote _ _ _).dispatches = _
  rw [promote_dispatches, closeOutcome_state hclosed]

theorem applyAction_dispatches {action : ProgramAction}
    (h : P.applyAction digests queue trunkHead now action = .ok P') (other : String) :
    P'.dispatchesOf other = P.dispatchesOf other := by
  cases action with
  | startReadyMilestones ids =>
    obtain ⟨rfl, -⟩ := startReadyMilestones_ok h
    rfl
  | startReviews id s roles =>
    obtain ⟨m, hm, -, -, -, -, rfl⟩ := startReviews_ok h
    exact dispatchesOf_set hm (by rfl) other
  | requestRepair id s findings =>
    obtain ⟨m, hm, -, -, -, -, rfl⟩ := requestRepair_ok h
    exact dispatchesOf_set hm (by rfl) other
  | resolveCandidateBlocker id c gate resolution =>
    obtain ⟨m, -, hm, -, -, -, rfl⟩ := resolve_ok h
    exact dispatchesOf_set hm (by rfl) other
  | promoteCandidate id s ids =>
    obtain ⟨m, hm, -, -, ⟨-, -, rfl⟩ | ⟨-, -, rfl⟩ | ⟨-, hclose⟩⟩ := promote_ok h
    · rfl
    · exact dispatchesOf_set hm (by exact promote_dispatches s ids) other
    · have hpromoted := dispatchesOf_set hm (promote_dispatches s ids) other
      obtain ⟨m₁, hm₁, ⟨rfl, -⟩ | ⟨m', hcloses, hrefresh⟩⟩ := closeNode_ok hclose
      · exact hpromoted
      · rw [← hpromoted, ← dispatchesOf_set hm₁ hcloses.dispatches other]
        unfold dispatchesOf
        rw [hrefresh.milestones]
  | integrateCandidate id c head strategy =>
    obtain ⟨m, hm, -, -, -, -, ⟨-, rfl⟩ | ⟨i, -, -, rfl⟩⟩ := integrate_ok h
    · exact dispatchesOf_set hm (by rfl) other
    · rfl
  | requireReplan reason | requireHumanAttention reason =>
    rw [← pure_eq_ok.1 h]
    rfl
  | acknowledgeOnly => rw [← pure_eq_ok.1 h]

end Program

/-! ### What a bundle starts -/

namespace ProgramBundle

def starts (b : ProgramBundle) (id : String) : Prop :=
  ∃ ids, .startReadyMilestones ids ∈ b.actions ∧ id ∈ ids

def reviews (b : ProgramBundle) (id : String) (s : Subject) (role : String) : Prop :=
  ∃ roles, .startReviews id s roles ∈ b.actions ∧ role ∈ roles

end ProgramBundle

/-- An action of a committed bundle was applied to a program with the dispatches of the one that the
bundle found. -/
theorem commitActions_applies {b : ProgramBundle} {action : ProgramAction}
    (h : P.commitActions digests queue b now = .ok P') (hmem : action ∈ b.actions) :
    ∃ Q Q' : Program, Q.applyAction digests queue P.trunkHead now action = .ok Q' ∧
      Q.programId = P.programId ∧ ∀ id, Q.dispatchesOf id = P.dispatchesOf id := by
  simp only [Program.commitActions, Program.actionEffects, bind_eq_ok, pure_eq_ok] at h
  obtain ⟨P₁, ⟨-, -, hactions⟩, -⟩ := h
  obtain ⟨before, after, hsplit⟩ := List.append_of_mem hmem
  rw [hsplit, List.foldlM_append, bind_eq_ok] at hactions
  obtain ⟨Q, hbefore, hafter⟩ := hactions
  rw [List.foldlM_cons, bind_eq_ok] at hafter
  obtain ⟨Q', happly, -⟩ := hafter
  have hkept : Q.programId = P.programId ∧ ∀ id, Q.dispatchesOf id = P.dispatchesOf id :=
    applyActions_induction
      (J := fun Q => Q.programId = P.programId ∧ ∀ id, Q.dispatchesOf id = P.dispatchesOf id)
      (fun _ _ _ _ hJ haction => ⟨(applyAction_continues haction).programId.trans hJ.1,
        fun id => (Program.applyAction_dispatches haction id).trans (hJ.2 id)⟩)
      hbefore ⟨rfl, fun _ => rfl⟩
  exact ⟨Q, Q', happly, hkept⟩

theorem latestGeneration_congr (h : m'.dispatches = m.dispatches) (role : String) :
    m'.latestGeneration role = m.latestGeneration role := by
  unfold Milestone.latestGeneration
  rw [h]

theorem commitActions_starts {b : ProgramBundle}
    (h : P.commitActions digests queue b now = .ok P') (hstarts : b.starts id) :
    ∀ d ∈ P.dispatchesOf id, d.role ≠ executor := by
  obtain ⟨ids, haction, hid⟩ := hstarts
  obtain ⟨Q, Q', happly, -, hsame⟩ := commitActions_applies h haction
  obtain ⟨m, hm, hfree⟩ := (Program.startReadyMilestones_ok happly).2 id hid
  intro d hd hrole
  rw [← hsame, Program.dispatchesOf_eq hm] at hd
  have hne := List.any_eq_false.1 hfree d hd
  simp [hrole] at hne

/-- A committed review found the last dispatch of its role, if there was one, over. -/
theorem commitActions_reviews {b : ProgramBundle} {s : Subject} {role : String}
    (h : P.commitActions digests queue b now = .ok P') (hreviews : b.reviews id s role)
    (hm : P.milestones.get? id = some m) (hlatest : m.latestGeneration role ≠ 0) :
    (queue ⟨P.programId, id, role, m.latestGeneration role⟩).any
      (· ∈ [.completed, .failed, .cancelled]) := by
  obtain ⟨roles, haction, hrole⟩ := hreviews
  obtain ⟨Q, Q', happly, hid, hsame⟩ := commitActions_applies h haction
  obtain ⟨m', hm', -, -, hfree, -⟩ := Program.startReviews_ok happly
  have hdispatches : m'.dispatches = m.dispatches := by
    rw [← Program.dispatchesOf_eq hm', ← Program.dispatchesOf_eq hm]
    exact hsame id
  have hover := hfree role hrole
  unfold Program.reviewerIsFree at hover
  rw [latestGeneration_congr hdispatches, hid, Bool.or_eq_true, decide_eq_true_eq] at hover
  exact hover.resolve_left hlatest

/-! ### The commits of a run -/

structure Commit where
  system : System
  action : CommittedAction

namespace Commit

variable (c : Commit)

def programId : String := c.action.bundle.programId

/-- The dispatches of the milestone when the bundle was committed. -/
def dispatches (id : String) : List DispatchRow :=
  ((c.system.programs.get? c.programId).map (·.dispatchesOf id)).getD []

/-- The queue had the dispatch as over when the bundle was committed. -/
def isOver (id : String) (d : DispatchRow) : Bool :=
  (c.system.queueStates ⟨c.programId, id, d.role, d.generation⟩).any
    (· ∈ [.completed, .failed, .cancelled])

/-- A later bundle of the program starts no executor that an earlier one did, and no reviewer unless
one was dispatched and over in between. -/
structure Separate (c c' : Commit) : Prop where
  executors : c'.programId = c.programId → ∀ id, c.action.bundle.starts id →
    ¬c'.action.bundle.starts id
  reviewers : c'.programId = c.programId → ∀ id s role, c.action.bundle.reviews id s role →
    c'.action.bundle.reviews id s role →
      ∃ d ∈ c'.dispatches id, d.role = role ∧ d ∉ c.dispatches id ∧ c'.isOver id d

/-- Where a later bundle starts a worker again, the earlier one has its dispatch. -/
structure Dispatched (c c' : Commit) : Prop where
  executors : c'.programId = c.programId → ∀ id, c.action.bundle.starts id →
    c'.action.bundle.starts id → ∃ d ∈ c'.dispatches id, d.role = executor
  reviewers : c'.programId = c.programId → ∀ id s role, c.action.bundle.reviews id s role →
    c'.action.bundle.reviews id s role → ∃ d ∈ c'.dispatches id, d.role = role ∧ d ∉ c.dispatches id

end Commit

namespace System

def committedBy (host : Host) (S : System) (op : Op) : List Commit :=
  ((S.next host op).actions.drop S.actions.length).map (Commit.mk S)

def commitLog (host : Host) : System → List Op → List Commit
  | _, [] => []
  | S, op :: ops => S.committedBy host op ++ commitLog host (S.next host op) ops

theorem committedBy_cases (host : Host) (S : System) (op : Op) :
    S.committedBy host op = [] ∧ (S.next host op).actions = S.actions ∨
      ∃ q now event P P' L, S.Commits host q now event P P' L ∧
        S.committedBy host op = [⟨S, q.bundle.actionId host, event, q.bundle⟩] ∧
        (S.next host op).actions = S.actions ++ [⟨q.bundle.actionId host, event, q.bundle⟩] := by
  have hmoves := next_moves host S op
  unfold committedBy
  generalize S.next host op = S' at hmoves ⊢
  have hkept : S'.actions = S.actions →
      (S'.actions.drop S.actions.length).map (Commit.mk S) = [] ∧ S'.actions = S.actions := by
    intro hsame
    rw [hsame, List.drop_length]
    exact ⟨rfl, rfl⟩
  cases hmoves with
  | ledger op L => exact .inl (hkept rfl)
  | registers g P hregister hfresh => exact .inl (hkept rfl)
  | calls programId call now P P' event L hP hrun => exact .inl (hkept rfl)
  | effects actionId effectId state now action P P' isNew L haction hP heffect =>
    exact .inl (hkept rfl)
  | commits q now event P P' L hcommit =>
    refine .inr ⟨q, now, event, P, P', L, hcommit, ?_, rfl⟩
    show ((S.actions ++ [_]).drop _).map _ = _
    rw [List.drop_left]
    rfl

theorem commitLog_actions (host : Host) (S : System) (ops : List Op) :
    (Machine.run (next host) S ops).actions =
      S.actions ++ (commitLog host S ops).map (·.action) := by
  induction ops generalizing S with
  | nil => exact (List.append_nil _).symm
  | cons op ops ih =>
    rw [Machine.run_cons, ih, commitLog, List.map_append, ← List.append_assoc]
    congr 1
    obtain ⟨hlog, hactions⟩ | ⟨q, now, event, P, P', L, -, hlog, hactions⟩ :=
      committedBy_cases host S op
    · rw [hlog, hactions, List.map_nil, List.append_nil]
    · rw [hlog, hactions, List.map_singleton]

theorem mem_commitLog {c : Commit} {ops : List Op} (h : c ∈ commitLog host S ops) :
    ∃ before, c.system = Machine.run (next host) S before ∧
      ∃ q now event P P' L, c.system.Commits host q now event P P' L ∧
        c.action = ⟨q.bundle.actionId host, event, q.bundle⟩ := by
  induction ops generalizing S with
  | nil => exact absurd h List.not_mem_nil
  | cons op ops ih =>
    obtain h | h := List.mem_append.1 h
    · obtain ⟨hlog, -⟩ | ⟨q, now, event, P, P', L, hcommit, hlog, -⟩ := committedBy_cases host S op
      · rw [hlog] at h
        exact absurd h List.not_mem_nil
      · rw [hlog] at h
        obtain rfl := List.mem_singleton.1 h
        exact ⟨[], rfl, q, now, event, P, P', L, hcommit, rfl⟩
    · obtain ⟨before, hsystem, hcommit⟩ := ih h
      exact ⟨op :: before, hsystem, hcommit⟩

theorem commitLog_continues (host : Host) (S : System) (ops : List Op) :
    (commitLog host S ops).Pairwise fun c c' => c.system.Continues c'.system := by
  induction ops generalizing S with
  | nil => exact .nil
  | cons op ops ih =>
    refine List.pairwise_append.2 ⟨?_, ih _, ?_⟩
    · obtain ⟨hlog, -⟩ | ⟨q, now, event, P, P', L, -, hlog, -⟩ := committedBy_cases host S op
      · rw [hlog]
        exact .nil
      · rw [hlog]
        exact List.pairwise_singleton _ _
    · intro c hc c' hc'
      obtain ⟨a, -, rfl⟩ := List.mem_map.1 hc
      obtain ⟨before, hsystem, -⟩ := mem_commitLog hc'
      rw [hsystem]
      exact (next_continues host S op).trans (run_continues host _ before)

end System

/-! ### Starts of a run -/

theorem System.Reachable.numbered (hS : S.Reachable host) (hP : S.programs.get? id = some P)
    {milestoneId : String} (hm : P.milestones.get? milestoneId = some m) : m.Numbered := by
  have hkept : ∀ {P P' : Program}, P.Continues P' →
      (∀ id m, P.milestones.get? id = some m → m.Numbered) →
        ∀ id m, P'.milestones.get? id = some m → m.Numbered := by
    intro P P' hcontinues hI id m' hm'
    have hkey : id ∈ P.milestones.keys := hcontinues.keys ▸ Table.mem_keys_of_get? hm'
    cases hm : P.milestones.get? id with
    | none => exact absurd hkey (Table.get?_eq_none.1 hm)
    | some m =>
      obtain ⟨m₁, hm₁, hmilestone⟩ := hcontinues.milestones id m hm
      obtain rfl := Option.some.inj (hm₁.symm.trans hm')
      exact hmilestone.numbered (hI id m hm)
  refine System.Reachable.program (I := fun P => ∀ id m, P.milestones.get? id = some m → m.Numbered)
    ?_ (fun _ _ _ _ _ hI h => hkept (Programs.run_continues h) hI)
    (fun _ _ _ _ _ hI h => hkept (commitActions_continues h).1 hI)
    (fun _ _ _ _ _ _ _ hI h => hkept (recordActionEffect_continues h) hI) hS hP _ m hm
  intro g P hregister id m hm
  rw [System.register_ok hregister] at hm
  obtain ⟨entry, -, hentry⟩ := List.mem_map.1 (Table.get?_eq_some.1 hm)
  obtain ⟨rfl, rfl⟩ := Prod.mk.inj hentry
  exact ⟨fun d hd => absurd hd List.not_mem_nil, .nil⟩

namespace Commit

variable {c c' : Commit}

/-- Where the dispatches of the earlier bundle are there, the checks of the later one see them. -/
theorem Dispatched.separate (h : c.Dispatched c') (hcontinues : c.system.Continues c'.system)
    (hreachable : c'.system.Reachable host) {q : System.Submission} {event : Ledger.ProgramEvent}
    {L : Ledger} (hcommit : c'.system.Commits host q now event P P' L)
    (haction : c'.action = ⟨q.bundle.actionId host, event, q.bundle⟩) : c.Separate c' := by
  have hbundle : c'.action.bundle = q.bundle := congrArg CommittedAction.bundle haction
  have hP : c'.system.programs.get? c'.programId = some P := by
    unfold programId
    rw [hbundle]
    exact hcommit.program
  have hdispatches : ∀ id, c'.dispatches id = P.dispatchesOf id := by
    intro id
    unfold dispatches
    rw [hP]
    rfl
  constructor
  · intro hsame id hstarts hstarts'
    obtain ⟨d, hd, hrole⟩ := h.executors hsame id hstarts hstarts'
    rw [hbundle] at hstarts'
    rw [hdispatches] at hd
    exact commitActions_starts hcommit.effects hstarts' d hd hrole
  · intro hsame id s role hreviews hreviews'
    obtain ⟨d, hd, rfl, hnew⟩ := h.reviewers hsame id s role hreviews hreviews'
    rw [hbundle] at hreviews'
    cases hm : P.milestones.get? id with
    | none =>
      rw [hdispatches, Program.dispatchesOf, hm] at hd
      exact absurd hd List.not_mem_nil
    | some m =>
      have hrows : c'.dispatches id = m.dispatches :=
        (hdispatches id).trans (Program.dispatchesOf_eq hm)
      rw [hrows] at hd ⊢
      have hnumbered := hreachable.numbered hP hm
      have hle := Milestone.le_latestGeneration hd
      have hlatest : m.latestGeneration d.role ≠ 0 :=
        Nat.ne_of_gt ((hnumbered.positive d hd).trans_le hle)
      have hlast := Milestone.mem_of_latestGeneration hlatest
      refine ⟨_, hlast, rfl, ?_, ?_⟩
      · -- the last dispatch is no earlier than the new one, so it is new itself
        intro hold
        have hstart : c.dispatches id <+: m.dispatches := by
          rw [← hrows]
          unfold dispatches
          rw [← hsame]
          cases hQ : c.system.programs.get? c'.programId with
          | none => exact List.nil_prefix
          | some Q =>
            obtain ⟨Q', hQ', hQcontinues⟩ := hcontinues _ _ hQ
            rw [hQ']
            show Q.dispatchesOf id <+: Q'.dispatchesOf id
            cases hmQ : Q.milestones.get? id with
            | none =>
              rw [Program.dispatchesOf, hmQ]
              exact List.nil_prefix
            | some mQ =>
              obtain ⟨mQ', hmQ', hmilestone⟩ := hQcontinues.milestones id mQ hmQ
              rw [Program.dispatchesOf_eq hmQ, Program.dispatchesOf_eq hmQ']
              exact hmilestone.dispatches
        obtain ⟨rest, hrest⟩ := hstart
        have hrising := hnumbered.rising
        rw [← hrest] at hd hrising
        have hlt := (List.pairwise_append.1 hrising).2.2 _ hold d
          ((List.mem_append.1 hd).resolve_left hnew) rfl
        exact absurd hle (Nat.not_le_of_lt hlt)
      · have hover := commitActions_reviews hcommit.effects hreviews' hm hlatest
        rw [hreachable.programId hP] at hover
        exact hover

end Commit

def secondEvent : Ledger.ProgramEvent := ⟨"run", .checkpoint, "again"⟩

def startM1 : List ProgramAction := [.startReadyMilestones ["m1"]]

/-- A second bundle starts the milestone before the effect of the first is applied. -/
def startedTwice : List Op :=
  [.register (sampleGraph .git), .call "run" (.start "start") 1, claimed startEvent 2,
    submitted (sampleBundle startEvent 1 sampleTrunk startM1 "first") 3,
    .event secondEvent none 4, claimed secondEvent 5,
    submitted (sampleBundle secondEvent 2 sampleTrunk startM1 "second") 6]

namespace System

/-- No worker is started twice in a run exactly when, wherever a bundle starts a worker that an
earlier bundle started, the dispatch of the earlier one is there. -/
theorem starts_once_iff (host : Host) (ops : List Op) :
    (Machine.run (next host) {} ops).actions = (commitLog host {} ops).map (·.action) ∧
      ((commitLog host {} ops).Pairwise Commit.Separate ↔
        (commitLog host {} ops).Pairwise Commit.Dispatched) := by
  refine ⟨commitLog_actions host {} ops, fun h => ?_, fun h => ?_⟩
  · refine h.imp fun hseparate => ⟨?_, ?_⟩
    · intro hsame id hstarts hstarts'
      exact absurd hstarts' (hseparate.executors hsame id hstarts)
    · intro hsame id s role hreviews hreviews'
      obtain ⟨d, hd, hrole, hnew, -⟩ := hseparate.reviewers hsame id s role hreviews hreviews'
      exact ⟨d, hd, hrole, hnew⟩
  · refine (h.and (commitLog_continues host {} ops)).imp_of_mem fun _ hc' hpair => ?_
    obtain ⟨before, hsystem, q, now, event, P, P', L, hcommit, haction⟩ := mem_commitLog hc'
    exact hpair.1.separate hpair.2 ⟨before, hsystem⟩ hcommit haction

/-- No effect is applied between the two bundles, which both start the milestone. -/
theorem startedTwice_repeats :
    ¬(commitLog Host.sample {} startedTwice).Pairwise Commit.Separate := by
  intro h
  have hstarts : ∀ b : ProgramBundle, b.actions = startM1 → b.starts "m1" := by
    intro b hb
    exact ⟨["m1"], hb ▸ List.mem_singleton_self _, List.mem_singleton_self _⟩
  have hlog : ((commitLog Host.sample {} startedTwice).map
      fun c => (c.programId, c.action.bundle.actions)).Pairwise
        fun p p' => p'.1 = p.1 → p.2 = startM1 → p'.2 ≠ startM1 := by
    refine List.pairwise_map.2 (h.imp fun hseparate hsame hfirst hsecond => ?_)
    exact hseparate.executors hsame "m1" (hstarts _ hfirst) (hstarts _ hsecond)
  exact absurd hlog (by decide +kernel)

end System

end CodexFlow.Programs
