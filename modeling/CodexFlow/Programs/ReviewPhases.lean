import CodexFlow.Programs.Transitions

/-!
# Phases of the reviews of a subject

The reviewers beside the architecture reviewer are started together, and the architecture reviewer
once all of them accepted. The phase is read off the completed reviews alone, while the queue has the
outcomes of the dispatches, so a phase that only some of its reviewers finished is not started again.
-/

namespace CodexFlow.Programs

open Ledger (Time)
open Checked

/-! ### The declared roles -/

namespace Node

variable {node : Node} {role : String}

theorem declaredReviewRoles_sublist (node : Node) :
    node.declaredReviewRoles.Sublist [architectureReviewer, "code-reviewer", "visual-reviewer"] :=
  List.filter_sublist.map AcceptanceMode.role

theorem initialReviewRoles_sublist (node : Node) :
    node.initialReviewRoles.Sublist node.declaredReviewRoles := by
  unfold initialReviewRoles
  dsimp only
  split_ifs
  · exact List.Sublist.refl _
  · exact List.filter_sublist

theorem initialReviewRoles_ne_nil (h : role ∈ node.declaredReviewRoles) :
    node.initialReviewRoles ≠ [] := by
  unfold initialReviewRoles
  dsimp only
  split_ifs with hothers
  · exact List.ne_nil_of_mem h
  · exact fun hnil => hothers (List.isEmpty_iff.2 hnil)

/-- Only the architecture reviewer may wait for the others. -/
theorem eq_architectureReviewer (h : role ∈ node.declaredReviewRoles)
    (hinitial : role ∉ node.initialReviewRoles) : role = architectureReviewer := by
  unfold initialReviewRoles at hinitial
  dsimp only at hinitial
  split_ifs at hinitial with hothers
  · exact absurd h hinitial
  · by_contra hne
    exact hinitial (List.mem_filter.2 ⟨h, decide_eq_true hne⟩)

theorem areNames_of_sublist {roles : List String} (hne : roles ≠ [])
    (h : roles.Sublist node.declaredReviewRoles) : ProgramAction.areNames roles := by
  have hall := h.trans (declaredReviewRoles_sublist node)
  have hlength : roles.length ≤ 3 := hall.length_le
  have hnodup : roles.Nodup := hall.nodup (by decide)
  exact decide_eq_true ⟨hne, by omega, hnodup⟩

end Node

namespace Milestone

variable {m : Milestone} {s : Subject} {role : String}

def Reviewed (m : Milestone) (s : Subject) (role : String) : Prop :=
  ∃ r ∈ m.reviewsOf s, r.reviewerRole = role

theorem lastReview_eq_none : m.lastReview s role = none ↔ ¬m.Reviewed s role := by
  unfold lastReview Reviewed
  rw [LastMatch.findLast_eq_none_iff]
  simp

theorem Reviewed.lastReview (h : m.Reviewed s role) :
    ∃ r ∈ m.reviewsOf s, m.lastReview s role = some r := by
  obtain ⟨r, hr⟩ := Option.ne_none_iff_exists'.1 (fun hnone => lastReview_eq_none.1 hnone h)
  exact ⟨r, LastMatch.findLast_mem hr, hr⟩

theorem not_reviewed_of_nil (h : m.reviewsOf s = []) : ¬m.Reviewed s role := by
  rintro ⟨r, hr, -⟩
  rw [h] at hr
  exact absurd hr List.not_mem_nil

/-! ### The eligible phase -/

def Unblocked (m : Milestone) (s : Subject) : Prop :=
  ∀ r ∈ m.reviewsOf s, r.accepted = true ∧ r.promotionBlocking = false

theorem eligibleReviewRoles_of_nil (h : m.reviewsOf s = []) :
    m.eligibleReviewRoles (some s) = m.node.initialReviewRoles := by
  unfold eligibleReviewRoles
  dsimp only
  rw [if_pos (List.isEmpty_iff.2 h)]

/-- A review that some initial reviewer has not made leaves no phase to start. -/
theorem eligibleReviewRoles_of_missing (hne : m.reviewsOf s ≠ [])
    (hrole : role ∈ m.node.initialReviewRoles) (hmissing : ¬m.Reviewed s role) :
    m.eligibleReviewRoles (some s) = [] := by
  have hall : ¬(m.node.initialReviewRoles.all (fun role =>
      (m.lastReview s role).any fun r => r.accepted && !r.promotionBlocking)) = true := by
    intro hall
    have hlast := List.all_eq_true.1 hall role hrole
    rw [lastReview_eq_none.2 hmissing] at hlast
    exact absurd hlast (by decide)
  unfold eligibleReviewRoles
  dsimp only
  rw [if_neg (fun hnil => hne (List.isEmpty_iff.1 hnil)), if_pos hall]

/-- Once the initial reviewers accepted the subject, the architecture reviewer is due. -/
theorem eligibleReviewRoles_of_initial (hne : m.reviewsOf s ≠ []) (hclear : m.Unblocked s)
    (hinitial : ∀ role ∈ m.node.initialReviewRoles, m.Reviewed s role)
    (hdeclared : architectureReviewer ∈ m.node.declaredReviewRoles)
    (hdue : ¬m.Reviewed s architectureReviewer) :
    m.eligibleReviewRoles (some s) = [architectureReviewer] := by
  have hall : m.node.initialReviewRoles.all (fun role =>
      (m.lastReview s role).any fun r => r.accepted && !r.promotionBlocking) = true := by
    refine List.all_eq_true.2 fun role hrole => ?_
    obtain ⟨r, hr, hlast⟩ := (hinitial role hrole).lastReview
    obtain ⟨haccepted, hblocking⟩ := hclear r hr
    rw [hlast]
    show (r.accepted && !r.promotionBlocking) = true
    rw [haccepted, hblocking]
    rfl
  have hnone : (m.lastReview s architectureReviewer).isNone = true := by
    rw [lastReview_eq_none.2 hdue]
    rfl
  unfold eligibleReviewRoles
  dsimp only
  rw [if_neg (fun hnil => hne (List.isEmpty_iff.1 hnil)), if_neg (not_not.2 hall),
    if_pos ⟨hdeclared, hnone⟩]

end Milestone

/-! ### Starting a phase -/

namespace Program

variable {P : Program} {queue : QueueStates} {id : String} {m : Milestone} {s : Subject}
  {role : String} {roles : List String}

/-- The checks of a start of reviews that are about its roles. -/
structure PassesRoleChecks (P : Program) (queue : QueueStates) (id : String) (m : Milestone)
    (s : Subject) (roles : List String) : Prop where
  names : ProgramAction.areNames roles
  eligible : roles = m.eligibleReviewRoles (some s)
  free : ∀ role ∈ roles, P.reviewerIsFree queue id m role

def IsQueued (P : Program) (queue : QueueStates) (id : String) (m : Milestone) (role : String) :
    Prop :=
  m.latestGeneration role ≠ 0 →
    (queue ⟨P.programId, id, role, m.latestGeneration role⟩).isSome

/-- No reviewer of the milestone is at work: every dispatch of one that the queue has is over. -/
def ReviewersRest (P : Program) (queue : QueueStates) (id : String) (m : Milestone) : Prop :=
  ∀ d ∈ m.dispatches, d.role ∈ m.node.declaredReviewRoles →
    ∀ state, queue ⟨P.programId, id, d.role, d.generation⟩ = some state →
      state ∈ ([.completed, .failed, .cancelled] : List Ledger.QueueState)

theorem isQueued_of_free (h : P.reviewerIsFree queue id m role) : P.IsQueued queue id m role := by
  intro hlatest
  simp only [reviewerIsFree, Bool.or_eq_true, decide_eq_true_eq, hlatest, false_or] at h
  obtain ⟨state, hstate, -⟩ := (Option.any_eq_true _ _).1 h
  rw [hstate]
  rfl

theorem free_of_isQueued (hrest : P.ReviewersRest queue id m)
    (hrole : role ∈ m.node.declaredReviewRoles) (h : P.IsQueued queue id m role) :
    P.reviewerIsFree queue id m role := by
  by_cases hlatest : m.latestGeneration role = 0
  · simp [reviewerIsFree, hlatest]
  · obtain ⟨state, hstate⟩ := Option.isSome_iff_exists.1 (h hlatest)
    have hover := hrest _ (Milestone.mem_of_latestGeneration hlatest) hrole state hstate
    simp only [reviewerIsFree, Bool.or_eq_true]
    exact .inr ((Option.any_eq_true _ _).2 ⟨state, hstate, decide_eq_true hover⟩)

/-- A reviewer of the subject is due, none stands against it, and none is at work. -/
structure AwaitsReview (P : Program) (queue : QueueStates) (id : String) (m : Milestone)
    (s : Subject) : Prop where
  subject : m.subject = some s
  due : ∃ role ∈ m.node.declaredReviewRoles, ¬m.Reviewed s role
  clear : m.Unblocked s
  rest : P.ReviewersRest queue id m

/-- The reviews of the subject go on: reviewers without a review of it are eligible, and the start
of just these passes the checks of its roles. -/
structure ReviewsGoOn (P : Program) (queue : QueueStates) (id : String) (m : Milestone)
    (s : Subject) : Prop where
  eligible : m.eligibleReviewRoles (some s) ≠ []
  due : ∀ role ∈ m.eligibleReviewRoles (some s), ¬m.Reviewed s role
  checks : P.PassesRoleChecks queue id m s (m.eligibleReviewRoles (some s))

/-- The reviews are between two phases: no reviewer of the next one was dispatched outside the
queue. -/
inductive BetweenPhases (P : Program) (queue : QueueStates) (id : String) (m : Milestone)
    (s : Subject) : Prop
  | initial (none : m.reviewsOf s = [])
      (queued : ∀ role ∈ m.node.initialReviewRoles, P.IsQueued queue id m role)
  | architecture (some : m.reviewsOf s ≠ [])
      (initial : ∀ role ∈ m.node.initialReviewRoles, m.Reviewed s role)
      (queued : P.IsQueued queue id m architectureReviewer)

theorem ReviewsGoOn.between (h : P.ReviewsGoOn queue id m s) : P.BetweenPhases queue id m s := by
  have hqueued : ∀ role ∈ m.eligibleReviewRoles (some s), P.IsQueued queue id m role :=
    fun role hrole => isQueued_of_free (h.checks.free role hrole)
  by_cases hnil : m.reviewsOf s = []
  · rw [Milestone.eligibleReviewRoles_of_nil hnil] at hqueued
    exact .initial hnil hqueued
  · have hinitial : ∀ role ∈ m.node.initialReviewRoles, m.Reviewed s role := by
      intro role hrole
      by_contra hmissing
      exact h.eligible (Milestone.eligibleReviewRoles_of_missing hnil hrole hmissing)
    obtain ⟨role, hrole⟩ := List.exists_mem_of_ne_nil _ h.eligible
    have hsub : m.eligibleReviewRoles (some s) ⊆ [architectureReviewer] := by
      unfold Milestone.eligibleReviewRoles
      dsimp only
      rw [if_neg (fun hempty => hnil (List.isEmpty_iff.1 hempty))]
      split_ifs
      · exact List.Subset.refl _
      · exact List.nil_subset _
      · exact List.nil_subset _
    obtain rfl := List.mem_singleton.1 (hsub hrole)
    exact .architecture hnil hinitial (hqueued _ hrole)

theorem AwaitsReview.goesOn (h : P.AwaitsReview queue id m s)
    (hbetween : P.BetweenPhases queue id m s) : P.ReviewsGoOn queue id m s := by
  obtain ⟨role, hrole, hdue⟩ := h.due
  cases hbetween with
  | initial hnil hqueued =>
    have heligible := Milestone.eligibleReviewRoles_of_nil hnil
    have hsub := Node.initialReviewRoles_sublist m.node
    have hne := Node.initialReviewRoles_ne_nil hrole
    refine ⟨heligible ▸ hne, fun _ _ => Milestone.not_reviewed_of_nil hnil, ?_, rfl, ?_⟩
    · rw [heligible]
      exact Node.areNames_of_sublist hne hsub
    · rw [heligible]
      exact fun role hrole => free_of_isQueued h.rest (hsub.subset hrole) (hqueued role hrole)
  | architecture hne hinitial hqueued =>
    obtain rfl := Node.eq_architectureReviewer hrole fun hmem => hdue (hinitial _ hmem)
    have heligible := Milestone.eligibleReviewRoles_of_initial hne h.clear hinitial hrole hdue
    refine ⟨by simp [heligible], ?_, ?_, rfl, ?_⟩
    · rw [heligible]
      intro role hmem
      rwa [List.mem_singleton.1 hmem]
    · rw [heligible]
      decide
    · rw [heligible]
      intro role hmem
      rw [List.mem_singleton.1 hmem]
      exact free_of_isQueued h.rest hrole hqueued

end Program

namespace System

/-- In every state of every run, the reviews of a subject that awaits one go on exactly between two
phases: a phase that some of its reviewers finished, and others did not, is never started again. -/
theorem reviews_go_on (host : Host) (ops : List Op) :
    let S := Machine.run (next host) {} ops
    ∀ programId P id m s, S.programs.get? programId = some P → P.milestones.get? id = some m →
      P.AwaitsReview S.queueStates id m s →
      (P.ReviewsGoOn S.queueStates id m s ↔ P.BetweenPhases S.queueStates id m s) := by
  intro S programId P id m s hP hm h
  exact ⟨Program.ReviewsGoOn.between, h.goesOn⟩

end System

/-! ### Two reviewers of one candidate -/

/-- A milestone that both a code reviewer and a visual reviewer look at. -/
def reviewedGraph : ProgramGraph :=
  { sampleGraph .git with
    nodes :=
      ⟨[("m1", { sampleNode .git with acceptanceModes := [.objective, .visual] })],
        List.nodup_singleton _⟩ }

/-- The executor is done with its candidate. -/
def executed : List Op :=
  [.register reviewedGraph, .call "run" (.claimDispatch "m1" executor) 1,
    .call "run" (.move "m1" .running .starting) 2,
    .call "run" (reported sampleCandidate .completed 1 none) 3]

def onReviewer (role : String) (op : Ledger.DispatchId → Ledger.Op)
    (hop : ∀ d, viaProgram (op d) = false) : Op :=
  .ledger (op s!"run/m1/{role}/1") (hop _)

def dispatched (role : String) : List Op :=
  [.call "run" (.claimReview "m1" role 1) 4,
    onReviewer role (.enqueue · { Ledger.sampleRequest with role := role } 4) fun _ => rfl]

/-- A worker takes the dispatch of the reviewer and hands in its result. -/
def finished (role : String) : List Op :=
  [.ledger (.claim 1 Ledger.nonceSha256 (fun _ => true) (fun _ => false) 5) rfl,
    onReviewer role (.issueCapability ·
      { generation := 1, attempt := 1, schemaSha256 := Ledger.reviewContract,
        workspacePath := "/work", backend := .sdkHeadless,
        tokenSha256 := Ledger.tokenSha256 } 6) fun _ => rfl,
    onReviewer role (.bindLiveness · 1 1 1 ⟨41, "birth"⟩ Ledger.tokenSha256 60000000 7)
      fun _ => rfl,
    onReviewer role (.bindThread · 1 1 1 "token" "thread-1" 8) fun _ => rfl,
    onReviewer role (.commit · ⟨1, 1, "token", Ledger.reviewText⟩ 9) fun _ => rfl]

def codeReview : ReviewResult where
  reviewId := "review-1"
  reviewerRole := "code-reviewer"
  acceptanceMode := .objective
  accepted := true
  findings := []
  reviewedRevision := .commit sampleCandidate
  fresh := true
  readOnly := true

/-- Both reviewers are dispatched; the code reviewer accepts the candidate, and the dispatch of the
visual reviewer is cancelled. -/
def halfReviewed : List Op :=
  executed ++ [.ledger (.acquireHarness Ledger.nonceSha256 (Ledger.seconds 600) 4) rfl] ++
    dispatched "code-reviewer" ++ dispatched "visual-reviewer" ++ finished "code-reviewer" ++
    [.call "run" (.review "m1" codeReview) 10,
      onReviewer "visual-reviewer" (.cancel · none 11) fun _ => rfl]

def ofMilestone (ops : List Op) (p : System → Program → Milestone → Bool) : Bool :=
  let S := Machine.run (System.next Host.sample) {} ops
  (S.programs.get? "run").any fun P => (P.milestones.get? "m1").any fun m => p S P m

theorem exists_of_milestone {ops : List Op} {p : System → Program → Milestone → Bool}
    (h : ofMilestone ops p = true) :
    let S := Machine.run (System.next Host.sample) {} ops
    ∃ P m, S.programs.get? "run" = some P ∧ P.milestones.get? "m1" = some m ∧ p S P m = true := by
  obtain ⟨P, hP, h⟩ := (Option.any_eq_true _ _).1 h
  obtain ⟨m, hm, h⟩ := (Option.any_eq_true _ _).1 h
  exact ⟨P, m, hP, hm, h⟩

/-- A reviewer that a milestone awaits, told by what a run computes. -/
def awaits (S : System) (P : Program) (m : Milestone) (s : Subject) : Bool :=
  m.subject = some s &&
    m.node.declaredReviewRoles.any (fun role => (m.lastReview s role).isNone) &&
    (m.reviewsOf s).all (fun r => r.accepted && !r.promotionBlocking) &&
    m.dispatches.all fun d => (S.queueStates ⟨P.programId, "m1", d.role, d.generation⟩).all
      (· ∈ ([.completed, .failed, .cancelled] : List Ledger.QueueState))

theorem awaitsReview_of_awaits {S : System} {P : Program} {m : Milestone} {s : Subject}
    (h : awaits S P m s = true) : P.AwaitsReview S.queueStates "m1" m s := by
  simp only [awaits, Bool.and_eq_true, decide_eq_true_eq] at h
  obtain ⟨⟨⟨hsubject, hdue⟩, hclear⟩, hrest⟩ := h
  refine ⟨hsubject, ?_, fun r hr => ?_, fun d hd _ state hstate => ?_⟩
  · obtain ⟨role, hrole, hnone⟩ := List.any_eq_true.1 hdue
    exact ⟨role, hrole, Milestone.lastReview_eq_none.1 (Option.isNone_iff_eq_none.1 hnone)⟩
  · simpa using List.all_eq_true.1 hclear r hr
  · have hall := List.all_eq_true.1 hrest d hd
    rw [hstate] at hall
    exact of_decide_eq_true hall

/-- Nobody looked at the candidate yet, so both reviewers can be started. -/
theorem executed_goes_on :
    let S := Machine.run (System.next Host.sample) {} executed
    ∃ (P : Program) (m : Milestone), P.AwaitsReview S.queueStates "m1" m (.commit sampleCandidate) ∧
      P.ReviewsGoOn S.queueStates "m1" m (.commit sampleCandidate) := by
  have hfacts : ofMilestone executed (fun S P m => awaits S P m (.commit sampleCandidate) &&
      (m.reviewsOf (.commit sampleCandidate)).isEmpty &&
      m.node.initialReviewRoles.all fun role => m.latestGeneration role = 0) = true := by
    decide
  obtain ⟨P, m, hP, hm, hfacts⟩ := exists_of_milestone hfacts
  simp only [Bool.and_eq_true] at hfacts
  obtain ⟨⟨hawaits, hnone⟩, hfree⟩ := hfacts
  have hawaits := awaitsReview_of_awaits hawaits
  refine ⟨P, m, hawaits, (System.reviews_go_on Host.sample executed "run" P "m1" m _ hP hm
    hawaits).2 (.initial (List.isEmpty_iff.1 hnone) fun role hrole hlatest => ?_)⟩
  exact absurd (of_decide_eq_true (List.all_eq_true.1 hfree role hrole)) hlatest

/-- The visual reviewer of the candidate is due, but no phase is eligible. -/
theorem halfReviewed_stuck :
    ¬∀ (host : Host) (ops : List Op),
      let S := Machine.run (System.next host) {} ops
      ∀ programId P id m s, S.programs.get? programId = some P → P.milestones.get? id = some m →
        P.AwaitsReview S.queueStates id m s → P.ReviewsGoOn S.queueStates id m s := by
  intro h
  have hfacts : ofMilestone halfReviewed (fun S P m => awaits S P m (.commit sampleCandidate) &&
      (m.eligibleReviewRoles (some (.commit sampleCandidate))).isEmpty) = true := by
    decide +kernel
  obtain ⟨P, m, hP, hm, hfacts⟩ := exists_of_milestone hfacts
  simp only [Bool.and_eq_true] at hfacts
  obtain ⟨hawaits, hnone⟩ := hfacts
  have hgoes := h Host.sample halfReviewed "run" P "m1" m _ hP hm (awaitsReview_of_awaits hawaits)
  exact hgoes.eligible (List.isEmpty_iff.1 hnone)

end CodexFlow.Programs
