import CodexFlow.Review.Endings
import Mathlib

/-!
# The workflow with several reviewers

The inputs on which nothing blocks `ReviewWorkflow.run_multi_authority`, from a round of reviews
back to its start.
-/

namespace CodexFlow.Review

open Hook (Json)
open Programs (AcceptanceMode WorkflowState)
open Raising Review.Flow

variable {s : Session}

/-! ### A round of reviews -/

theorem reviewsGreen_iff {results : List ReviewResult} :
    reviewsGreen results = true ↔ rejectedWithoutBlockers results = [] ∧ blockersIn results = [] := by
  simp only [reviewsGreen, List.all_eq_true, rejectedWithoutBlockers, List.filter_eq_nil_iff,
    blockersIn, List.flatMap_eq_nil_iff, ← forall_and]
  refine forall_congr' fun result => ?_
  by_cases clear : result.promotionBlockers = [] <;> simp [clear]

namespace Round

variable {round : Round} {plan : AuthorityPlan} {args : MultiArguments}

def Hears (round : Round) (plan : AuthorityPlan) (args : MultiArguments) (mode : AcceptanceMode)
    (result : ReviewResult) : Prop :=
  ∃ reviewer, args.callback mode = some reviewer ∧
    reviewer.answer round.index round.token (round.shown mode reviewer) = .ok result ∧
    round.admitReview plan mode result = .ok ()

def exchange (round : Round) (args : MultiArguments) (mode : AcceptanceMode)
    (result : ReviewResult) : Exchange :=
  .review (some mode) round.token ((args.callback mode).bind (round.shown mode)) (.ok result)

theorem Hears.unique {mode : AcceptanceMode} {result result' : ReviewResult}
    (h : round.Hears plan args mode result) (h' : round.Hears plan args mode result') :
    result = result' := by
  obtain ⟨reviewer, callback, answer, -⟩ := h
  obtain ⟨reviewer', callback', answer', -⟩ := h'
  obtain rfl := Option.some.inj (callback.symm.trans callback')
  exact Except.ok.inj (answer.symm.trans answer')

theorem invoke_ends {mode : AcceptanceMode} {Q : Except Raised ReviewResult → Session → Prop}
    (heard : ∀ result, round.Hears plan args mode result → ∀ s', s'.state = s.state →
      s'.exchanges = round.exchange args mode result :: s.exchanges → Q (.ok result) s')
    (unheard : (∀ result, ¬ round.Hears plan args mode result) → ∀ e s', s'.state = s.state →
      Q (.error e) s') :
    Ends (round.invoke plan args mode) s Q := by
  unfold invoke
  split
  · next missing =>
    refine ends_throw.mpr (unheard ?_ _ s rfl)
    rintro _ ⟨_, callback, -⟩
    cases missing.symm.trans callback
  · next reviewer callback =>
    simp only [ends_bind, ends_ask]
    have only : ∀ {result}, round.Hears plan args mode result →
        reviewer.answer round.index round.token (round.shown mode reviewer) = .ok result ∧
          round.admitReview plan mode result = .ok () := by
      rintro _ ⟨_, callback', rest⟩
      obtain rfl := Option.some.inj (callback.symm.trans callback')
      exact rest
    cases answered : reviewer.answer round.index round.token (round.shown mode reviewer) with
    | error e =>
      exact unheard (fun _ h => by cases answered.symm.trans (only h).1) e _ rfl
    | ok result =>
      rw [followed_ok, ends_bind, ends_lift]
      cases admitted : round.admitReview plan mode result with
      | error e =>
        refine unheard (fun _ h => ?_) e _ rfl
        obtain ⟨eq, ok⟩ := only h
        obtain rfl := Except.ok.inj (answered.symm.trans eq)
        cases admitted.symm.trans ok
      | ok _ =>
        rw [followed_ok, ends_bind, ends_recordReviewFact, followed_ok, ends_pure]
        refine heard result ⟨reviewer, callback, answered, admitted⟩ _ rfl ?_
        simp only [exchange, callback, Option.bind_some]

theorem mapM_invoke_ends {modes : List AcceptanceMode} :
    ∀ {s : Session} {Q : Except Raised (List ReviewResult) → Session → Prop},
      (∀ results, List.Forall₂ (round.Hears plan args) modes results → ∀ s', s'.state = s.state →
        s'.exchanges = (modes.zipWith (round.exchange args) results).reverse ++ s.exchanges →
        Q (.ok results) s') →
      ((∀ results, ¬ List.Forall₂ (round.Hears plan args) modes results) → ∀ e s',
        s'.state = s.state → Q (.error e) s') →
      Ends (modes.mapM (round.invoke plan args)) s Q := by
  induction modes with
  | nil =>
    intro s Q heard _
    rw [List.mapM_nil]
    exact heard [] .nil s rfl rfl
  | cons mode modes ih =>
    intro s Q heard unheard
    rw [List.mapM_cons, ends_bind]
    refine invoke_ends (fun result hears s' state exchanges => ?_) fun none e s' state => ?_
    · rw [followed_ok, ends_bind]
      refine ih (fun results all s'' state' exchanges' => ?_) fun none e s'' state' => ?_
      · refine heard (result :: results) (.cons hears all) s'' (state'.trans state) ?_
        simp [exchanges', exchanges]
      · refine unheard ?_ e s'' (state'.trans state)
        rintro _ (_ | ⟨-, rest⟩)
        exact none _ rest
    · refine unheard ?_ e s' state
      rintro _ (_ | ⟨first, -⟩)
      exact none _ first

def lateModes (args : MultiArguments) (initial : List ReviewResult) : List AcceptanceMode :=
  if args.architectureIsLate && reviewsGreen initial then [.architecture] else []

theorem late_ends {initial : List ReviewResult}
    {Q : Except Raised (List ReviewResult) → Session → Prop}
    (heard : ∀ results, List.Forall₂ (round.Hears plan args) (lateModes args initial) results →
      ∀ s', s'.state = s.state →
        s'.exchanges = ((lateModes args initial).zipWith (round.exchange args) results).reverse ++
          s.exchanges → Q (.ok (initial ++ results)) s')
    (unheard : (∀ results, ¬ List.Forall₂ (round.Hears plan args) (lateModes args initial)
      results) → ∀ e s', s'.state = s.state → Q (.error e) s') :
    Ends (round.late plan args initial) s Q := by
  unfold late
  by_cases asked : args.architectureIsLate && reviewsGreen initial
  · have modes : lateModes args initial = [.architecture] := if_pos asked
    rw [modes] at heard unheard
    rw [if_pos asked, ends_bind]
    refine invoke_ends (fun result hears s' state exchanges => ?_) fun none e s' state => ?_
    · exact heard [result] (.cons hears .nil) s' state exchanges
    · refine unheard ?_ e s' state
      rintro _ (_ | ⟨first, -⟩)
      exact none _ first
  · have modes : lateModes args initial = [] := if_neg asked
    rw [modes] at heard
    rw [if_neg asked, ends_pure]
    simpa using heard [] .nil s rfl rfl

def Answered (round : Round) (plan : AuthorityPlan) (args : MultiArguments)
    (reviews : List ReviewResult) : Prop :=
  ∃ initial last, List.Forall₂ (round.Hears plan args) args.initialReviewModes initial ∧
    List.Forall₂ (round.Hears plan args) (lateModes args initial) last ∧ reviews = initial ++ last

def exchanges (round : Round) (args : MultiArguments) (reviews : List ReviewResult)
    (before : List Exchange) : List Exchange :=
  (List.zipWith (round.exchange args) (args.initialReviewModes ++ [.architecture]) reviews).reverse ++
    .round round.index :: before

theorem forall₂_hears_unique {modes : List AcceptanceMode} {results results' : List ReviewResult}
    (h : List.Forall₂ (round.Hears plan args) modes results)
    (h' : List.Forall₂ (round.Hears plan args) modes results') : results = results' := by
  induction h generalizing results' with
  | nil =>
    cases h'
    rfl
  | cons hears _ ih =>
    cases h' with
    | cons hears' rest' => rw [hears.unique hears', ih rest']

theorem Answered.unique {reviews reviews' : List ReviewResult}
    (h : round.Answered plan args reviews) (h' : round.Answered plan args reviews') :
    reviews = reviews' := by
  obtain ⟨initial, last, hi, hl, rfl⟩ := h
  obtain ⟨initial', last', hi', hl', rfl⟩ := h'
  obtain rfl := forall₂_hears_unique hi hi'
  rw [forall₂_hears_unique hl hl']

theorem exchanges_append {initial last : List ReviewResult} {before : List Exchange}
    (hi : List.Forall₂ (round.Hears plan args) args.initialReviewModes initial)
    (hl : List.Forall₂ (round.Hears plan args) (lateModes args initial) last) :
    round.exchanges args (initial ++ last) before =
      ((lateModes args initial).zipWith (round.exchange args) last).reverse ++
        ((args.initialReviewModes.zipWith (round.exchange args) initial).reverse ++
          .round round.index :: before) := by
  have late : [AcceptanceMode.architecture].zipWith (round.exchange args) last =
      (lateModes args initial).zipWith (round.exchange args) last := by
    unfold lateModes at hl ⊢
    split_ifs at hl ⊢ with asked
    · rfl
    · cases hl
      rfl
  rw [exchanges, List.zipWith_append hi.length_eq, List.reverse_append, late, List.append_assoc]

end Round

/-! ### The stages of the workflow -/

/-- A round is answered by green reviews. -/
def RoundUnblocked (round : Round) (plan : AuthorityPlan) (args : MultiArguments)
    (before exchanges : List Exchange) : Prop :=
  ∃ reviews, round.Answered plan args reviews ∧ reviewsGreen reviews = true ∧
    exchanges = round.exchanges args reviews before

/-- The repaired candidate is rendered under the identity of the first evidence, and its round is
answered by green reviews. -/
def RefreshUnblocked (args : MultiArguments) (plan : AuthorityPlan)
    (evidence : Option RenderedEvidence) (first : List ReviewResult) (before : List Exchange)
    (last : Round) (exchanges : List Exchange) : Prop :=
  ∃ token, args.currentRevision 2 = .ok token ∧
    if .visual ∈ args.modes then
      ∃ refreshed, ReviewWorkflow.refreshEvidence.render args 2 token = .ok refreshed ∧
        evidence.map (·.evidenceId) = some refreshed.evidenceId ∧
        last = ⟨2, token, some refreshed, first⟩ ∧
        RoundUnblocked last plan args
          (.evidence token (.ok refreshed) :: .revision (.ok token) :: before) exchanges
    else
      last = ⟨2, token, evidence, first⟩ ∧
        RoundUnblocked last plan args (.revision (.ok token) :: before) exchanges

def RepairUnblocked (args : MultiArguments) (plan : AuthorityPlan) (budget : Budget)
    (evidence : Option RenderedEvidence) (first : List ReviewResult) (before : List Exchange)
    (last : Round) (exchanges : List Exchange) : Prop :=
  budget.repairs < budget.maxRepairs ∧ ∃ finding others record,
    blockersIn first = finding :: others ∧ args.repair finding = .ok record ∧
    record.findingId = finding.findingId ∧
    RefreshUnblocked args plan evidence first (.repair finding (.ok record) :: before) last exchanges

/-- Where the architecture rejects, the recovery authority keeps to the accepted boundary. -/
def ReplanUnblocked (args : MultiArguments) (plan : AuthorityPlan) (budget : Budget)
    (evidence : Option RenderedEvidence) (first : List ReviewResult) (before : List Exchange)
    (last : Round) (exchanges : List Exchange) : Prop :=
  match blockersIn (first.filter (·.acceptanceMode = .architecture)) with
  | [] => RepairUnblocked args plan budget evidence first before last exchanges
  | finding :: _ => ∃ replan proposal, args.architectureReplan = some replan ∧
      replan finding = .ok proposal ∧ proposal.boundaryUnchanged = true ∧
      RepairUnblocked args plan budget evidence first (.replan finding (.ok proposal) :: before) last
        exchanges

/-- The first round is green, or it asks for a repair that goes through. -/
def FirstUnblocked (args : MultiArguments) (plan : AuthorityPlan) (budget : Budget)
    (first : Round) (before : List Exchange) (last : Round) (exchanges : List Exchange) : Prop :=
  (last = first ∧ RoundUnblocked first plan args before exchanges) ∨
    ∃ reviews, first.Answered plan args reviews ∧ rejectedWithoutBlockers reviews = [] ∧
      reviewsGreen reviews = false ∧
      ReplanUnblocked args plan budget first.evidence reviews
        (first.exchanges args reviews before) last exchanges

/-- The candidate has a revision and, for the visual mode, evidence that carries it. -/
def FixUnblocked (args : MultiArguments) (plan : AuthorityPlan) (budget : Budget)
    (before : List Exchange) (last : Round) (exchanges : List Exchange) : Prop :=
  ∃ token, args.currentRevision 1 = .ok token ∧
    if .visual ∈ args.modes then
      ∃ rendered, ReviewWorkflow.refreshEvidence.render args 1 token = .ok rendered ∧
        rendered.revision = token ∧
        FirstUnblocked args plan budget ⟨1, token, some rendered, []⟩
          (.evidence token (.ok rendered) :: .revision (.ok token) :: before) last exchanges
    else
      FirstUnblocked args plan budget ⟨1, token, none, []⟩ (.revision (.ok token) :: before) last
        exchanges

/-- The inputs on which nothing blocks the workflow, with its last round and its exchanges. -/
def MultiUnblocked (w : ReviewWorkflow) (args : MultiArguments) (s : Session) (last : Round)
    (exchanges : List Exchange) : Prop :=
  ∃ config plan fields, w.config = .ok config ∧
    config.deriveAuthorities args.modes args.availableModels = .ok plan ∧
    args.available = .ok () ∧ s.Startable ∧
    (args.budget.getD config.limits.budget).exhausted = none ∧
    args.objective = .ok (.obj fields) ∧
    FixUnblocked args plan (args.budget.getD config.limits.budget)
      (.objective args.objective :: s.exchanges) last exchanges

namespace ReviewWorkflow

variable {w : ReviewWorkflow} {c : Context} {recovery : Option RecoveryDecision}

theorem notify_concludes {result : ReviewLifecycleResult} {unblocked : List Exchange → Prop}
    (hs : s.state = .accepted) (h : ∀ exchanges, unblocked exchanges ↔ exchanges = s.exchanges) :
    Ends (w.notify c result) s (Concludes unblocked) := by
  have quiet : ∀ outcome s', s'.state = .accepted → s'.exchanges = s.exchanges →
      Concludes unblocked outcome s' := fun _ s' state exchanges =>
    .inr ⟨state, [], s.exchanges, by simp, exchanges, h⟩
  have noted : ∀ answer outcome s', s'.state = .accepted →
      s'.exchanges = .notification answer :: s.exchanges → Concludes unblocked outcome s' :=
    fun answer _ s' state exchanges =>
      .inr ⟨state, [.notification answer], s.exchanges, by simp [Exchange.isNotification],
        exchanges, h⟩
  unfold notify
  cases c.args.notification with
  | none => exact quiet _ s hs rfl
  | some notification =>
    simp only [ends_bind, ends_attempt, ends_ask]
    cases notification result with
    | ok u => exact noted (.ok u) _ _ hs rfl
    | error e =>
      rw [followed_ok, ends_ite]
      refine ⟨fun _ => ?_, fun _ => noted (.error e) _ _ hs rfl⟩
      simp only [ends_bind, ends_recordReviewFact, followed_ok, ends_get, ends_lift]
      cases w.writeReviewArtifact _ with
      | ok _ => exact noted (.error e) _ _ hs rfl
      | error _ => exact noted (.error e) _ _ hs rfl

theorem acceptAll_concludes {last : List ReviewResult} {data : List (String × Json)}
    {unblocked : List Exchange → Prop} (hs : s.state = .reviewing)
    (h : ∀ exchanges, unblocked exchanges ↔ exchanges = s.exchanges) :
    Ends (w.acceptAll c last data recovery) s (Concludes unblocked) := by
  rw [acceptAll, ends_bind, ends_recordReviewTransition hs (by decide), followed_ok, ends_bind]
  refine projectResult_ends fun outcome s' state exchanges _ => ?_
  have h' : ∀ path, unblocked path ↔ path = s'.exchanges := by
    rw [exchanges]
    exact h
  cases outcome with
  | ok result => exact notify_concludes state h'
  | error e => exact .inr ⟨state, [], s'.exchanges, by simp, rfl, h'⟩

/-! ### Endings without acceptance -/

theorem projectContext_rejecting {status : LifecycleStatus} (hs : s.state ≠ .accepted) :
    Ends (w.projectContext c status recovery) s Rejecting := projectResult_rejecting rfl hs

theorem budgetFailure_rejecting {limit : String} {state : WorkflowState} (hs : s.state = state)
    (allowed : state.isTransitionAllowed .failed) :
    Ends (w.budgetFailure c limit) s Rejecting := by
  have live : state ≠ .accepted := by
    rintro rfl
    cases allowed
  simp only [budgetFailure, ends_bind, ends_recordReviewFact, followed_ok, ends_currentState,
    ends_ite]
  refine ⟨fun _ => ?_, fun _ => ?_⟩
  · refine (ends_recordReviewTransition rfl (hs ▸ allowed)).mpr ?_
    exact projectContext_rejecting (by rintro ⟨⟩)
  · exact projectContext_rejecting (hs ▸ live)

theorem roundFailed_rejecting {e : Raised} (hs : s.state = .reviewing) :
    Ends (w.roundFailed c e) s Rejecting := by
  cases e
  case interrupt name => exact throw_rejecting (by simp [hs])
  all_goals exact stop_rejecting rfl hs (by decide) (by decide)

theorem evidenceFailed_rejecting {e : Raised} (hs : s.state = .completed) :
    Ends (w.evidenceFailed c e) s Rejecting := by
  rw [evidenceFailed, ends_ite]
  exact ⟨fun _ => stop_rejecting rfl hs (by decide) (by decide),
    fun _ => throw_rejecting (by simp [hs])⟩

theorem evidenceStale_rejecting {data : List (String × Json)} (hs : s.state = .completed) :
    Ends (w.evidenceStale c data) s Rejecting := stop_rejecting rfl hs (by decide) (by decide)

theorem consultPlanner_state :
    Ends (consultPlanner c) s fun _ s' => s'.state = s.state := by
  unfold consultPlanner
  split
  · exact rfl
  · next planner _ =>
    simp only [ends_bind, ends_ask]
    cases planner decisionRequest with
    | error e => exact rfl
    | ok response =>
      rw [followed_ok, ends_ite]
      refine ⟨fun _ => rfl, fun _ => ?_⟩
      simp only [recordReviewDecisionResponse, ends_bind, ends_get, followed_ok]
      split
      · exact rfl
      · rw [ends_ite]
        exact ⟨fun _ => rfl, fun _ => rfl⟩

theorem deferReplan_rejecting {proposal : ReplanProposal} (hs : s.state ≠ .accepted) :
    Ends (w.deferReplan c proposal) s Rejecting := by
  rw [deferReplan, ends_bind, recordReviewDecisionRequest, ends_recordReviewFact, followed_ok,
    ends_bind]
  refine consultPlanner_state.mono fun outcome s' state => ?_
  cases outcome with
  | error e => exact ⟨by rw [state]; exact hs, fun _ eq => nomatch eq⟩
  | ok _ =>
    rw [followed_ok, ends_bind, recordReviewRecovery, ends_recordReviewFact, followed_ok]
    exact projectContext_rejecting (by rw [state]; exact hs)

/-! ### From the last round back -/

theorem judgeSecond_concludes {round : Round} {second : List ReviewResult} {before : List Exchange}
    (hs : s.state = .reviewing) (answered : round.Answered c.plan c.args second)
    (hx : s.exchanges = round.exchanges c.args second before) :
    Ends (w.judgeSecond c recovery second) s
      (Concludes (RoundUnblocked round c.plan c.args before)) := by
  have only : ∀ {exchanges}, RoundUnblocked round c.plan c.args before exchanges →
      reviewsGreen second = true ∧ exchanges = s.exchanges := by
    rintro _ ⟨_, answered', green, rfl⟩
    obtain rfl := answered.unique answered'
    exact ⟨green, hx.symm⟩
  rw [judgeSecond, ends_ite]
  refine ⟨fun silent => ?_, fun spoken => ?_⟩
  · refine concludes_of_rejecting (stop_rejecting rfl hs (by decide) (by decide)) fun _ h => ?_
    exact silent (reviewsGreen_iff.mp (only h).1).1
  rw [ends_ite]
  refine ⟨fun blocked => ?_, fun clear => ?_⟩
  · refine concludes_of_rejecting (stop_rejecting rfl hs (by decide) (by decide)) fun _ h => ?_
    exact blocked (reviewsGreen_iff.mp (only h).1).2
  · refine acceptAll_concludes hs fun exchanges => ⟨fun h => (only h).2, fun eq => ?_⟩
    refine ⟨second, answered, reviewsGreen_iff.mpr ⟨?_, ?_⟩, eq.trans hx⟩
    · simpa using spoken
    · simpa using clear

theorem startRound_ends {round : Round} {Q : Except Raised Unit → Session → Prop}
    (hs : s.state = .completed)
    (started : ∀ s', s'.state = .reviewing →
      s'.exchanges = .round round.index :: s.exchanges → Q (.ok ()) s') :
    Ends (startRound c round) s Q := by
  rw [startRound, ends_bind, ends_recordReviewTransition hs (by decide), followed_ok,
    ends_beginRound]
  exact started _ rfl rfl

theorem secondRound_concludes {first : List ReviewResult} {token : String}
    (hs : s.state = .completed) :
    Ends (w.secondRound c recovery first token) s
      (Concludes (RoundUnblocked ⟨2, token, c.evidence, first⟩ c.plan c.args s.exchanges)) := by
  simp only [secondRound, ends_bind]
  refine startRound_ends hs fun s' state exchanges => ?_
  simp only [followed_ok, ends_bind, ends_attempt]
  refine Round.mapM_invoke_ends (fun initial hi s'' state' exchanges' => ?_)
    fun none e s'' state' => ?_
  · simp only [followed_ok, ends_bind, ends_attempt]
    refine Round.late_ends (fun last hl s₃ state'' exchanges'' => ?_) fun none e s₃ state'' => ?_
    · refine judgeSecond_concludes (by rw [state'', state', state])
        ⟨initial, last, hi, hl, rfl⟩ ?_
      rw [exchanges'', exchanges', exchanges, Round.exchanges_append hi hl]
    · refine concludes_of_rejecting (roundFailed_rejecting (by rw [state'', state', state])) ?_
      rintro _ ⟨_, ⟨initial', last', hi', hl', -⟩, -⟩
      obtain rfl := Round.forall₂_hears_unique hi hi'
      exact none _ hl'
  · refine concludes_of_rejecting (roundFailed_rejecting (by rw [state', state])) ?_
    rintro _ ⟨_, ⟨initial', _, hi', -⟩, -⟩
    exact none _ hi'

theorem refreshEvidence_concludes {first : List ReviewResult} (hs : s.state = .completed) :
    Ends (w.refreshEvidence c recovery first) s
      (Concludes (Leads (RefreshUnblocked c.args c.plan c.evidence first s.exchanges))) := by
  simp only [refreshEvidence, ends_bind, ends_ask]
  cases asked : c.args.currentRevision 2 with
  | error e =>
    refine raise_concludes (by simp [hs]) ?_
    rintro _ ⟨_, token, eq, -⟩
    cases asked.symm.trans eq
  | ok token =>
  rw [followed_ok]
  by_cases visual : AcceptanceMode.visual ∈ c.args.modes
  · simp only [if_pos visual, ends_bind, ends_attempt, ends_ask]
    have only : ∀ {exchanges}, Leads (RefreshUnblocked c.args c.plan c.evidence first s.exchanges)
        exchanges → ∃ refreshed, refreshEvidence.render c.args 2 token = .ok refreshed ∧
          c.evidence.map (·.evidenceId) = some refreshed.evidenceId ∧
          RoundUnblocked ⟨2, token, some refreshed, first⟩ c.plan c.args
            (.evidence token (.ok refreshed) :: .revision (.ok token) :: s.exchanges)
            exchanges := by
      rintro _ ⟨_, token', eq, rest⟩
      obtain rfl := Except.ok.inj (asked.symm.trans eq)
      rw [if_pos visual] at rest
      obtain ⟨refreshed, rendered, same, rfl, round⟩ := rest
      exact ⟨refreshed, rendered, same, round⟩
    cases rendered : refreshEvidence.render c.args 2 token with
    | error e =>
      refine concludes_of_rejecting (evidenceFailed_rejecting hs) fun _ h => ?_
      obtain ⟨_, eq, -⟩ := only h
      cases rendered.symm.trans eq
    | ok refreshed =>
    have only : ∀ {exchanges}, Leads (RefreshUnblocked c.args c.plan c.evidence first s.exchanges)
        exchanges → c.evidence.map (·.evidenceId) = some refreshed.evidenceId ∧
          RoundUnblocked ⟨2, token, some refreshed, first⟩ c.plan c.args
            (.evidence token (.ok refreshed) :: .revision (.ok token) :: s.exchanges)
            exchanges := by
      intro _ h
      obtain ⟨_, eq, rest⟩ := only h
      obtain rfl := Except.ok.inj (rendered.symm.trans eq)
      exact rest
    rw [followed_ok, ends_ite]
    refine ⟨fun stale => ?_, fun same => ?_⟩
    · exact concludes_of_rejecting (evidenceStale_rejecting hs) fun _ h => stale (only h).1
    · refine concludes_congr (secondRound_concludes (by exact hs)) fun _ =>
        ⟨fun h => (only h).2, fun round => ⟨⟨2, token, some refreshed, first⟩, token, asked, ?_⟩⟩
      rw [if_pos visual]
      exact ⟨refreshed, rendered, not_not.mp same, rfl, round⟩
  · rw [if_neg visual]
    refine concludes_congr (secondRound_concludes (by exact hs)) fun _ =>
      ⟨?_, fun round => ⟨⟨2, token, c.evidence, first⟩, token, asked, ?_⟩⟩
    · rintro ⟨_, token', eq, rest⟩
      obtain rfl := Except.ok.inj (asked.symm.trans eq)
      rw [if_neg visual] at rest
      obtain ⟨rfl, round⟩ := rest
      exact round
    · rw [if_neg visual]
      exact ⟨rfl, round⟩

theorem repairBlocker_concludes {first : List ReviewResult} {finding : ReviewFinding}
    {others : List ReviewFinding} (hs : s.state = .repairRequired)
    (left : c.budget.repairs < c.budget.maxRepairs) (found : blockersIn first = finding :: others) :
    Ends (w.repairBlocker c recovery first finding) s
      (Concludes (Leads (RepairUnblocked c.args c.plan c.budget c.evidence first s.exchanges))) := by
  have only : ∀ {exchanges},
      Leads (RepairUnblocked c.args c.plan c.budget c.evidence first s.exchanges) exchanges →
        ∃ record, c.args.repair finding = .ok record ∧ record.findingId = finding.findingId ∧
          Leads (RefreshUnblocked c.args c.plan c.evidence first
            (.repair finding (.ok record) :: s.exchanges)) exchanges := by
    rintro _ ⟨last, -, _, _, record, eq, repaired, same, rest⟩
    obtain ⟨rfl, rfl⟩ := List.cons.inj (found.symm.trans eq)
    exact ⟨record, repaired, same, last, rest⟩
  simp only [repairBlocker, ends_bind, ends_attempt, ends_ask]
  cases answered : c.args.repair finding with
  | error e =>
    rw [followed_ok]
    refine concludes_of_rejecting ?_ fun _ h => ?_
    · rw [ends_ite]
      exact ⟨fun _ => stop_rejecting rfl hs (by decide) (by decide),
        fun _ => throw_rejecting (by simp [hs])⟩
    · obtain ⟨_, eq, -⟩ := only h
      cases answered.symm.trans eq
  | ok record =>
  rw [followed_ok, ends_ite]
  refine ⟨fun refused => ?_, fun acknowledged => ?_⟩
  · refine ends_throw.mpr (raise_concludes (by simp [hs]) fun _ h => ?_)
    obtain ⟨_, eq, same, -⟩ := only h
    obtain rfl := Except.ok.inj (answered.symm.trans eq)
    simp [same, record.sameOwner_eq] at refused
  refine ends_bind.mpr ((ends_recordReviewTransition (by exact hs) (by decide)).mpr ?_)
  rw [followed_ok, ends_bind]
  refine (ends_recordReviewTransition rfl rfl).mpr ?_
  refine concludes_congr (refreshEvidence_concludes rfl) fun _ => ⟨fun h => ?_, ?_⟩
  · obtain ⟨_, eq, -, rest⟩ := only h
    obtain rfl := Except.ok.inj (answered.symm.trans eq)
    exact rest
  · rintro ⟨last, rest⟩
    exact ⟨last, left, finding, others, record, found, answered,
      by simpa [record.sameOwner_eq] using acknowledged, rest⟩

theorem repairFirst_concludes {first : List ReviewResult} (hs : s.state = .repairRequired) :
    Ends (w.repairFirst c recovery first) s
      (Concludes (Leads (RepairUnblocked c.args c.plan c.budget c.evidence first s.exchanges))) := by
  rw [repairFirst, ends_ite]
  refine ⟨fun spent => ?_, fun left => ?_⟩
  · refine concludes_of_rejecting (budgetFailure_rejecting hs (by decide)) ?_
    rintro _ ⟨_, left, -⟩
    omega
  · split
    · next none_ =>
      refine ends_throw.mpr (raise_concludes (by simp [hs]) ?_)
      rintro _ ⟨_, -, _, _, _, eq, -⟩
      exact nomatch none_.symm.trans eq
    · next found => exact repairBlocker_concludes hs (by omega) found

theorem replanArchitecture_concludes {first : List ReviewResult}
    (hs : s.state = .repairRequired) :
    Ends (w.replanArchitecture c first) s
      (Concludes (Leads (ReplanUnblocked c.args c.plan c.budget c.evidence first s.exchanges))) := by
  have live : s.state ≠ .accepted := by simp [hs]
  unfold replanArchitecture ReplanUnblocked
  cases blockersIn (first.filter (·.acceptanceMode = .architecture)) with
  | nil => exact repairFirst_concludes hs
  | cons finding others =>
    dsimp only
    cases authority : c.args.architectureReplan with
    | none =>
      refine ends_throw.mpr (raise_concludes live ?_)
      rintro _ ⟨_, _, _, eq, -⟩
      cases eq
    | some replan =>
      simp only [ends_bind, ends_ask]
      have only : ∀ {exchanges}, Leads (fun last exchanges => ∃ replan' proposal,
          some replan = some replan' ∧ replan' finding = .ok proposal ∧
            proposal.boundaryUnchanged = true ∧
            RepairUnblocked c.args c.plan c.budget c.evidence first
              (.replan finding (.ok proposal) :: s.exchanges) last exchanges) exchanges →
          ∃ proposal, replan finding = .ok proposal ∧ proposal.boundaryUnchanged = true ∧
            Leads (RepairUnblocked c.args c.plan c.budget c.evidence first
              (.replan finding (.ok proposal) :: s.exchanges)) exchanges := by
        rintro _ ⟨last, _, proposal, eq, proposed, unchanged, rest⟩
        obtain rfl := Option.some.inj eq
        exact ⟨proposal, proposed, unchanged, last, rest⟩
      cases proposed : replan finding with
      | error e =>
        refine raise_concludes live fun _ h => ?_
        obtain ⟨_, eq, -⟩ := only h
        cases proposed.symm.trans eq
      | ok proposal =>
        rw [followed_ok, ends_ite]
        refine ⟨fun changed => ?_, fun unchanged => ?_⟩
        · refine concludes_of_rejecting (deferReplan_rejecting live) fun _ h => ?_
          obtain ⟨_, eq, unchanged, -⟩ := only h
          obtain rfl := Except.ok.inj (proposed.symm.trans eq)
          exact changed unchanged
        · simp only [ends_bind, recordReviewRecovery, ends_recordReviewFact, followed_ok]
          refine concludes_congr (repairFirst_concludes (by exact hs)) fun _ => ⟨fun h => ?_, ?_⟩
          · obtain ⟨_, eq, -, rest⟩ := only h
            obtain rfl := Except.ok.inj (proposed.symm.trans eq)
            exact rest
          · rintro ⟨last, rest⟩
            exact ⟨last, replan, proposal, rfl, proposed, not_not.mp unchanged, rest⟩

theorem judgeFirst_concludes {round : Round} {first : List ReviewResult} {before : List Exchange}
    (hs : s.state = .reviewing) (answered : round.Answered c.plan c.args first)
    (evidence : round.evidence = c.evidence)
    (hx : s.exchanges = round.exchanges c.args first before) :
    Ends (w.judgeFirst c first) s
      (Concludes (Leads (FirstUnblocked c.args c.plan c.budget round before))) := by
  have only : ∀ {exchanges}, Leads (FirstUnblocked c.args c.plan c.budget round before) exchanges →
      (reviewsGreen first = true ∧ exchanges = s.exchanges) ∨
        rejectedWithoutBlockers first = [] ∧ reviewsGreen first = false ∧
        Leads (ReplanUnblocked c.args c.plan c.budget c.evidence first s.exchanges) exchanges := by
    rintro _ ⟨last, ⟨-, _, answered', green, rfl⟩ | ⟨_, answered', spoken, red, rest⟩⟩
    · obtain rfl := answered.unique answered'
      exact .inl ⟨green, hx.symm⟩
    · obtain rfl := answered.unique answered'
      rw [← hx, evidence] at rest
      exact .inr ⟨spoken, red, last, rest⟩
  rw [judgeFirst, ends_ite]
  refine ⟨fun silent => ?_, fun spoken => ?_⟩
  · refine concludes_of_rejecting (stop_rejecting rfl hs (by decide) (by decide)) fun _ h => ?_
    obtain ⟨green, -⟩ | ⟨spoken, -⟩ := only h
    · exact silent (reviewsGreen_iff.mp green).1
    · exact silent spoken
  rw [ends_ite]
  refine ⟨fun green => ?_, fun red => ?_⟩
  · refine acceptAll_concludes hs fun exchanges => ⟨fun h => ?_, fun eq => ?_⟩
    · obtain ⟨-, eq⟩ | ⟨-, red, -⟩ := only h
      · exact eq
      · exact nomatch green.symm.trans red
    · exact ⟨round, .inl ⟨rfl, first, answered, green, eq.trans hx⟩⟩
  · refine ends_bind.mpr ((ends_recordReviewTransition hs (by decide)).mpr ?_)
    refine concludes_congr (replanArchitecture_concludes rfl) fun exchanges =>
      ⟨fun h => ?_, ?_⟩
    · obtain ⟨green, -⟩ | ⟨-, -, rest⟩ := only h
      · exact absurd green red
      · exact rest
    · rintro ⟨last, rest⟩
      refine ⟨last, .inr ⟨first, answered, not_not.mp spoken, by simpa using red, ?_⟩⟩
      rw [← hx, evidence]
      exact rest

theorem firstRound_concludes {token : String} (hs : s.state = .completed) :
    Ends (w.firstRound c token) s
      (Concludes (Leads (FirstUnblocked c.args c.plan c.budget ⟨1, token, c.evidence, []⟩
        s.exchanges))) := by
  have unanswered : ∀ {s' : Session} {e : Raised}, s'.state = .reviewing →
      (∀ reviews, ¬ (⟨1, token, c.evidence, []⟩ : Round).Answered c.plan c.args reviews) →
      Ends (w.roundFailed c e) s'
        (Concludes (Leads (FirstUnblocked c.args c.plan c.budget ⟨1, token, c.evidence, []⟩
          s.exchanges))) := by
    intro s' e hs' none
    refine concludes_of_rejecting (roundFailed_rejecting hs') ?_
    rintro _ ⟨_, ⟨-, _, answered, -⟩ | ⟨_, answered, -⟩⟩
    · exact none _ answered
    · exact none _ answered
  simp only [firstRound, ends_bind]
  refine startRound_ends hs fun s' state exchanges => ?_
  simp only [followed_ok, ends_bind, ends_attempt]
  refine Round.mapM_invoke_ends (fun initial hi s'' state' exchanges' => ?_)
    fun none e s'' state' => ?_
  · rw [followed_ok]
    refine Round.late_ends (fun last hl s₃ state'' exchanges'' => ?_) fun none e s₃ state'' => ?_
    · refine judgeFirst_concludes (by rw [state'', state', state])
        ⟨initial, last, hi, hl, rfl⟩ rfl ?_
      rw [exchanges'', exchanges', exchanges, Round.exchanges_append hi hl]
    · refine unanswered (by rw [state'', state', state]) ?_
      rintro _ ⟨_, _, hi', hl', -⟩
      obtain rfl := Round.forall₂_hears_unique hi hi'
      exact none _ hl'
  · refine unanswered (by rw [state', state]) ?_
    rintro _ ⟨_, _, hi', -⟩
    exact none _ hi'

theorem fixEvidence_concludes (hs : s.state = .completed) (he : c.evidence = none) :
    Ends (w.fixEvidence c) s
      (Concludes (Leads (FixUnblocked c.args c.plan c.budget s.exchanges))) := by
  simp only [fixEvidence, ends_bind, ends_ask]
  cases asked : c.args.currentRevision 1 with
  | error e =>
    refine raise_concludes (by simp [hs]) ?_
    rintro _ ⟨_, token, eq, -⟩
    cases asked.symm.trans eq
  | ok token =>
  rw [followed_ok]
  by_cases visual : AcceptanceMode.visual ∈ c.args.modes
  · simp only [if_pos visual, ends_bind, ends_attempt, ends_ask]
    have only : ∀ {exchanges}, Leads (FixUnblocked c.args c.plan c.budget s.exchanges) exchanges →
        ∃ rendered, refreshEvidence.render c.args 1 token = .ok rendered ∧
          rendered.revision = token ∧
          Leads (FirstUnblocked c.args c.plan c.budget ⟨1, token, some rendered, []⟩
            (.evidence token (.ok rendered) :: .revision (.ok token) :: s.exchanges))
            exchanges := by
      rintro _ ⟨last, token', eq, rest⟩
      obtain rfl := Except.ok.inj (asked.symm.trans eq)
      rw [if_pos visual] at rest
      obtain ⟨rendered, eq', current, first⟩ := rest
      exact ⟨rendered, eq', current, last, first⟩
    cases answered : refreshEvidence.render c.args 1 token with
    | error e =>
      refine concludes_of_rejecting (evidenceFailed_rejecting hs) fun _ h => ?_
      obtain ⟨_, eq, -⟩ := only h
      cases answered.symm.trans eq
    | ok rendered =>
    have only : ∀ {exchanges}, Leads (FixUnblocked c.args c.plan c.budget s.exchanges) exchanges →
        rendered.revision = token ∧
          Leads (FirstUnblocked c.args c.plan c.budget ⟨1, token, some rendered, []⟩
            (.evidence token (.ok rendered) :: .revision (.ok token) :: s.exchanges))
            exchanges := by
      intro _ h
      obtain ⟨_, eq, rest⟩ := only h
      obtain rfl := Except.ok.inj (answered.symm.trans eq)
      exact rest
    rw [followed_ok, ends_ite]
    refine ⟨fun stale => ?_, fun current => ?_⟩
    · exact concludes_of_rejecting (evidenceStale_rejecting hs) fun _ h => stale (only h).1
    · rw [ends_bind, ends_recordReviewFact, followed_ok]
      refine concludes_congr (firstRound_concludes (by exact hs)) fun _ =>
        ⟨fun h => (only h).2, ?_⟩
      rintro ⟨last, first⟩
      refine ⟨last, token, asked, ?_⟩
      rw [if_pos visual]
      exact ⟨rendered, answered, not_not.mp current, first⟩
  · rw [if_neg visual]
    refine concludes_congr (firstRound_concludes (by exact hs)) fun _ => ⟨?_, ?_⟩
    · rintro ⟨last, token', eq, rest⟩
      obtain rfl := Except.ok.inj (asked.symm.trans eq)
      rw [if_neg visual] at rest
      rw [he]
      exact ⟨last, rest⟩
    · rintro ⟨last, rest⟩
      refine ⟨last, token, asked, ?_⟩
      rw [if_neg visual, ← he]
      exact rest

theorem runMultiAuthority_concludes {args : MultiArguments} (hs : s.state ≠ .accepted) :
    Ends (w.runMultiAuthority args) s (Concludes (Leads (MultiUnblocked w args s))) := by
  simp only [runMultiAuthority, ends_bind, ends_lift]
  cases loaded : w.config with
  | error e =>
    refine raise_concludes hs ?_
    rintro _ ⟨_, _, _, _, eq, -⟩
    cases loaded.symm.trans eq
  | ok config =>
  simp only [followed_ok, ends_bind, ends_lift]
  cases derived : config.deriveAuthorities args.modes args.availableModels with
  | error e =>
    refine raise_concludes hs ?_
    rintro _ ⟨_, _, _, _, eq, eq', -⟩
    obtain rfl := Except.ok.inj (loaded.symm.trans eq)
    cases derived.symm.trans eq'
  | ok plan =>
  simp only [followed_ok, ends_bind, ends_lift]
  have only : ∀ {exchanges}, Leads (MultiUnblocked w args s) exchanges →
      args.available = .ok () ∧ s.Startable ∧
        (args.budget.getD config.limits.budget).exhausted = none ∧
        ∃ fields, args.objective = .ok (.obj fields) ∧
        Leads (FixUnblocked args plan (args.budget.getD config.limits.budget)
          (.objective args.objective :: s.exchanges)) exchanges := by
    rintro _ ⟨last, _, _, fields, eq, eq', available, startable, left, completed, rest⟩
    obtain rfl := Except.ok.inj (loaded.symm.trans eq)
    obtain rfl := Except.ok.inj (derived.symm.trans eq')
    exact ⟨available, startable, left, fields, completed, last, rest⟩
  cases available : args.available with
  | error e => exact raise_concludes hs fun _ h => by cases available.symm.trans (only h).1
  | ok _ =>
  simp only [followed_ok, ends_bind]
  refine startExecutor_ends _ (fun startable s' running exchanges => ?_)
    fun outcome other refused => ?_
  · rw [followed_ok, if_neg (by simp), ends_bind, ends_recordReviewFact, followed_ok]
    cases left : (args.budget.getD config.limits.budget).exhausted with
    | some limit =>
      refine concludes_of_rejecting (budgetFailure_rejecting (by exact running) (by decide))
        fun _ h => ?_
      cases left.symm.trans (only h).2.2.1
    | none =>
    rw [ends_bind]
    refine executeObjective_ends (by exact running) _ (fun fields completed s'' state exchanges' => ?_)
      fun none_ outcome s'' rejecting => ?_
    · rw [followed_ok]
      refine concludes_congr (fixEvidence_concludes state rfl) fun _ => ⟨fun h => ?_, ?_⟩
      · obtain ⟨-, -, -, _, -, rest⟩ := only h
        rw [exchanges', exchanges]
        exact rest
      · rintro ⟨last, rest⟩
        rw [exchanges', exchanges] at rest
        exact ⟨last, config, plan, fields, loaded, derived, available, startable, left, completed,
          rest⟩
    · have refused : ∀ exchanges, ¬ Leads (MultiUnblocked w args s) exchanges := fun _ h => by
        obtain ⟨-, -, -, fields, eq, -⟩ := only h
        exact none_ fields eq
      cases outcome with
      | error e => exact .inl ⟨rejecting, refused⟩
      | ok result => exact .inl ⟨rejecting, refused⟩
  · have none_ : ∀ exchanges, ¬ Leads (MultiUnblocked w args s) exchanges := fun _ h =>
      refused (only h).2.1
    cases outcome with
    | error e => exact raise_concludes hs none_
    | ok state =>
      rw [followed_ok, if_pos (fun eq : state = .running => other (eq ▸ rfl))]
      exact raise_concludes hs none_

end ReviewWorkflow

end CodexFlow.Review
