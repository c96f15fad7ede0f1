import CodexFlow.Review.MultiAuthority

/-!
# How a review workflow ends

A workflow that does not accept leaves its milestone unaccepted. Which inputs lead it to acceptance
is stated stage by stage, by the exchanges it has had by then: no check stops the workflow on them
and its last reviews have no blocking finding.
-/

namespace CodexFlow.Review

open Hook (Json)
open Programs (AcceptanceMode WorkflowState)
open Raising Review.Flow

/-! ### The exchanges of a workflow -/

/-- A review as it was given: for which mode, with which evidence shown. -/
structure HeardReview where
  mode : Option AcceptanceMode
  shown : Option RenderedEvidence
  result : ReviewResult

namespace Exchange

def isRound : Exchange → Bool
  | round _ => true
  | _ => false

def isRepair : Exchange → Bool
  | repair .. => true
  | _ => false

def isNotification : Exchange → Bool
  | notification _ => true
  | _ => false

def revision? : Exchange → Option (Except Raised String)
  | revision answer => some answer
  | _ => none

def review? : Exchange → Option HeardReview
  | review mode _ shown (.ok result) => some ⟨mode, shown, result⟩
  | _ => none

end Exchange

/-- The reviews given since the last round began; the exchanges are newest first. -/
def lastReviews (exchanges : List Exchange) : List HeardReview :=
  (exchanges.takeWhile fun exchange => !exchange.isRound).filterMap (·.review?)

/-- What the last call of `current_revision` returned. -/
def lastRevision (exchanges : List Exchange) : Option (Except Raised String) :=
  exchanges.findSome? (·.revision?)

/-- The milestone can be brought to running. -/
def Session.Startable (s : Session) : Prop :=
  s.state = .running ∨ s.state = .planned ∧ s.executor = none

def Rejecting (outcome : Except Raised ReviewLifecycleResult) (s : Session) : Prop :=
  s.state ≠ .accepted ∧ ∀ result, outcome = .ok result → result.accepted = false

/-- How a workflow ends, in terms of the exchanges on which nothing blocks it: there are none and
it rejects, or it accepts after those, followed by notifications only. -/
def Concludes (unblocked : List Exchange → Prop) (outcome : Except Raised ReviewLifecycleResult)
    (s : Session) : Prop :=
  Rejecting outcome s ∧ (∀ exchanges, ¬ unblocked exchanges) ∨
    s.state = .accepted ∧ ∃ notes path : List Exchange,
      (∀ note ∈ notes, note.isNotification = true) ∧ s.exchanges = notes ++ path ∧
      ∀ exchanges, unblocked exchanges ↔ exchanges = path

/-- What a workflow ends on, of which only the exchanges show. -/
def Leads {α : Type} (unblocked : α → List Exchange → Prop) (exchanges : List Exchange) : Prop :=
  ∃ last, unblocked last exchanges

/-- Every finding says whether it survives the repair of the findings before. -/
def Survives (prior findings : List ReviewFinding) : Prop :=
  ∀ finding ∈ findings,
    finding.survivesPriorRepair = (finding.findingId ∈ prior.map (·.findingId) : Bool)

theorem survivalFault_eq_ok {prior findings : List ReviewFinding} {surviving masquerading : String}
    : survivalFault prior findings surviving masquerading = .ok () ↔
      Survives prior findings := by
  unfold survivalFault
  split
  · next clear => simpa [Survives] using clear
  · next finding found =>
    have mem := List.mem_of_find?_eq_some found
    have fault := List.find?_some found
    constructor
    · split_ifs <;> nofun
    · intro survives
      simp [survives finding mem] at fault

section

variable {s : Session} {unblocked unblocked' : List Exchange → Prop}

theorem concludes_congr {x : Flow ReviewLifecycleResult} (h : Ends x s (Concludes unblocked))
    (iff : ∀ exchanges, unblocked' exchanges ↔ unblocked exchanges) :
    Ends x s (Concludes unblocked') := by
  refine h.mono ?_
  rintro _ _ (⟨rejecting, none⟩ | ⟨state, notes, path, noted, split, only⟩)
  · exact .inl ⟨rejecting, fun exchanges h' => none exchanges ((iff _).mp h')⟩
  · exact .inr ⟨state, notes, path, noted, split, fun exchanges => (iff _).trans (only exchanges)⟩

theorem concludes_of_rejecting {x : Flow ReviewLifecycleResult} (h : Ends x s Rejecting)
    (none : ∀ exchanges, ¬ unblocked exchanges) : Ends x s (Concludes unblocked) :=
  h.mono fun _ _ rejecting => .inl ⟨rejecting, none⟩

theorem raise_concludes {e : Raised} (hs : s.state ≠ .accepted)
    (none : ∀ exchanges, ¬ unblocked exchanges) : Concludes unblocked (.error e) s :=
  .inl ⟨⟨hs, fun _ eq => nomatch eq⟩, none⟩

end

namespace ReviewWorkflow

variable {w : ReviewWorkflow} {s : Session}

theorem projectResult_ends {p : Projection} {Q : Except Raised ReviewLifecycleResult → Session → Prop}
    (h : ∀ outcome s', s'.state = s.state → s'.exchanges = s.exchanges →
      (∀ result, outcome = .ok result → result.accepted = p.accepted) → Q outcome s') :
    Ends (w.projectResult p) s Q := by
  have settled : ∀ Q' : Except Raised Unit → Session → Prop,
      (∀ s', s'.state = s.state → s'.exchanges = s.exchanges → Q' (.ok ()) s') →
      Ends (settleRecovery p.recovery) s Q' := by
    intro Q' hQ'
    cases p.recovery with
    | none => exact hQ' s rfl rfl
    | some recovery =>
      simp only [settleRecovery, ends_bind, ends_get, followed_ok, ends_ite]
      exact ⟨fun _ => hQ' s rfl rfl, fun _ => hQ' _ rfl rfl⟩
  rw [projectResult, ends_bind]
  refine settled _ fun s' state exchanges => ?_
  simp only [followed_ok, ends_bind, ends_get, ends_lift]
  cases w.writeReviewArtifact (p.result s'.lifecycle) with
  | ok _ => exact h _ s' state exchanges fun _ eq => Except.ok.inj eq ▸ rfl
  | error e => exact h _ s' state exchanges fun _ eq => by cases eq

theorem projectResult_rejecting {p : Projection} (hp : p.accepted = false)
    (hs : s.state ≠ .accepted) : Ends (w.projectResult p) s Rejecting :=
  projectResult_ends fun _ _ state _ result =>
    ⟨state ▸ hs, fun r eq => (result r eq).trans hp⟩

theorem stop_rejecting {target expected : WorkflowState} {phase : LifecyclePhase} {kind : String}
    {data : List (String × Json)} {p : Projection} (hp : p.accepted = false)
    (hs : s.state = expected) (allowed : expected.isTransitionAllowed target)
    (ht : target ≠ .accepted) :
    Ends (do recordReviewTransition target expected phase kind data; w.projectResult p) s
      Rejecting := by
  rw [ends_bind, ends_recordReviewTransition hs allowed, followed_ok]
  exact projectResult_rejecting hp ht

theorem throw_rejecting {e : Raised} (hs : s.state ≠ .accepted) :
    Ends (throw e : Flow ReviewLifecycleResult) s Rejecting :=
  ⟨hs, fun _ eq => nomatch eq⟩

theorem objectiveFailed_rejecting {e : Raised} {plan : Option AuthorityPlan}
    (hs : s.state = .running) : Ends (w.objectiveFailed e plan) s Rejecting := by
  simp only [objectiveFailed, ends_ite]
  refine ⟨fun _ => ?_, fun _ => ⟨fun _ => ?_, fun _ => ?_⟩⟩
  · exact stop_rejecting rfl hs (by decide) (by decide)
  · exact stop_rejecting rfl hs (by decide) (by decide)
  · exact throw_rejecting (by rw [hs]; decide)

theorem accept_concludes {phase : LifecyclePhase} {kind : String} {data : List (String × Json)}
    {p : Projection} {unblocked : List Exchange → Prop} (hs : s.state = .reviewing)
    (h : ∀ exchanges, unblocked exchanges ↔ exchanges = s.exchanges) :
    Ends (do recordReviewTransition .accepted .reviewing phase kind data; w.projectResult p) s
      (Concludes unblocked) := by
  rw [ends_bind, ends_recordReviewTransition hs (by decide), followed_ok]
  exact projectResult_ends fun outcome s' state exchanges _ =>
    .inr ⟨state, [], s.exchanges, by simp, exchanges, h⟩

theorem startExecutor_ends (Q : Except Raised WorkflowState → Session → Prop)
    (running : s.Startable → ∀ s', s'.state = .running → s'.exchanges = s.exchanges →
      Q (.ok .running) s')
    (other : ∀ outcome, outcome ≠ .ok .running → ¬ s.Startable → Q outcome s) :
    Ends startExecutor s Q := by
  simp only [startExecutor, ends_bind, ends_currentState, followed_ok, ends_ite]
  refine ⟨fun planned => ?_, fun notPlanned => ?_⟩
  · cases owned : s.executor with
    | none =>
      have started := running (.inr ⟨planned, owned⟩)
      simp only [claimExecutor, ends_bind, ends_get, followed_ok, owned, planned, ne_eq,
        not_true_eq_false, if_false, ends_modify, transition]
      refine ends_ite.mpr ⟨fun hpaths => absurd hpaths (by simp), fun _ => ?_⟩
      rw [ends_moveFrom (show _ = WorkflowState.starting from rfl) (by decide), followed_ok, ends_pure]
      exact started _ rfl rfl
    | some generation =>
      have refused : ¬ s.Startable := by simp [Session.Startable, planned, owned]
      have raised : ∀ e, Q (.error e) s := fun e => other _ (by rintro ⟨⟩) refused
      by_cases first : generation = 1
      · simpa [claimExecutor, owned, first, planned, transition, moveFrom] using raised _
      · simpa [claimExecutor, owned, first] using raised _
  · by_cases hs : s.state = .running
    · rw [ends_pure, hs]
      exact running (.inl hs) s hs rfl
    · refine other _ (fun eq => hs (Except.ok.inj eq)) ?_
      rintro (h | ⟨h, -⟩)
      · exact hs h
      · exact notPlanned h

theorem executeObjective_ends {answer : Except Raised Json} {plan : Option AuthorityPlan}
    (hs : s.state = .running)
    (Q : Except Raised (Option ReviewLifecycleResult) → Session → Prop)
    (completed : ∀ fields, answer = .ok (.obj fields) → ∀ s', s'.state = .completed →
      s'.exchanges = .objective answer :: s.exchanges → Q (.ok none) s')
    (failed : (∀ fields, answer ≠ .ok (.obj fields)) → ∀ outcome s', Rejecting outcome s' →
      Q (outcome.map some) s') :
    Ends (w.executeObjective answer plan) s Q := by
  simp only [executeObjective, ends_bind, ends_attempt, ends_ask]
  have raised : ∀ (e : Raised) (s' : Session), (∀ fields, answer ≠ .ok (.obj fields)) →
      s'.state = .running → Ends (some <$> w.objectiveFailed e plan) s' Q := by
    intro e s' none_ hs'
    rw [ends_map]
    exact (objectiveFailed_rejecting hs').mono (failed none_)
  cases answer with
  | error e => exact raised e _ (by rintro _ ⟨⟩) hs
  | ok output =>
    rw [followed_ok, ends_lift]
    cases output with
    | obj fields =>
      refine ends_bind.mpr ((ends_recordReviewTransition (by exact hs) (by decide)).mpr ?_)
      exact completed fields rfl _ rfl rfl
    | _ => exact raised _ _ (by rintro _ ⟨⟩) hs

end ReviewWorkflow

end CodexFlow.Review
