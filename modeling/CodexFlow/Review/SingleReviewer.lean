import CodexFlow.Review.Endings

/-!
# The workflow with one reviewer

The inputs on which nothing blocks `ReviewWorkflow.run`, from the second review back to its start.
-/

namespace CodexFlow.Review

open Programs (WorkflowState)
open Raising Review.Flow

namespace ReviewWorkflow

variable {w : ReviewWorkflow} {s : Session} {args : RunArguments} {budget : Budget}

def roundOf (index : ℕ) (revision : String) (review : ReviewResult) (before : List Exchange) :
    List Exchange :=
  .review none revision none (.ok review) :: .round index :: .revision (.ok revision) :: before

theorem lastReviews_roundOf {index : ℕ} {revision : String} {review : ReviewResult}
    {before : List Exchange} :
    lastReviews (roundOf index revision review before) = [⟨none, none, review⟩] := rfl

theorem isStale_eq_false {review : ReviewResult} {revision : String} :
    isStale review revision = false ↔ review.reviewedRevision = revision ∧ review.fresh = true := by
  simp [isStale, review.readOnly_eq]

theorem staleReview_rejecting {review : ReviewResult} {expected checkpoint : String}
    {reviews : List ReviewResult} {repairs : List RepairRecord} (hs : s.state = .reviewing) :
    Ends (w.staleReview review expected checkpoint reviews repairs) s Rejecting :=
  stop_rejecting rfl hs (by decide) (by decide)

/-- The fresh review is asked for and finds nothing that blocks its promotion. -/
def RunArguments.SecondUnblocked (args : RunArguments) (budget : Budget) (first : ReviewResult)
    (before : List Exchange) (last : ReviewResult) (exchanges : List Exchange) : Prop :=
  ∃ revision, args.currentRevision 2 = .ok revision ∧ budget.reviews < budget.maxReviews ∧
    args.reviewer 2 revision true = .ok last ∧ isStale last revision = false ∧
    Survives first.findings last.findings ∧ last.promotionBlockers = [] ∧
    exchanges = roundOf 2 revision last before

theorem secondReview_concludes {first : ReviewResult} {repair : RepairRecord}
    (hs : s.state = .completed) :
    Ends (w.secondReview args budget first repair) s
      (Concludes (Leads (args.SecondUnblocked budget first s.exchanges))) := by
  simp only [secondReview, ends_bind, ends_ask]
  cases asked : args.currentRevision 2 with
  | error e =>
    refine raise_concludes (by simp [hs]) ?_
    rintro _ ⟨_, revision, eq, -⟩
    cases asked.symm.trans eq
  | ok revision =>
  rw [followed_ok, ends_ite]
  refine ⟨fun spent => ?_, fun left => ?_⟩
  · refine ends_throw.mpr (raise_concludes (by simp [hs]) ?_)
    rintro _ ⟨_, _, -, lt, -⟩
    omega
  refine ends_bind.mpr ((ends_recordReviewTransition (by exact hs) (by decide)).mpr ?_)
  simp only [followed_ok, ends_bind, ends_beginRound, ends_ask]
  have only : ∀ {exchanges}, Leads (args.SecondUnblocked budget first s.exchanges) exchanges →
      ∃ review, args.reviewer 2 revision true = .ok review ∧ isStale review revision = false ∧
        Survives first.findings review.findings ∧ review.promotionBlockers = [] ∧
        exchanges = roundOf 2 revision review s.exchanges := by
    rintro _ ⟨review, revision', eq, -, rest⟩
    obtain rfl := Except.ok.inj (asked.symm.trans eq)
    exact ⟨review, rest⟩
  cases answered : args.reviewer 2 revision true with
  | error e =>
    refine raise_concludes (by rintro ⟨⟩) fun _ h => ?_
    obtain ⟨_, eq, -⟩ := only h
    cases answered.symm.trans eq
  | ok second =>
  have only : ∀ {exchanges}, Leads (args.SecondUnblocked budget first s.exchanges) exchanges →
      isStale second revision = false ∧ Survives first.findings second.findings ∧
        second.promotionBlockers = [] ∧
        exchanges = roundOf 2 revision second s.exchanges := by
    intro _ h
    obtain ⟨_, eq, rest⟩ := only h
    obtain rfl := Except.ok.inj (answered.symm.trans eq)
    exact rest
  rw [followed_ok, ends_ite]
  refine ⟨fun stale => ?_, fun current => ?_⟩
  · refine concludes_of_rejecting (staleReview_rejecting rfl) fun _ h => ?_
    simp [(only h).1] at stale
  rw [ends_bind, ends_lift]
  by_cases survives : Survives first.findings second.findings
  · rw [survivalFault_eq_ok.mpr survives, followed_ok, ends_ite]
    refine ⟨fun blocked => ?_, fun clear => ?_⟩
    · refine concludes_of_rejecting (stop_rejecting rfl rfl (by decide) (by decide)) fun _ h => ?_
      exact blocked (only h).2.2.1
    · refine accept_concludes rfl fun exchanges => ⟨fun h => (only h).2.2.2, ?_⟩
      rintro rfl
      refine ⟨second, revision, asked, by omega, answered, ?_, survives, ?_, rfl⟩
      · simpa using current
      · simpa using clear
  · cases fault : survivalFault first.findings second.findings _ _ with
    | ok _ => exact absurd (survivalFault_eq_ok.mp fault) survives
    | error e => exact raise_concludes (by rintro ⟨⟩) fun _ h => survives (only h).2.1

def RunArguments.RepairUnblocked (args : RunArguments) (budget : Budget) (first : ReviewResult)
    (finding : ReviewFinding) (before : List Exchange) (last : ReviewResult)
    (exchanges : List Exchange) : Prop :=
  ∃ record, args.repair finding = .ok record ∧ record.findingId = finding.findingId ∧
    args.SecondUnblocked budget first (.repair finding (.ok record) :: before) last exchanges

theorem repairFinding_concludes {first : ReviewResult} {finding : ReviewFinding}
    (hs : s.state = .repairRequired) :
    Ends (w.repairFinding args budget first finding) s
      (Concludes (Leads (args.RepairUnblocked budget first finding s.exchanges))) := by
  simp only [repairFinding, ends_bind, ends_ask]
  cases answered : args.repair finding with
  | error e =>
    refine raise_concludes (by simp [hs]) ?_
    rintro _ ⟨_, _, eq, -⟩
    cases answered.symm.trans eq
  | ok record =>
  rw [followed_ok, ends_ite]
  refine ⟨fun refused => ?_, fun acknowledged => ?_⟩
  · refine ends_throw.mpr (raise_concludes (by simp [hs]) ?_)
    rintro _ ⟨_, _, eq, same, -⟩
    obtain rfl := Except.ok.inj (answered.symm.trans eq)
    simp [same, record.sameOwner_eq] at refused
  refine ends_bind.mpr ((ends_recordReviewTransition (by exact hs) (by decide)).mpr ?_)
  rw [followed_ok, ends_bind]
  refine (ends_recordReviewTransition rfl rfl).mpr ?_
  refine concludes_congr (secondReview_concludes rfl) fun _ => ?_
  constructor
  · rintro ⟨last, _, eq, -, second⟩
    obtain rfl := Except.ok.inj (answered.symm.trans eq)
    exact ⟨last, second⟩
  · rintro ⟨last, second⟩
    exact ⟨last, record, answered, by simpa [record.sameOwner_eq] using acknowledged, second⟩

/-- The first review finds nothing, or everything it finds fits the budget and is repaired. -/
def RunArguments.JudgedUnblocked (args : RunArguments) (budget : Budget) (first : ReviewResult)
    (before : List Exchange) (last : ReviewResult) (exchanges : List Exchange) : Prop :=
  (first.promotionBlockers = [] ∧ last = first ∧ exchanges = before) ∨
    ∃ finding others, first.promotionBlockers = finding :: others ∧
      budget.repairs + others.length < budget.maxRepairs ∧
      args.RepairUnblocked budget first finding before last exchanges

theorem judgeReview_concludes {first : ReviewResult} (hs : s.state = .reviewing) :
    Ends (w.judgeReview args budget first) s
      (Concludes (Leads (args.JudgedUnblocked budget first s.exchanges))) := by
  unfold judgeReview
  split
  · next clear =>
    refine accept_concludes hs fun _ => ⟨?_, fun eq => ⟨first, .inl ⟨clear, rfl, eq⟩⟩⟩
    rintro ⟨_, ⟨-, -, eq⟩ | ⟨_, _, eq, -⟩⟩
    · exact eq
    · exact nomatch clear.symm.trans eq
  · next finding others found =>
    refine ends_bind.mpr ((ends_recordReviewTransition hs (by decide)).mpr ?_)
    rw [followed_ok, ends_ite]
    have only : ∀ {exchanges}, Leads (args.JudgedUnblocked budget first s.exchanges) exchanges →
        budget.repairs + others.length < budget.maxRepairs ∧
          Leads (args.RepairUnblocked budget first finding s.exchanges) exchanges := by
      rintro _ ⟨last, ⟨clear, -⟩ | ⟨_, _, eq, fits, rest⟩⟩
      · exact nomatch found.symm.trans clear
      · obtain ⟨rfl, rfl⟩ := List.cons.inj (found.symm.trans eq)
        exact ⟨fits, last, rest⟩
    refine ⟨fun full => ?_, fun fits => ?_⟩
    · refine concludes_of_rejecting (projectResult_rejecting rfl nofun) fun _ h => ?_
      have := (only h).1
      simp only [List.length_cons] at full
      omega
    · refine concludes_congr (repairFinding_concludes rfl) fun _ => ?_
      refine ⟨fun h => (only h).2, fun ⟨last, h⟩ =>
        ⟨last, .inr ⟨finding, others, found, ?_, h⟩⟩⟩
      simp only [List.length_cons] at fits
      omega

/-- The candidate's review is asked for, comes in on its revision and leads to acceptance. -/
def RunArguments.FirstUnblocked (args : RunArguments) (budget : Budget) (before : List Exchange)
    (last : ReviewResult) (exchanges : List Exchange) : Prop :=
  ∃ revision review, args.currentRevision 1 = .ok revision ∧
    args.reviewer 1 revision true = .ok review ∧ isStale review revision = false ∧
    args.JudgedUnblocked { budget with reviews := budget.reviews + 1 } review
      (roundOf 1 revision review before) last exchanges

theorem firstReview_concludes (hs : s.state = .completed)
    (left : budget.reviews < budget.maxReviews) :
    Ends (w.firstReview args budget) s (Concludes (Leads (args.FirstUnblocked budget s.exchanges))) := by
  simp only [firstReview, ends_bind, ends_ask]
  cases asked : args.currentRevision 1 with
  | error e =>
    refine raise_concludes (by simp [hs]) ?_
    rintro _ ⟨_, revision, _, eq, -⟩
    cases asked.symm.trans eq
  | ok revision =>
  rw [followed_ok, if_neg (by omega)]
  refine ends_bind.mpr ((ends_recordReviewTransition (by exact hs) (by decide)).mpr ?_)
  simp only [followed_ok, ends_bind, ends_beginRound, ends_ask]
  cases answered : args.reviewer 1 revision true with
  | error e =>
    refine raise_concludes (by rintro ⟨⟩) ?_
    rintro _ ⟨_, _, review, eq, eq', -⟩
    obtain rfl := Except.ok.inj (asked.symm.trans eq)
    cases answered.symm.trans eq'
  | ok first =>
  have only : ∀ {exchanges}, Leads (args.FirstUnblocked budget s.exchanges) exchanges →
      isStale first revision = false ∧
        Leads (args.JudgedUnblocked { budget with reviews := budget.reviews + 1 } first
          (roundOf 1 revision first s.exchanges)) exchanges := by
    rintro _ ⟨last, _, review, eq, eq', current, rest⟩
    obtain rfl := Except.ok.inj (asked.symm.trans eq)
    obtain rfl := Except.ok.inj (answered.symm.trans eq')
    exact ⟨current, last, rest⟩
  rw [followed_ok, ends_ite]
  refine ⟨fun stale => ?_, fun current => ?_⟩
  · refine concludes_of_rejecting (staleReview_rejecting rfl) fun _ h => ?_
    simp [(only h).1] at stale
  · refine concludes_congr (judgeReview_concludes rfl) fun _ => ?_
    refine ⟨fun h => (only h).2, ?_⟩
    rintro ⟨last, h⟩
    exact ⟨last, revision, first, asked, answered, by simpa using current, h⟩

/-- The inputs on which nothing blocks the workflow, with its last review and its exchanges. -/
def RunArguments.Unblocked (args : RunArguments) (s : Session) (last : ReviewResult)
    (exchanges : List Exchange) : Prop :=
  s.Startable ∧ (args.budget.getD .standard).exhausted = none ∧
    ∃ fields, args.objective = .ok (.obj fields) ∧
      args.FirstUnblocked (args.budget.getD .standard) (.objective args.objective :: s.exchanges)
        last exchanges

theorem run_concludes (hs : s.state ≠ .accepted) :
    Ends (w.run args) s (Concludes (Leads (args.Unblocked s))) := by
  simp only [run, ends_bind]
  refine startExecutor_ends _ (fun startable s' running exchanges => ?_)
    fun outcome other refused => ?_
  · rw [followed_ok, if_neg (by simp)]
    cases left : (args.budget.getD .standard).exhausted with
    | some limit =>
      refine concludes_of_rejecting (stop_rejecting rfl running (by decide) (by decide)) ?_
      rintro _ ⟨_, -, eq, -⟩
      cases left.symm.trans eq
    | none =>
    rw [ends_bind]
    refine executeObjective_ends running _ (fun fields completed s'' state exchanges' => ?_)
      fun none_ outcome s'' rejecting => ?_
    · rw [followed_ok]
      have room := (Budget.of_not_exhausted left).2
      refine concludes_congr (firstReview_concludes state room) fun _ => ?_
      rw [exchanges', exchanges]
      constructor
      · rintro ⟨last, -, -, _, -, h⟩
        exact ⟨last, h⟩
      · rintro ⟨last, h⟩
        exact ⟨last, startable, left, fields, completed, h⟩
    · have refused : ∀ exchanges, ¬ Leads (args.Unblocked s) exchanges := by
        rintro _ ⟨_, -, -, fields, eq, -⟩
        exact none_ fields eq
      cases outcome with
      | error e => exact .inl ⟨rejecting, refused⟩
      | ok result => exact .inl ⟨rejecting, refused⟩
  · have none_ : ∀ exchanges, ¬ Leads (args.Unblocked s) exchanges := by
      rintro _ ⟨_, h⟩
      exact refused h.1
    cases outcome with
    | error e => exact raise_concludes hs none_
    | ok state =>
      rw [followed_ok, if_pos (fun eq : state = .running => other (eq ▸ rfl))]
      exact raise_concludes hs none_

end ReviewWorkflow

end CodexFlow.Review
