import CodexFlow.Review.Authorities
import CodexFlow.Review.SingleReviewer

/-!
# Acceptance by the review workflow

What the acceptance of a milestone has to rest on, and exactly when it does.
-/

namespace CodexFlow.Review

open Programs (AcceptanceMode WorkflowState)
open Raising Review.Flow ReviewWorkflow

/-- The review accepts the revision, with no finding that blocks its promotion. -/
structure HeardReview.Accepts (review : HeardReview) (revision : String) : Prop where
  revision : review.result.reviewedRevision = revision
  accepted : review.result.accepted = true
  blockers : review.result.promotionBlockers = []

def HeardReview.OwnAuthority (review : HeardReview) : Prop :=
  ∀ mode, review.mode = some mode →
    review.result.reviewerRole = mode.role ∧ review.result.acceptanceMode = mode

structure SoundlyReviewed (declared : List (Option AcceptanceMode)) (maxRepairs : ℕ)
    (exchanges : List Exchange) : Prop where
  reviewed : ∃ revision, lastRevision exchanges = some (.ok revision) ∧
    (∀ mode ∈ declared, ∃ review ∈ lastReviews exchanges, review.mode = mode) ∧
    (∀ review ∈ lastReviews exchanges, review.Accepts revision ∧ review.OwnAuthority) ∧
    ∀ review ∈ lastReviews exchanges, review.mode = some .visual →
      ∃ evidence, review.shown = some evidence ∧ evidence.revision = revision
  repairs : exchanges.countP (·.isRepair) ≤ maxRepairs
  rounds : exchanges.countP (·.isRound) ≤ 2

def Accepting (outcome : Except Raised ReviewLifecycleResult) (s : Session) : Prop :=
  (∃ result, outcome = .ok result ∧ result.accepted = true) ∨ s.state = .accepted

inductive ReviewCall where
  | run (args : RunArguments)
  | runMultiAuthority (args : MultiArguments)

namespace ReviewCall

/-- The modes a call declares; `run` has the one reviewer it is given. -/
def declared : ReviewCall → List (Option AcceptanceMode)
  | run _ => [none]
  | runMultiAuthority args => args.modes.map some

end ReviewCall

namespace ReviewWorkflow

variable (w : ReviewWorkflow) (call : ReviewCall) (s : Session)

def perform : ReviewCall → Flow ReviewLifecycleResult
  | .run args => w.run args
  | .runMultiAuthority args => w.runMultiAuthority args

/-- The budget of a call; the configuration has one when the caller gives none. -/
def maxRepairs : ReviewCall → ℕ
  | .run args => (args.budget.getD .standard).maxRepairs
  | .runMultiAuthority args =>
      match w.config with
      | .ok config => (args.budget.getD config.limits.budget).maxRepairs
      | .error _ => 0

/-- On a milestone in this state, the call accepts on sound reviews only. -/
def SoundOn : Prop :=
  Ends (w.perform call) { s with exchanges := [] } fun outcome s' =>
    Accepting outcome s' → SoundlyReviewed call.declared (w.maxRepairs call) s'.exchanges

/-- Where nothing blocks the call, the last review of the one reviewer does not reject silently, and
the evidence of the last round is of the revision under review. -/
def Heeds : ReviewCall → Prop
  | .run args => ∀ last exchanges, args.Unblocked { s with exchanges := [] } last exchanges →
      ¬ last.RejectsSilently
  | .runMultiAuthority args => ∀ last exchanges,
      MultiUnblocked w args { s with exchanges := [] } last exchanges →
      ∀ evidence, last.evidence = some evidence → evidence.revision = last.token

end ReviewWorkflow

/-! ### Notifications -/

theorem lastReviews_notes {notes exchanges : List Exchange}
    (noted : ∀ note ∈ notes, note.isNotification = true) :
    lastReviews (notes ++ exchanges) = lastReviews exchanges ∧
      lastRevision (notes ++ exchanges) = lastRevision exchanges ∧
      (notes ++ exchanges).countP (·.isRepair) = exchanges.countP (·.isRepair) ∧
      (notes ++ exchanges).countP (·.isRound) = exchanges.countP (·.isRound) := by
  induction notes with
  | nil => exact ⟨rfl, rfl, rfl, rfl⟩
  | cons note notes ih =>
    obtain ⟨reviews, revision, repairs, rounds⟩ :=
      ih fun other mem => noted other (List.mem_cons_of_mem _ mem)
    cases note
    case notification answer =>
      refine ⟨reviews, revision, ?_, ?_⟩
      · simpa [Exchange.isRepair] using repairs
      · simpa [Exchange.isRound] using rounds
    all_goals exact nomatch noted _ List.mem_cons_self

theorem soundlyReviewed_notes {declared : List (Option AcceptanceMode)} {n : ℕ}
    {notes exchanges : List Exchange} (noted : ∀ note ∈ notes, note.isNotification = true) :
    SoundlyReviewed declared n (notes ++ exchanges) ↔ SoundlyReviewed declared n exchanges := by
  obtain ⟨reviews, revision, repairs, rounds⟩ := lastReviews_notes noted
  constructor
  · rintro ⟨reviewed, repairs', rounds'⟩
    rw [reviews, revision] at reviewed
    exact ⟨reviewed, repairs ▸ repairs', rounds ▸ rounds'⟩
  · rintro ⟨reviewed, repairs', rounds'⟩
    rw [← reviews, ← revision] at reviewed
    exact ⟨reviewed, repairs ▸ repairs', rounds ▸ rounds'⟩

theorem sound_iff_of_concludes {x : Flow ReviewLifecycleResult} {s : Session}
    {unblocked : List Exchange → Prop} {declared : List (Option AcceptanceMode)} {n : ℕ}
    (h : Ends x s (Concludes unblocked)) :
    (Ends x s fun outcome s' => Accepting outcome s' → SoundlyReviewed declared n s'.exchanges) ↔
      ∀ exchanges, unblocked exchanges → SoundlyReviewed declared n exchanges := by
  unfold Ends at h ⊢
  generalize (x.exec s).1 = outcome at h ⊢
  generalize (x.exec s).2 = s' at h ⊢
  obtain ⟨⟨state, result⟩, none⟩ | ⟨state, notes, path, noted, split, only⟩ := h
  · refine ⟨fun _ exchanges h => absurd h (none exchanges), fun _ accepting => ?_⟩
    obtain ⟨r, eq, accepted⟩ | accepted := accepting
    · rw [result r eq] at accepted
      cases accepted
    · exact absurd accepted state
  · dsimp only
    rw [split, soundlyReviewed_notes noted]
    refine ⟨fun sound exchanges h => ?_, fun sound _ => sound path ((only path).mpr rfl)⟩
    obtain rfl := (only exchanges).mp h
    exact sound (.inr state)

/-! ### One reviewer -/

variable {n : ℕ}

/-- A round with one reviewer is sound exactly when its review does not reject silently. -/
theorem soundlyReviewed_roundOf {index : ℕ} {revision : String} {review : ReviewResult}
    {before : List Exchange} (current : isStale review revision = false)
    (unblocked : review.promotionBlockers = [])
    (repairs : before.countP (·.isRepair) ≤ n) (rounds : before.countP (·.isRound) ≤ 1) :
    SoundlyReviewed [none] n (roundOf index revision review before) ↔
      ¬ review.RejectsSilently := by
  constructor
  · rintro ⟨⟨revision', -, -, all, -⟩, -, -⟩ ⟨rejected, -⟩
    rw [lastReviews_roundOf] at all
    have := (all _ (List.mem_singleton_self _)).1.accepted
    rw [rejected] at this
    cases this
  · intro speaks
    have accepted : review.accepted = true :=
      eq_true_of_ne_false fun rejected => speaks ⟨rejected, unblocked⟩
    refine ⟨⟨revision, rfl, ?_, ?_, ?_⟩, ?_, ?_⟩
    · simp [lastReviews_roundOf]
    · rw [lastReviews_roundOf]
      intro heard mem
      obtain rfl := List.mem_singleton.mp mem
      exact ⟨⟨(isStale_eq_false.mp current).1, accepted, unblocked⟩, nofun⟩
    · simp [lastReviews_roundOf]
    · simpa [roundOf, Exchange.isRepair] using repairs
    · simpa [roundOf, Exchange.isRound] using rounds

theorem ReviewWorkflow.RunArguments.Unblocked.last_round {args : RunArguments} {s : Session} {last : ReviewResult}
    {exchanges : List Exchange} (h : args.Unblocked { s with exchanges := [] } last exchanges) :
    ∃ index revision before, exchanges = roundOf index revision last before ∧
      isStale last revision = false ∧ last.promotionBlockers = [] ∧
      before.countP (·.isRepair) ≤ (args.budget.getD .standard).maxRepairs ∧
      before.countP (·.isRound) ≤ 1 := by
  obtain ⟨-, left, fields, -, revision, first, -, -, current, judged⟩ := h
  obtain ⟨clear, rfl, rfl⟩ | ⟨finding, others, -, -, record, -, -, revision', -, -, -, current',
    -, clear, rfl⟩ := judged
  · exact ⟨1, revision, _, rfl, current, clear, Nat.zero_le _, Nat.zero_le _⟩
  · refine ⟨2, revision', _, rfl, current', clear, ?_, Nat.le_refl _⟩
    exact Nat.succ_le_of_lt (Nat.lt_of_le_of_lt (Nat.zero_le _) (Budget.of_not_exhausted left).1)

/-! ### Several reviewers -/

theorem WorkflowConfig.required_role {modes : List AcceptanceMode} {mode : AcceptanceMode}
    {role : String} (h : (some mode, role) ∈ WorkflowConfig.required modes) : role = mode.role := by
  simp only [WorkflowConfig.required, List.cons_append, List.mem_cons, Prod.mk.injEq,
    List.mem_append, List.mem_map] at h
  obtain ⟨eq, -⟩ | ⟨_, -, eq, role⟩ | ⟨eq, -⟩ | ⟨eq, -⟩ | other := h
  · cases eq
  · cases eq
    exact role.symm
  · cases eq
  · cases eq
  · cases other

theorem WorkflowConfig.assign_ok {config : WorkflowConfig} {models : Option (List String)}
    {entry : Option AcceptanceMode × String} {assignment : AuthorityAssignment}
    (h : config.assign models entry = .ok assignment) :
    (assignment.mode, assignment.role) = entry := by
  obtain ⟨route, -, h⟩ := Checked.bind_eq_ok.mp h
  split_ifs at h
  cases h
  rfl

theorem WorkflowConfig.deriveAuthorities_ok {config : WorkflowConfig}
    {modes : List AcceptanceMode} {models : Option (List String)} {plan : AuthorityPlan}
    (h : config.deriveAuthorities modes models = .ok plan) :
    (WorkflowConfig.required modes).mapM (config.assign models) = .ok plan.assignments := by
  unfold deriveAuthorities at h
  split_ifs at h
  obtain ⟨assignments, eq, h⟩ := Checked.bind_eq_ok.mp h
  unfold AuthorityPlan.new at h
  split_ifs at h
  all_goals cases h
  exact eq

theorem AuthorityPlan.forMode_ok {plan : AuthorityPlan} {mode : AcceptanceMode}
    {assignment : AuthorityAssignment} (h : plan.forMode mode = .ok assignment) :
    assignment ∈ plan.assignments ∧ assignment.mode = some mode := by
  unfold forMode at h
  split at h
  · next found =>
    cases h
    exact ⟨List.mem_of_find?_eq_some found, by simpa using List.find?_some found⟩
  · cases h

theorem WorkflowConfig.deriveAuthorities_role {config : WorkflowConfig}
    {modes : List AcceptanceMode} {models : Option (List String)} {plan : AuthorityPlan}
    (h : config.deriveAuthorities modes models = .ok plan) {mode : AcceptanceMode}
    {assignment : AuthorityAssignment} (found : plan.forMode mode = .ok assignment) :
    assignment.role = mode.role := by
  obtain ⟨mem, own⟩ := AuthorityPlan.forMode_ok found
  obtain ⟨entry, mem', assigned⟩ := Checked.mem_of_mapM_ok (deriveAuthorities_ok h) _ mem
  rw [← assign_ok assigned, own] at mem'
  exact required_role mem'

namespace Round

variable {round : Round} {plan : AuthorityPlan} {args : MultiArguments}
  {reviews : List ReviewResult} {before : List Exchange}

/-- A review as its exchange shows it. -/
def heard (round : Round) (args : MultiArguments) (mode : AcceptanceMode) (result : ReviewResult) :
    HeardReview :=
  ⟨some mode, (args.callback mode).bind (round.shown mode), result⟩

theorem not_review_of_mem {modes : List AcceptanceMode} {exchange : Exchange}
    (mem : exchange ∈ List.zipWith (round.exchange args) modes reviews) :
    exchange.isRound = false ∧ exchange.isRepair = false ∧ exchange.revision? = none := by
  rw [← List.map_uncurry_zip_eq_zipWith] at mem
  obtain ⟨pair, -, rfl⟩ := List.mem_map.mp mem
  exact ⟨rfl, rfl, rfl⟩

theorem filterMap_exchanges : ∀ {modes : List AcceptanceMode} {reviews : List ReviewResult},
    (List.zipWith (round.exchange args) modes reviews).filterMap (·.review?) =
      List.zipWith (round.heard args) modes reviews
  | [], _ => rfl
  | _ :: _, [] => rfl
  | mode :: modes, review :: reviews => by
    rw [List.zipWith_cons_cons, List.zipWith_cons_cons, List.filterMap_cons,
      filterMap_exchanges]
    rfl

theorem lastReviews_exchanges :
    lastReviews (round.exchanges args reviews before) =
      (List.zipWith (round.heard args) (args.initialReviewModes ++ [.architecture])
        reviews).reverse := by
  have open_ : ∀ exchange ∈ (List.zipWith (round.exchange args)
      (args.initialReviewModes ++ [.architecture]) reviews).reverse, (!exchange.isRound) = true :=
    fun exchange mem => by rw [(not_review_of_mem (List.mem_reverse.mp mem)).1]; rfl
  rw [lastReviews, exchanges, List.takeWhile_append_of_pos open_]
  simp [Exchange.isRound, List.filterMap_reverse, filterMap_exchanges]

theorem lastRevision_exchanges :
    lastRevision (round.exchanges args reviews before) = lastRevision before := by
  have silent : (List.zipWith (round.exchange args)
      (args.initialReviewModes ++ [.architecture]) reviews).reverse.findSome?
      (·.revision?) = none := by
    rw [List.findSome?_eq_none_iff]
    exact fun exchange mem => (not_review_of_mem (List.mem_reverse.mp mem)).2.2
  rw [lastRevision, exchanges, List.findSome?_append, silent]
  rfl

theorem countP_exchanges :
    (round.exchanges args reviews before).countP (·.isRepair) = before.countP (·.isRepair) ∧
      (round.exchanges args reviews before).countP (·.isRound) =
        before.countP (·.isRound) + 1 := by
  have none_ : ∀ p : Exchange → Bool, (∀ exchange ∈ List.zipWith (round.exchange args)
      (args.initialReviewModes ++ [.architecture]) reviews, p exchange = false) →
      (List.zipWith (round.exchange args) (args.initialReviewModes ++ [.architecture])
        reviews).reverse.countP p = 0 := fun p h =>
    List.countP_eq_zero.mpr fun exchange mem => by simp [h exchange (List.mem_reverse.mp mem)]
  simp only [exchanges, List.countP_append]
  rw [none_ _ fun _ mem => (not_review_of_mem mem).2.1, none_ _ fun _ mem => (not_review_of_mem mem).1]
  simp [Exchange.isRepair, Exchange.isRound]

theorem admitReview_ok {mode : AcceptanceMode} {result : ReviewResult}
    (h : round.admitReview plan mode result = .ok ()) :
    (∃ assignment, plan.forMode mode = .ok assignment ∧
      result.reviewerRole = assignment.role) ∧ result.acceptanceMode = mode ∧
      result.reviewedRevision = round.token := by
  unfold admitReview at h
  obtain ⟨assignment, found, h⟩ := Checked.bind_eq_ok.mp h
  split_ifs at h with role own stale visual
  all_goals
    simp only [Bool.or_eq_true, not_or, decide_eq_true_eq, not_not] at stale
    exact ⟨⟨assignment, found, not_not.mp role⟩, not_not.mp own, stale.2⟩

theorem Answered.hears (h : round.Answered plan args reviews) {mode : AcceptanceMode}
    {result : ReviewResult}
    (mem : (mode, result) ∈ List.zip (args.initialReviewModes ++ [.architecture]) reviews) :
    round.Hears plan args mode result := by
  obtain ⟨initial, last, hi, hl, rfl⟩ := h
  rw [List.zip_append hi.length_eq, List.mem_append] at mem
  obtain mem | mem := mem
  · exact (List.forall₂_iff_zip.mp hi).2 mem
  · unfold lateModes at hl
    split_ifs at hl with late
    · exact (List.forall₂_iff_zip.mp hl).2 mem
    · cases hl
      cases mem

theorem exists_zip {α β : Type} {R : α → β → Prop} {as : List α} {bs : List β}
    (h : List.Forall₂ R as bs) {a : α} (mem : a ∈ as) : ∃ b, (a, b) ∈ as.zip bs := by
  induction h with
  | nil => cases mem
  | @cons a' b' _ _ _ _ ih =>
    obtain rfl | mem := List.mem_cons.mp mem
    · exact ⟨b', List.mem_cons_self⟩
    · obtain ⟨b, hb⟩ := ih mem
      exact ⟨b, List.mem_cons_of_mem _ hb⟩

theorem Answered.covers (h : round.Answered plan args reviews)
    (green : reviewsGreen reviews = true) {mode : AcceptanceMode} (mem : mode ∈ args.modes) :
    ∃ result, (mode, result) ∈ List.zip (args.initialReviewModes ++ [.architecture]) reviews := by
  obtain ⟨initial, last, hi, hl, rfl⟩ := h
  rw [List.zip_append hi.length_eq]
  by_cases early : mode ∈ args.initialReviewModes
  · obtain ⟨result, hr⟩ := exists_zip hi early
    exact ⟨result, List.mem_append_left _ hr⟩
  · have others : args.nonArchitectureModes ≠ [] := fun none => by
      simp [MultiArguments.initialReviewModes, none, mem] at early
    have architecture : mode = .architecture := by
      rw [MultiArguments.initialReviewModes, if_neg others] at early
      simpa [MultiArguments.nonArchitectureModes, mem] using early
    subst architecture
    have late : args.architectureIsLate = true := by
      simp [MultiArguments.architectureIsLate, mem, others]
    have greenInitial : reviewsGreen initial = true := by
      rw [reviewsGreen, List.all_append, Bool.and_eq_true] at green
      exact green.1
    have modes : lateModes args initial = [.architecture] := by
      rw [lateModes, late, greenInitial]
      rfl
    rw [modes] at hl
    obtain ⟨result, hr⟩ := exists_zip hl (List.mem_singleton_self _)
    exact ⟨result, List.mem_append_right _ hr⟩

end Round

/-- A green round is sound exactly when the visual reviewer is shown evidence of its revision. -/
theorem soundlyReviewed_round {config : WorkflowConfig} {plan : AuthorityPlan}
    {args : MultiArguments} {round : Round} {before exchanges : List Exchange}
    (derived : config.deriveAuthorities args.modes args.availableModels = .ok plan)
    (unblocked : RoundUnblocked round plan args before exchanges)
    (revision : lastRevision before = some (.ok round.token))
    (visual : round.evidence.isSome = true ↔ AcceptanceMode.visual ∈ args.modes)
    (repairs : before.countP (·.isRepair) ≤ n) (rounds : before.countP (·.isRound) ≤ 1) :
    SoundlyReviewed (args.modes.map some) n exchanges ↔
      ∀ evidence, round.evidence = some evidence → evidence.revision = round.token := by
  obtain ⟨reviews, answered, green, rfl⟩ := unblocked
  have given : ∀ review, review ∈ lastReviews (round.exchanges args reviews before) ↔
      ∃ mode result, (mode, result) ∈ List.zip (args.initialReviewModes ++ [.architecture]) reviews ∧
        review = round.heard args mode result := by
    intro review
    rw [Round.lastReviews_exchanges, List.mem_reverse, ← List.map_uncurry_zip_eq_zipWith,
      List.mem_map]
    constructor
    · rintro ⟨⟨mode, result⟩, mem, rfl⟩
      exact ⟨mode, result, mem, rfl⟩
    · rintro ⟨mode, result, mem, rfl⟩
      exact ⟨(mode, result), mem, rfl⟩
  have shown : ∀ {result}, round.Hears plan args .visual result →
      (round.heard args .visual result).shown = round.evidence := by
    rintro _ ⟨reviewer, callback, -⟩
    simp only [Round.heard, callback, Option.bind_some]
    rfl
  constructor
  · rintro ⟨⟨revision', last, -, -, carried⟩, -, -⟩ evidence eq
    rw [Round.lastRevision_exchanges, revision] at last
    cases last
    obtain ⟨result, mem⟩ := answered.covers green (visual.mp (by rw [eq]; rfl))
    obtain ⟨evidence', shown', current⟩ :=
      carried _ ((given _).mpr ⟨_, result, mem, rfl⟩) rfl
    rw [shown (answered.hears mem), eq] at shown'
    cases shown'
    exact current
  · intro current
    obtain ⟨repairs', rounds'⟩ := @Round.countP_exchanges round args reviews before
    refine ⟨⟨round.token, ?_, ?_, ?_, ?_⟩, by omega, by omega⟩
    · rw [Round.lastRevision_exchanges, revision]
    · intro _ declared
      obtain ⟨mode, mem, rfl⟩ := List.mem_map.mp declared
      obtain ⟨result, mem'⟩ := answered.covers green mem
      exact ⟨_, (given _).mpr ⟨mode, result, mem', rfl⟩, rfl⟩
    · intro review heard
      obtain ⟨mode, result, mem, rfl⟩ := (given _).mp heard
      obtain ⟨-, -, -, admitted⟩ := answered.hears mem
      obtain ⟨⟨assignment, found, role⟩, own, revision'⟩ := Round.admitReview_ok admitted
      have accepts := List.all_eq_true.mp green result (List.of_mem_zip mem).2
      rw [Bool.and_eq_true, decide_eq_true_eq] at accepts
      refine ⟨⟨revision', accepts.1, accepts.2⟩, ?_⟩
      intro _ eq
      cases eq
      exact ⟨role.trans (WorkflowConfig.deriveAuthorities_role derived found), own⟩
    · intro review heard isVisual
      obtain ⟨mode, result, mem, rfl⟩ := (given _).mp heard
      obtain rfl : mode = .visual := Option.some.inj isVisual
      rw [shown (answered.hears mem)]
      have declared : AcceptanceMode.visual ∈ args.modes := by
        have early := (List.of_mem_zip mem).1
        simp only [List.mem_append, List.mem_singleton, reduceCtorEq, or_false] at early
        unfold MultiArguments.initialReviewModes at early
        split_ifs at early
        · exact early
        · exact List.mem_of_mem_filter early
      obtain ⟨evidence, eq⟩ := Option.isSome_iff_exists.mp (visual.mpr declared)
      exact ⟨evidence, eq, current evidence eq⟩

/-- The last round is green; before it came its revision, its evidence when the visual mode is
declared, at most one other round and so many repairs. -/
def EndsOn (args : MultiArguments) (plan : AuthorityPlan) (repairs : ℕ) (last : Round)
    (exchanges : List Exchange) : Prop :=
  ∃ before, RoundUnblocked last plan args before exchanges ∧
    lastRevision before = some (.ok last.token) ∧
    (last.evidence.isSome = true ↔ AcceptanceMode.visual ∈ args.modes) ∧
    before.countP (·.isRepair) ≤ repairs ∧ before.countP (·.isRound) ≤ 1

section

variable {args : MultiArguments} {plan : AuthorityPlan} {budget : Budget} {last : Round}
  {before exchanges : List Exchange} {first : List ReviewResult}
  {evidence : Option RenderedEvidence}

theorem RefreshUnblocked.endsOn
    (h : RefreshUnblocked args plan evidence first before last exchanges)
    (visual : evidence.isSome = true ↔ AcceptanceMode.visual ∈ args.modes)
    (repairs : before.countP (·.isRepair) ≤ n) (rounds : before.countP (·.isRound) ≤ 1) :
    EndsOn args plan n last exchanges := by
  obtain ⟨token, -, h⟩ := h
  split_ifs at h with declared
  · obtain ⟨refreshed, -, -, rfl, round⟩ := h
    exact ⟨_, round, rfl, by simp [declared], repairs, rounds⟩
  · obtain ⟨rfl, round⟩ := h
    exact ⟨_, round, rfl, visual, repairs, rounds⟩

theorem RepairUnblocked.endsOn
    (h : RepairUnblocked args plan budget evidence first before last exchanges)
    (visual : evidence.isSome = true ↔ AcceptanceMode.visual ∈ args.modes)
    (repairs : before.countP (·.isRepair) ≤ 0) (rounds : before.countP (·.isRound) ≤ 1) :
    EndsOn args plan 1 last exchanges := by
  obtain ⟨-, finding, _, record, -, -, -, refresh⟩ := h
  refine refresh.endsOn visual ?_ ?_
  · simpa [Exchange.isRepair] using repairs
  · simpa [Exchange.isRound] using rounds

theorem ReplanUnblocked.endsOn
    (h : ReplanUnblocked args plan budget evidence first before last exchanges)
    (visual : evidence.isSome = true ↔ AcceptanceMode.visual ∈ args.modes)
    (repairs : before.countP (·.isRepair) ≤ 0) (rounds : before.countP (·.isRound) ≤ 1) :
    EndsOn args plan 1 last exchanges := by
  unfold ReplanUnblocked at h
  split at h
  · exact h.endsOn visual repairs rounds
  · obtain ⟨_, _, -, -, -, repair⟩ := h
    refine repair.endsOn visual ?_ ?_
    · simpa [Exchange.isRepair] using repairs
    · simpa [Exchange.isRound] using rounds

theorem FirstUnblocked.endsOn {round : Round}
    (h : FirstUnblocked args plan budget round before last exchanges)
    (revision : lastRevision before = some (.ok round.token))
    (visual : round.evidence.isSome = true ↔ AcceptanceMode.visual ∈ args.modes)
    (repairs : before.countP (·.isRepair) = 0) (rounds : before.countP (·.isRound) = 0) :
    EndsOn args plan 1 last exchanges := by
  obtain ⟨rfl, round⟩ | ⟨reviews, -, -, -, replan⟩ := h
  · exact ⟨before, round, revision, visual, by omega, by omega⟩
  · obtain ⟨repairs', rounds'⟩ := @Round.countP_exchanges round args reviews before
    exact replan.endsOn visual (by omega) (by omega)

theorem FixUnblocked.endsOn (h : FixUnblocked args plan budget before last exchanges)
    (repairs : before.countP (·.isRepair) = 0) (rounds : before.countP (·.isRound) = 0) :
    EndsOn args plan 1 last exchanges := by
  obtain ⟨token, -, h⟩ := h
  split_ifs at h with declared
  · obtain ⟨rendered, -, -, round⟩ := h
    exact round.endsOn rfl (by simp [declared]) repairs rounds
  · exact h.endsOn rfl (by simp [declared]) repairs rounds

end

/-! ### The claim -/

/-- A call on an accepted milestone raises before it asks anything. -/
theorem perform_of_accepted {w : ReviewWorkflow} {call : ReviewCall} {s : Session}
    (hs : s.state = .accepted) : Ends (w.perform call) s fun _ s' => s' = s := by
  have refused : ¬ s.Startable := by simp [Session.Startable, hs]
  cases call with
  | run args =>
    simp only [perform, ReviewWorkflow.run, ends_bind]
    refine startExecutor_ends _ (fun startable => absurd startable refused)
      fun outcome other _ => ?_
    cases outcome with
    | error e => exact rfl
    | ok state =>
      rw [followed_ok, if_pos (fun eq : state = .running => other (eq ▸ rfl))]
      exact rfl
  | runMultiAuthority args =>
    simp only [perform, ReviewWorkflow.runMultiAuthority, ends_bind, ends_lift]
    cases w.config with
    | error e => exact rfl
    | ok config =>
    simp only [followed_ok, ends_bind, ends_lift]
    cases config.deriveAuthorities args.modes args.availableModels with
    | error e => exact rfl
    | ok plan =>
    simp only [followed_ok, ends_bind, ends_lift]
    cases args.available with
    | error e => exact rfl
    | ok _ =>
    simp only [followed_ok, ends_bind]
    refine startExecutor_ends _ (fun startable => absurd startable refused)
      fun outcome other _ => ?_
    cases outcome with
    | error e => exact rfl
    | ok state =>
      rw [followed_ok, if_pos (fun eq : state = .running => other (eq ▸ rfl))]
      exact rfl

/-- Acceptance rests on sound reviews exactly when the milestone was not accepted before, the one
reviewer of `run` does not reject silently, and the evidence of the repaired candidate is of its
revision. -/
theorem acceptance_sound_iff (w : ReviewWorkflow) (call : ReviewCall) (s : Session) :
    w.SoundOn call s ↔ s.state ≠ .accepted ∧ w.Heeds s call := by
  by_cases accepted : s.state = .accepted
  · refine ⟨fun sound => ?_, fun h => absurd accepted h.1⟩
    have unmoved := @perform_of_accepted w call { s with exchanges := [] } accepted
    obtain ⟨⟨_, revision, -⟩, -, -⟩ := sound (.inr (by rw [unmoved]; exact accepted))
    rw [unmoved] at revision
    cases revision
  refine Iff.trans ?_ (and_iff_right accepted).symm
  cases call with
  | run args =>
    refine (sound_iff_of_concludes (run_concludes (by exact accepted))).trans ?_
    constructor
    · intro sound last exchanges h
      obtain ⟨_, _, _, rfl, current, clear, repairs, rounds⟩ := h.last_round
      exact (soundlyReviewed_roundOf current clear repairs rounds).mp (sound _ ⟨last, h⟩)
    · rintro heeds exchanges ⟨last, h⟩
      obtain ⟨_, _, _, rfl, current, clear, repairs, rounds⟩ := h.last_round
      exact (soundlyReviewed_roundOf current clear repairs rounds).mpr (heeds _ _ h)
  | runMultiAuthority args =>
    refine (sound_iff_of_concludes (runMultiAuthority_concludes (by exact accepted))).trans ?_
    have round : ∀ {last exchanges},
        MultiUnblocked w args { s with exchanges := [] } last exchanges →
        (SoundlyReviewed (args.modes.map some) (w.maxRepairs (.runMultiAuthority args)) exchanges ↔
          ∀ evidence, last.evidence = some evidence → evidence.revision = last.token) := by
      rintro last exchanges ⟨config, plan, fields, loaded, derived, -, -, left, -, fixed⟩
      obtain ⟨before, unblocked, revision, visual, repairs, rounds⟩ :=
        fixed.endsOn rfl rfl
      refine soundlyReviewed_round derived unblocked revision visual (repairs.trans ?_) rounds
      simp only [maxRepairs, loaded]
      exact Nat.succ_le_of_lt
        (Nat.lt_of_le_of_lt (Nat.zero_le _) (Budget.of_not_exhausted left).1)
    constructor
    · intro sound last exchanges h
      exact (round h).mp (sound _ ⟨last, h⟩)
    · rintro heeds exchanges ⟨last, h⟩
      exact (round h).mpr (heeds _ _ h)

/-! ### Two calls that accept without a sound review -/

/-- The routes of the repository's configuration, every role on one model. -/
def sampleConfig : WorkflowConfig where
  roles := ["planner", "executor", "code-reviewer", "visual-reviewer", "architecture-reviewer",
    "recovery", "decision"].map fun role => (role, ⟨role, "gpt-5", .high⟩)
  limits := ⟨2, 1, 1, 2, 2, 900⟩

def sampleWorkflow : ReviewWorkflow := ⟨.ok sampleConfig, fun _ => .ok ()⟩

def sampleSession : Session := ⟨.planned, none, [], []⟩

def silentRejection (revision : String) : ReviewResult :=
  ⟨"review-1", "code-reviewer", false, [], revision, true, true, none, .objective, [],
    List.nodup_nil, rfl, nofun⟩

def silentRun : RunArguments where
  objective := .ok (.obj [])
  reviewer _ revision _ := .ok (silentRejection revision)
  repair _ := .error (.other "AssertionError")
  currentRevision _ := .ok "candidate"
  budget := none

def sampleFinding : ReviewFinding :=
  ⟨"F-objective", .implementation, .P1, true, "repair the target marker", .obj [],
    "target has the repaired marker", none, false⟩

/-- The objective reviewer: a finding in the first round, acceptance in the second. -/
def objectiveReview (round : ℕ) (revision : String) : ReviewResult :=
  if round = 1 then
    ⟨"objective-1", "code-reviewer", false, [sampleFinding], revision, true, true, none,
      .objective, [], by simp, rfl, nofun⟩
  else
    ⟨"objective-2", "code-reviewer", true, [], revision, true, true, some "objective-1",
      .objective, [], List.nodup_nil, rfl, fun _ => rfl⟩

def visualReview (revision : String) : ReviewResult :=
  ⟨"visual", "visual-reviewer", true, [], revision, true, true, none, .visual, ["render-1"],
    List.nodup_nil, rfl, fun _ => rfl⟩

def candidateEvidence : RenderedEvidence :=
  ⟨"render-1", "candidate", "0000000000000000000000000000000000000000000000000000000000000000", "render.svg", some 1,
    some 1⟩

/-- The second evidence still shows the candidate as it was before the repair. -/
def staleRender : MultiArguments where
  objective := .ok (.obj [])
  repair finding :=
    .ok ⟨"repair-1", finding.findingId, "multi/m/executor/1", "write", "repaired", true, false, rfl⟩
  currentRevision round := .ok (if round = 1 then "candidate" else "repaired")
  acceptanceModes := some [.objective, .visual]
  capsule := none
  reviewers := []
  objectiveReviewer := some ⟨false, fun round revision _ => .ok (objectiveReview round revision)⟩
  visualReviewer := some ⟨true, fun _ revision _ => .ok (visualReview revision)⟩
  architectureReviewer := none
  renderEvidence := some fun _ _ => .ok candidateEvidence
  architectureReplan := none
  planner := none
  notification := none
  budget := none
  availableModels := none

/-- `run` accepts on a review that rejects, and `run_multi_authority` on evidence of the candidate
before its repair. -/
theorem unsound_acceptances :
    ¬ sampleWorkflow.SoundOn (.run silentRun) sampleSession ∧
      ¬ sampleWorkflow.SoundOn (.runMultiAuthority staleRender) sampleSession := by
  constructor
  · intro sound
    let final := (exec (sampleWorkflow.perform (.run silentRun)) sampleSession).2
    have accepted : final.state = .accepted := by decide
    have rejected : (lastReviews final.exchanges).any (!·.result.accepted) = true := by
      decide
    obtain ⟨⟨_, -, -, all, -⟩, -, -⟩ := sound (.inr accepted)
    obtain ⟨review, mem, rejects⟩ := List.any_eq_true.mp rejected
    rw [(all review mem).1.accepted] at rejects
    cases rejects
  · intro sound
    let final := (exec (sampleWorkflow.perform (.runMultiAuthority staleRender)) sampleSession).2
    have accepted : final.state = .accepted := by decide +kernel
    have repaired : (lastRevision final.exchanges).bind (·.toOption) = some "repaired" := by
      decide +kernel
    have stale : (lastReviews final.exchanges).any (fun review =>
        review.mode = some .visual && review.shown = some candidateEvidence) = true := by
      decide +kernel
    obtain ⟨⟨revision, last, -, -, carried⟩, -, -⟩ := sound (.inr accepted)
    obtain ⟨review, mem, shown⟩ := List.any_eq_true.mp stale
    rw [Bool.and_eq_true, decide_eq_true_eq, decide_eq_true_eq] at shown
    obtain ⟨evidence, eq, current⟩ := carried review mem shown.1
    obtain rfl := Option.some.inj (shown.2.symm.trans eq)
    have fresh : "repaired" = revision := by
      change lastRevision final.exchanges = _ at last
      rw [last] at repaired
      exact (Option.some.inj repaired).symm
    exact absurd (fresh.trans current.symm) (by decide)

end CodexFlow.Review
