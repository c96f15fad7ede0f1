import CodexFlow.Git.Integration

/-!
# Integration happens once

Over any number of calls that stop anywhere, the trunk stays at its expected head or at a commit
that the request authorizes, and moves there again only after a rollback. A merge of the trunk's
own head is the exception: its commit has one parent only.
-/

namespace CodexFlow.Git

open Hook (PyStr lit)
open Scripted

variable {Commit Tree : Type}

/-! ### Single commands -/

section Commands

variable {α β : Type} {w : World Commit Tree}

theorem always_inspect {error : IntegrationError} {read : World Commit Tree → Option α}
    {Q : Except (Option IntegrationError) α → World Commit Tree → Prop}
    (stopped : ∀ e, Q (.error e) w) (h : ∀ a, read w = some a → Q (.ok a) w) :
    Always (inspect error read) w Q := by
  refine always_bind (always_next (stopped none) fun event => ?_)
  refine always_bind (always_world ?_)
  dsimp only
  split
  next answer _ eq => exact always_pure (h answer eq)
  next => exact always_fail (stopped _)

theorem reads_inspect (error : IntegrationError) (read : World Commit Tree → Option α) :
    Reads (inspect error read) := fun _ => always_inspect (fun _ => rfl) fun _ _ => rfl

theorem inspect_bind {error : IntegrationError} {read : World Commit Tree → Option α}
    {f : α → Command Commit Tree β}
    {Q : Except (Option IntegrationError) β → World Commit Tree → Prop}
    (stopped : ∀ e, Q (.error e) w) (h : ∀ a, read w = some a → Always (f a) w Q) :
    Always (inspect error read >>= f) w Q :=
  always_bind (always_inspect stopped h)

theorem reads_require (c : Prop) [Decidable c] (error : IntegrationError) :
    Reads (require c error : Command Commit Tree Unit) := reads_ite reads_pure reads_fail

theorem require_bind {c : Prop} [Decidable c] {error : IntegrationError}
    {f : Unit → Command Commit Tree β}
    {Q : Except (Option IntegrationError) β → World Commit Tree → Prop}
    (stopped : ∀ e, Q (.error e) w) (h : c → Always (f ()) w Q) :
    Always (require c error >>= f) w Q :=
  always_bind (always_ite (fun hc => always_pure (h hc)) fun _ => always_fail (stopped _))

theorem reads_succeeds (read : World Commit Tree → Bool) : Reads (succeeds read) :=
  reads_next.bind fun _ => reads_world.bind fun _ => reads_pure

theorem succeeds_bind {read : World Commit Tree → Bool} {f : Bool → Command Commit Tree β}
    {Q : Except (Option IntegrationError) β → World Commit Tree → Prop}
    (stopped : ∀ e, Q (.error e) w) (yes : read w = true → Always (f true) w Q)
    (no : Always (f false) w Q) : Always (succeeds read >>= f) w Q := by
  refine always_bind (always_bind (always_next (stopped none) fun event => ?_))
  refine always_bind (always_world (always_pure ?_))
  show Always (f (event.succeeds && read w)) w Q
  cases event.succeeds with
  | false => exact no
  | true =>
    cases hr : read w with
    | true => exact yes hr
    | false => exact no

end Commands

theorem reads_requireCleanCheckout (label : String) (clean : World Commit Tree → Bool) :
    Reads (requireCleanCheckout label clean) :=
  (reads_inspect _ _).bind fun _ => reads_require _ _

theorem reads_requireTrunkRef : Reads (requireTrunkRef : Command Commit Tree PyStr) :=
  (reads_inspect _ _).bind fun _ => (reads_require _ _).bind fun _ => reads_pure

variable [DecidableEq Commit] {objects : Objects Commit Tree} {w : World Commit Tree}

def World.moved (w : World Commit Tree) (target : Commit) : World Commit Tree :=
  { w with head := target, reflog := w.reflog ++ [(w.head, target)] }

theorem always_updateRef {new old : Commit}
    {Q : Except (Option IntegrationError) Bool → World Commit Tree → Prop}
    (crash : Q (.error none) w) (refused : Q (.ok false) w)
    (moved : w.head = old → Q (.ok true) (w.moved new)) :
    Always (updateRef new old) w Q := by
  refine always_bind (always_next crash fun event => always_bind (always_world ?_))
  refine always_ite (fun h => ?_) fun _ => always_pure refused
  obtain ⟨-, rfl⟩ := h
  exact always_bind (always_update (always_pure (moved rfl)))

theorem always_readTree {target : Commit}
    {Q : Except (Option IntegrationError) Bool → World Commit Tree → Prop}
    (crash : Q (.error none) w) (h : ∀ done checkout, Q (.ok done) { w with checkout }) :
    Always (readTree objects target) w Q := by
  refine always_bind (always_next crash fun event => ?_)
  refine always_ite (fun _ => ?_) fun _ => ?_
  · exact always_bind (always_update (always_pure (h true _)))
  · exact always_bind (always_update (always_pure (h false _)))

variable [DecidableEq Tree]

/-- What passes the check of the trunk's checkout has a clean one. -/
theorem always_requireCleanTrunk {label : String}
    {Q : Except (Option IntegrationError) Unit → World Commit Tree → Prop}
    (stopped : ∀ e, Q (.error e) w) (h : w.Clean objects → Q (.ok ()) w) :
    Always (requireCleanTrunk objects label) w Q := by
  refine inspect_bind stopped fun clean eq => ?_
  cases eq
  exact always_ite (fun clean => always_pure (h (of_decide_eq_true clean)))
    fun _ => always_fail (stopped _)

theorem reads_checkoutMatchesHead (head : Commit) : Reads (checkoutMatchesHead objects head) := by
  refine (reads_inspect _ _).bind fun indexed => reads_ite ?_ reads_pure
  refine (reads_inspect _ _).bind fun tracked => reads_ite ?_ reads_pure
  exact (reads_inspect _ _).bind fun untracked => reads_pure

/-! ### The checkout follows the ref -/

theorem always_synchronizeAttempts (target expected : Commit) (attempts : ℕ) :
    ∀ w : World Commit Tree, Always (synchronizeAttempts objects target expected attempts) w
      fun _ w' => ∃ checkout, w' = { w with checkout } := by
  induction attempts with
  | zero => exact fun w => always_pure ⟨w.checkout, rfl⟩
  | succ attempts ih =>
    intro w
    have stopped : ∃ checkout, w = { w with checkout } := ⟨w.checkout, rfl⟩
    refine (reads_checkoutMatchesHead target).always_bind (fun _ => stopped) fun matched => ?_
    refine always_ite (fun _ => always_pure stopped) fun _ => ?_
    refine (reads_checkoutMatchesHead expected).always_bind (fun _ => stopped) fun unchanged => ?_
    refine require_bind (fun _ => stopped) fun _ => ?_
    refine always_bind (always_readTree stopped fun done checkout => ?_)
    refine always_ite (fun _ => always_pure ⟨checkout, rfl⟩) fun _ => ?_
    refine (ih { w with checkout }).mono fun _ w' h => ?_
    obtain ⟨checkout', rfl⟩ := h
    exact ⟨checkout', rfl⟩

/-- A synchronization ends with the ref where it was, or raises after a rollback. -/
theorem always_synchronize (target rollback expected : Commit) (w : World Commit Tree) :
    Always (synchronizeCheckoutOrRollback objects target rollback expected) w fun r w' =>
      (∃ checkout, w' = { w with checkout }) ∨
        (∃ e, r = .error e) ∧ ∃ checkout, w' = { w.moved rollback with checkout } := by
  refine always_bind ((always_synchronizeAttempts target expected 2 w).mono fun r w' h => ?_)
  obtain ⟨checkout, rfl⟩ := h
  cases r with
  | error e => exact .inl ⟨checkout, rfl⟩
  | ok returned =>
    refine always_ite (fun _ => always_pure (.inl ⟨checkout, rfl⟩)) fun _ => ?_
    refine (reads_checkoutMatchesHead target).always_bind (fun _ => .inl ⟨checkout, rfl⟩)
      fun matched => ?_
    refine always_ite (fun _ => always_pure (.inl ⟨checkout, rfl⟩)) fun _ => ?_
    refine (reads_checkoutMatchesHead expected).always_bind (fun _ => .inl ⟨checkout, rfl⟩)
      fun unchanged => ?_
    refine require_bind (fun _ => .inl ⟨checkout, rfl⟩) fun _ => ?_
    refine always_bind (always_updateRef (.inl ⟨checkout, rfl⟩) ?_ fun _ => ?_)
    · exact require_bind (fun _ => .inl ⟨checkout, rfl⟩) nofun
    · have raised : ∀ e, (∃ e' : Option IntegrationError, (.error e : Except _ Unit) = .error e') ∧
          ∃ checkout', { w.moved rollback with checkout } =
            { w.moved rollback with checkout := checkout' } :=
        fun e => ⟨⟨e, rfl⟩, checkout, rfl⟩
      refine require_bind (fun e => .inr (raised e)) fun _ => ?_
      refine always_bind (always_requireCleanTrunk (fun e => .inr (raised e)) fun _ => ?_)
      exact always_fail (.inr (raised _))

/-! ### What a request authorizes -/

variable {site : Site Commit Tree} {request : IntegrationRequest Commit}

/-- The commits that a strategy may leave as the trunk's head. -/
def IntegrationRequest.Effect (objects : Objects Commit Tree) (request : IntegrationRequest Commit)
    (commit : Commit) : Strategy → Prop
  | .fastForward => commit = request.candidateSha
  | .merge =>
    objects.parents commit = [request.expectedTrunkHead, request.candidateSha] ∧
      objects.mergeTree none request.expectedTrunkHead request.candidateSha =
        some (objects.tree commit)
  | .cherryPick =>
    objects.parents commit = [request.expectedTrunkHead] ∧
      ∃ base, objects.parents request.candidateSha = [base] ∧
        objects.mergeTree base request.expectedTrunkHead request.candidateSha =
          some (objects.tree commit)

def IntegrationRequest.Authorizes (objects : Objects Commit Tree)
    (request : IntegrationRequest Commit) (commit : Commit) : Prop :=
  ∃ strategy, Strategy.ofText request.strategy = some strategy ∧
    request.Effect objects commit strategy

/-- The request does not merge the trunk's own head. -/
def IntegrationRequest.MergesAnother (request : IntegrationRequest Commit) : Prop :=
  Strategy.ofText request.strategy = some .merge →
    request.candidateSha ≠ request.expectedTrunkHead

omit [DecidableEq Tree] in
theorem mergeTree_bind {β : Type} {left right : Commit} {base : Option Commit}
    {f : Option Tree → Command Commit Tree β}
    {Q : Except (Option IntegrationError) β → World Commit Tree → Prop}
    (stopped : ∀ e, Q (.error e) w) (failed : Always (f none) w Q)
    (h : Always (f (objects.mergeTree base left right)) w Q) :
    Always (mergeTree objects left right base >>= f) w Q := by
  refine always_bind (always_bind (always_next (stopped none) fun event => always_pure ?_))
  show Always (f (if event.succeeds = true then objects.mergeTree base left right else none)) w Q
  split_ifs
  · exact h
  · exact failed

theorem always_recoveryMatches (strategy : Strategy) (actual : Commit)
    (w : World Commit Tree) :
    Always (recoveryMatches objects request strategy (objects.parents actual)
      (objects.tree actual) actual) w fun r w' =>
        w' = w ∧ (r = .ok true → request.Effect objects actual strategy) := by
  cases strategy with
  | fastForward =>
    have answer : ∀ ancestry, (.ok (decide (actual = request.candidateSha) && ancestry) :
        Except (Option IntegrationError) Bool) = .ok true →
          request.Effect objects actual .fastForward := by
      intro ancestry eq
      have both := Except.ok.inj eq
      rw [Bool.and_eq_true] at both
      have same : actual = request.candidateSha := of_decide_eq_true both.1
      exact same
    exact succeeds_bind (fun _ => ⟨rfl, nofun⟩) (fun _ => always_pure ⟨rfl, answer true⟩)
      (always_pure ⟨rfl, answer false⟩)
  | merge =>
    refine mergeTree_bind (fun _ => ⟨rfl, nofun⟩) (always_pure ⟨rfl, fun eq => ?_⟩)
      (always_pure ⟨rfl, fun eq => ?_⟩)
    · exact absurd (of_decide_eq_true (Except.ok.inj eq)).2 nofun
    · have both := of_decide_eq_true (Except.ok.inj eq)
      exact ⟨both.1, both.2⟩
  | cherryPick =>
    refine inspect_bind (fun _ => ⟨rfl, nofun⟩) fun candidateParents eq => ?_
    cases eq
    split
    next base one =>
      refine mergeTree_bind (fun _ => ⟨rfl, nofun⟩) (always_pure ⟨rfl, fun eq => ?_⟩)
        (always_pure ⟨rfl, fun eq => ?_⟩)
      · exact absurd (of_decide_eq_true (Except.ok.inj eq)).2 nofun
      · have both := of_decide_eq_true (Except.ok.inj eq)
        exact ⟨both.1, base, one, both.2⟩
    next => exact always_pure ⟨rfl, nofun⟩

omit [DecidableEq Tree] in
theorem always_prepareTarget {strategy : Strategy}
    (another : strategy = .merge → request.candidateSha ≠ request.expectedTrunkHead)
    (w : World Commit Tree) :
    Always (prepareTarget objects request strategy) w fun r w' =>
      w' = w ∧ ∀ prepared, r = .ok prepared → request.Effect objects prepared.2 strategy := by
  have stopped : ∀ e : Option IntegrationError, w = w ∧ ∀ prepared : Tree × Commit,
      (.error e : Except _ _) = .ok prepared → request.Effect objects prepared.2 strategy :=
    fun _ => ⟨rfl, nofun⟩
  unfold prepareTarget
  cases strategy with
  | fastForward =>
    refine (reads_succeeds _).always_bind stopped fun ancestry => require_bind stopped fun _ => ?_
    refine (reads_inspect _ _).always_bind stopped fun tree => always_pure ⟨rfl, ?_⟩
    rintro _ ⟨⟩
    rfl
  | merge =>
    refine (reads_inspect _ _).always_bind stopped fun candidateParents => ?_
    refine require_bind stopped fun _ => mergeTree_bind stopped (always_fail (stopped _)) ?_
    split
    next => exact always_fail (stopped _)
    next expectedTree merged =>
      refine always_bind (always_bind (always_next (stopped none) fun event => ?_))
      refine always_ite (fun _ => always_pure (always_pure ⟨rfl, ?_⟩))
        fun _ => always_fail (stopped _)
      rintro _ ⟨⟩
      refine ⟨?_, ?_⟩
      · rw [objects.parents_commitTree, if_pos rfl]
        simp [List.eraseDups_cons, another rfl]
      · rw [objects.tree_commitTree]
        exact merged
  | cherryPick =>
    refine inspect_bind stopped fun candidateParents eq => ?_
    cases eq
    refine require_bind stopped fun single => mergeTree_bind stopped (always_fail (stopped _)) ?_
    split
    next => exact always_fail (stopped _)
    next expectedTree merged =>
      refine always_bind (always_bind (always_next (stopped none) fun event => ?_))
      refine always_ite (fun _ => always_pure (always_pure ⟨rfl, ?_⟩))
        fun _ => always_fail (stopped _)
      rintro _ ⟨⟩
      obtain ⟨base, one⟩ : ∃ base, objects.parents request.candidateSha = [base] :=
        List.length_eq_one_iff.mp (by simpa using single)
      refine ⟨?_, base, one, ?_⟩
      · rw [objects.parents_commitTree, if_neg nofun]
        simp [List.eraseDups_cons]
      · rw [objects.tree_commitTree]
        simpa [one] using merged

/-! ### One call -/

/-- The checkout has been brought to the head of `w`, or the ref has been rolled back. -/
def Synchronized (objects : Objects Commit Tree) (request : IntegrationRequest Commit)
    (w : World Commit Tree)
    (r : Except (Option IntegrationError) (IntegrationReceipt Commit Tree))
    (w' : World Commit Tree) : Prop :=
  (∃ checkout, w' = { w with checkout } ∧ ∀ receipt, r = .ok receipt →
    w'.Clean objects ∧ receipt.beforeTrunkHead = request.expectedTrunkHead ∧
      receipt.afterTrunkHead = w.head) ∨
  (∃ e, r = .error e) ∧ ∃ checkout, w' = { w.moved request.expectedTrunkHead with checkout }

/-- The trunk is at an authorized commit, or moves there from its expected head. -/
def Applied (objects : Objects Commit Tree) (request : IntegrationRequest Commit)
    (w w₁ : World Commit Tree) : Prop :=
  (w.head ≠ request.expectedTrunkHead ∧ w₁ = w ∧ request.Authorizes objects w.head) ∨
  (w.head = request.expectedTrunkHead ∧
    ∃ target, request.Authorizes objects target ∧ w₁ = w.moved target)

/-- How a call may end: it raises and leaves everything, or it synchronizes an applied effect. -/
def Outcome (objects : Objects Commit Tree) (request : IntegrationRequest Commit)
    (w : World Commit Tree)
    (r : Except (Option IntegrationError) (IntegrationReceipt Commit Tree))
    (w' : World Commit Tree) : Prop :=
  ((∃ e, r = .error e) ∧ w' = w) ∨
    ∃ w₁, Applied objects request w w₁ ∧ Synchronized objects request w₁ r w'

/-- What follows a synchronization only reads, and reports a clean checkout. -/
theorem always_synchronized {β : Type}
    {f : Unit → Command Commit Tree β}
    {Q : Except (Option IntegrationError) β → World Commit Tree → Prop}
    (tail : ∀ checkout, Always (f ()) { w with checkout } Q)
    (kept : ∀ e checkout, Q (.error e) { w with checkout })
    (rolledBack : ∀ e checkout,
      Q (.error e) { w.moved request.expectedTrunkHead with checkout }) :
    Always (synchronizeCheckoutOrRollback objects w.head request.expectedTrunkHead
      request.expectedTrunkHead >>= f) w Q := by
  refine always_bind ((always_synchronize _ _ _ w).mono fun r w' h => ?_)
  obtain ⟨checkout, rfl⟩ | ⟨⟨e, rfl⟩, checkout, rfl⟩ := h
  · cases r with
    | ok u => exact tail checkout
    | error e => exact kept e checkout
  · exact rolledBack e checkout

theorem always_recover {strategy : Strategy}
    (known : Strategy.ofText request.strategy = some strategy) {candidate : PurePath}
    (other : w.head ≠ request.expectedTrunkHead) :
    Always (recoverAppliedIntegration objects request candidate strategy w.head) w fun r w' =>
      match r with
      | .ok none => w' = w
      | .ok (some receipt) => Outcome objects request w (.ok receipt) w'
      | .error e => Outcome objects request w (.error e) w' := by
  have stopped : ∀ e, Outcome objects request w (.error e) w := fun e => .inl ⟨⟨e, rfl⟩, rfl⟩
  refine inspect_bind stopped fun parents eq => ?_
  cases eq
  refine inspect_bind stopped fun actualTree eq => ?_
  cases eq
  refine always_bind ((always_recoveryMatches strategy w.head w).mono fun r w' h => ?_)
  obtain ⟨rfl, effect⟩ := h
  cases r with
  | error e => exact stopped e
  | ok matched =>
    refine always_ite (fun yes => ?_) fun _ => always_pure rfl
    have applied : Applied objects request w' w' :=
      .inl ⟨other, rfl, strategy, known, effect (congrArg _ yes)⟩
    refine reads_requireTrunkRef.always_bind stopped fun _ => ?_
    refine always_synchronized (fun checkout => ?_) (fun e checkout => ?_) fun e checkout => ?_
    · have kept : ∀ e, Outcome objects request w' (.error e) { w' with checkout } :=
        fun e => .inr ⟨w', applied, .inl ⟨checkout, rfl, nofun⟩⟩
      refine always_bind (always_requireCleanTrunk kept fun clean => always_pure ?_)
      refine .inr ⟨w', applied, .inl ⟨checkout, rfl, ?_⟩⟩
      rintro _ ⟨⟩
      exact ⟨clean, rfl, rfl⟩
    · exact .inr ⟨w', applied, .inl ⟨checkout, rfl, nofun⟩⟩
    · exact .inr ⟨w', applied, .inr ⟨⟨e, rfl⟩, checkout, rfl⟩⟩

omit [DecidableEq Tree] in
theorem reads_requirePostState (strategy : Strategy) (before after : Commit)
    (parents : List Commit) [DecidableEq Tree] (tree expectedTree : Tree) :
    Reads (requirePostState request strategy before after parents tree expectedTree) := by
  cases strategy <;> exact reads_require _ _

theorem always_apply {strategy : Strategy}
    (known : Strategy.ofText request.strategy = some strategy)
    (another : request.MergesAnother) {candidate : PurePath}
    (head : w.head = request.expectedTrunkHead) :
    Always (applyIntegration objects request candidate strategy w.head) w
      (Outcome objects request w) := by
  have stopped : ∀ e, Outcome objects request w (.error e) w := fun e => .inl ⟨⟨e, rfl⟩, rfl⟩
  refine (reads_requireCleanCheckout _ _).always_bind stopped fun _ => ?_
  have another' : strategy = .merge → request.candidateSha ≠ request.expectedTrunkHead := by
    rintro rfl
    exact another known
  refine always_bind ((always_prepareTarget another' w).mono fun r w' h => ?_)
  obtain ⟨rfl, effect⟩ := h
  cases r with
  | error e => exact stopped e
  | ok prepared =>
    obtain ⟨expectedTree, target⟩ := prepared
    refine (reads_inspect _ _).always_bind stopped fun _ => require_bind stopped fun _ => ?_
    refine (reads_inspect _ _).always_bind stopped fun _ => require_bind stopped fun _ => ?_
    refine (reads_requireCleanCheckout _ _).always_bind stopped fun _ => ?_
    refine (reads_requireCleanCheckout _ _).always_bind stopped fun _ => ?_
    refine reads_requireTrunkRef.always_bind stopped fun _ => ?_
    refine always_bind (always_updateRef (stopped none) (require_bind stopped nofun) fun _ => ?_)
    have applied : Applied objects request w' (w'.moved target) :=
      .inr ⟨head, target, ⟨strategy, known, effect _ rfl⟩, rfl⟩
    have kept : ∀ e checkout,
        Outcome objects request w' (.error e) { w'.moved target with checkout } :=
      fun e checkout => .inr ⟨_, applied, .inl ⟨checkout, rfl, nofun⟩⟩
    refine require_bind (fun e => kept e w'.checkout) fun _ => ?_
    refine always_synchronized (w := w'.moved target) (fun checkout => ?_) kept
      fun e checkout => .inr ⟨_, applied, .inr ⟨⟨e, rfl⟩, checkout, rfl⟩⟩
    refine inspect_bind (fun e => kept e checkout) fun after eq => ?_
    cases eq
    refine require_bind (fun e => kept e checkout) fun _ => ?_
    refine (reads_inspect _ _).always_bind (fun e => kept e checkout) fun parents => ?_
    refine (reads_inspect _ _).always_bind (fun e => kept e checkout) fun tree => ?_
    refine (reads_requirePostState _ _ _ _ _ _).always_bind (fun e => kept e checkout) fun _ => ?_
    refine always_bind (always_requireCleanTrunk (fun e => kept e checkout) fun clean => ?_)
    refine always_pure (.inr ⟨_, applied, .inl ⟨checkout, rfl, ?_⟩⟩)
    rintro _ ⟨⟩
    exact ⟨clean, head, rfl⟩

omit [DecidableEq Commit] [DecidableEq Tree] in
theorem reads_requireTopology (layout : Layout) (repository candidate : PurePath) :
    Reads (requireTopology layout repository candidate : Command Commit Tree Unit) := by
  refine (reads_inspect _ _).bind fun _ => (reads_require _ _).bind fun _ => ?_
  refine (reads_inspect _ _).bind fun _ => (reads_require _ _).bind fun _ => ?_
  exact (reads_inspect _ _).bind fun _ => (reads_inspect _ _).bind fun _ => reads_require _ _

omit [DecidableEq Tree] in
theorem reads_requireCapsule (candidate : PurePath) :
    Reads (requireCapsule site request candidate : Command Commit Tree Unit) := by
  unfold requireCapsule
  split
  · exact reads_pure
  · refine reads_next.bind fun _ => ?_
    split
    · exact reads_pure
    · exact reads_fail

omit [DecidableEq Tree] in
theorem reads_requireCandidate :
    Reads (requireCandidate objects request : Command Commit Tree Unit) := by
  refine (reads_inspect _ _).bind fun _ => (reads_require _ _).bind fun _ => ?_
  refine (reads_inspect _ _).bind fun _ => (reads_require _ _).bind fun _ => ?_
  refine (reads_requireCleanCheckout _ _).bind fun _ => ?_
  exact (reads_succeeds _).bind fun _ => reads_require _ _

omit [DecidableEq Tree] in
/-- The preflight only reads, and finds the strategy that the request names. -/
theorem always_preflight (w : World Commit Tree) :
    Always (preflight site request) w fun r w' =>
      w' = w ∧ ∀ candidate strategy, r = .ok (candidate, strategy) →
        Strategy.ofText request.strategy = some strategy := by
  have stopped : ∀ e : Option IntegrationError, w = w ∧ ∀ candidate strategy,
      (.error e : Except _ (PurePath × Strategy)) = .ok (candidate, strategy) →
        Strategy.ofText request.strategy = some strategy := fun _ => ⟨rfl, nofun⟩
  refine require_bind stopped fun _ => ?_
  split
  next => exact always_fail (stopped _)
  next strategy known =>
    refine require_bind stopped fun _ => require_bind stopped fun _ => ?_
    split
    next =>
      refine require_bind stopped fun _ => require_bind stopped fun _ => ?_
      refine (reads_requireTopology _ _ _).always_bind stopped fun _ => ?_
      refine (reads_requireCapsule _).always_bind stopped fun _ => ?_
      refine reads_requireCandidate.always_bind stopped fun _ => always_pure ⟨rfl, ?_⟩
      rintro _ _ ⟨⟩
      exact known
    next => exact always_fail (stopped _)

theorem always_integrateCandidate (another : request.MergesAnother) (w : World Commit Tree) :
    Always (integrateCandidate site request) w (Outcome site.objects request w) := by
  refine always_bind ((always_preflight w).mono fun r w' h => ?_)
  obtain ⟨rfl, known⟩ := h
  have stopped : ∀ e, Outcome site.objects request w' (.error e) w' :=
    fun e => .inl ⟨⟨e, rfl⟩, rfl⟩
  cases r with
  | error e => exact stopped e
  | ok checked =>
    obtain ⟨candidate, strategy⟩ := checked
    refine inspect_bind stopped fun before eq => ?_
    cases eq
    refine always_ite (fun other => ?_) fun head => ?_
    · refine always_bind ((always_recover (known _ _ rfl) other).mono fun r w'' h => ?_)
      match r, h with
      | .error e, h => exact h
      | .ok none, h => exact always_fail (h ▸ stopped _)
      | .ok (some receipt), h => exact always_pure h
    · exact always_apply (known _ _ rfl) another (not_not.mp head)

/-! ### Any number of calls -/

/-- The trunk's moves away from the expected head. -/
def World.advances (w : World Commit Tree) (expected : Commit) : ℕ :=
  w.reflog.countP fun move => move.1 = expected ∧ move.2 ≠ expected

/-- The trunk's moves back to the expected head. -/
def World.rollbacks (w : World Commit Tree) (expected : Commit) : ℕ :=
  w.reflog.countP fun move => move.1 ≠ expected ∧ move.2 = expected

omit [DecidableEq Commit] [DecidableEq Tree] in
theorem World.countP_moved {p : Commit × Commit → Bool} {target : Commit} :
    (w.moved target).reflog.countP p =
      w.reflog.countP p + if p (w.head, target) then 1 else 0 := by
  rw [World.moved, List.countP_append, List.countP_singleton]

/-- The trunk is at its expected head or at one authorized result, and every advance but the one
that is in place has been rolled back. -/
structure Once (objects : Objects Commit Tree) (request : IntegrationRequest Commit)
    (w : World Commit Tree) : Prop where
  head : w.head = request.expectedTrunkHead ∨ request.Authorizes objects w.head
  advances : w.advances request.expectedTrunkHead = w.rollbacks request.expectedTrunkHead +
    if w.head = request.expectedTrunkHead then 0 else 1

omit [DecidableEq Tree] in
theorem Once.moved_on (h : Once objects request w) (head : w.head = request.expectedTrunkHead)
    {target : Commit} (authorized : request.Authorizes objects target) :
    Once objects request (w.moved target) := by
  have count := h.advances
  rw [if_pos head] at count
  refine ⟨.inr authorized, ?_⟩
  rw [World.advances, World.rollbacks, World.countP_moved, World.countP_moved]
  show w.advances _ + _ = w.rollbacks _ + _ + if target = _ then 0 else 1
  by_cases same : target = request.expectedTrunkHead
  · simp [head, same, count]
  · simp [head, same, count]

omit [DecidableEq Tree] in
theorem Once.moved_back (h : Once objects request w) :
    Once objects request (w.moved request.expectedTrunkHead) := by
  have count := h.advances
  refine ⟨.inl rfl, ?_⟩
  rw [World.advances, World.rollbacks, World.countP_moved, World.countP_moved]
  show w.advances _ + _ = w.rollbacks _ + _ + if request.expectedTrunkHead = _ then 0 else 1
  by_cases same : w.head = request.expectedTrunkHead
  · simp [same, count]
  · simp [same, count]

omit [DecidableEq Tree] in
theorem Once.applied (h : Once objects request w) {w₁ : World Commit Tree}
    (applied : Applied objects request w w₁) : Once objects request w₁ := by
  obtain ⟨-, rfl, -⟩ | ⟨head, target, authorized, rfl⟩ := applied
  · exact h
  · exact h.moved_on head authorized

omit [DecidableEq Tree] in
/-- A call keeps the invariant, whatever its outcome. -/
theorem Once.outcome (h : Once objects request w)
    {r : Except (Option IntegrationError) (IntegrationReceipt Commit Tree)}
    {w' : World Commit Tree} (outcome : Outcome objects request w r w') :
    Once objects request w' := by
  obtain ⟨-, rfl⟩ | ⟨w₁, applied, ⟨checkout, rfl, -⟩ | ⟨-, checkout, rfl⟩⟩ := outcome
  · exact h
  · have h₁ := h.applied applied
    exact ⟨h₁.head, h₁.advances⟩
  · have h₁ := (h.applied applied).moved_back
    exact ⟨h₁.head, h₁.advances⟩

/-- Calls with the same arguments, one after another, each run to the end of its script. -/
def calls (site : Site Commit Tree) (request : IntegrationRequest Commit)
    (w : World Commit Tree) (scripts : List (List (Event Tree))) : World Commit Tree :=
  scripts.foldl (fun w script => ((integrateCandidate site request).run w script).2) w

theorem Once.calls (another : request.MergesAnother) (scripts : List (List (Event Tree))) :
    ∀ {w : World Commit Tree}, Once site.objects request w →
      Once site.objects request (calls site request w scripts) := by
  induction scripts with
  | nil => exact id
  | cons script scripts ih =>
    exact fun {w} h => ih (h.outcome ((always_integrateCandidate another w).run script))

/-- The trunk is clean at its expected head, and has not moved yet. -/
structure Ready (objects : Objects Commit Tree) (request : IntegrationRequest Commit)
    (w : World Commit Tree) : Prop where
  head : w.head = request.expectedTrunkHead
  clean : w.Clean objects
  reflog : w.reflog = []

omit [DecidableEq Tree] in
theorem Ready.once (h : Ready objects request w) : Once objects request w :=
  ⟨.inl h.head, by simp [World.advances, World.rollbacks, h.reflog, h.head]⟩

/-- A call that returns leaves the ref and the checkout at the result that it reports. -/
def Reports (objects : Objects Commit Tree) (request : IntegrationRequest Commit)
    (receipt : IntegrationReceipt Commit Tree) (w : World Commit Tree) : Prop :=
  receipt.beforeTrunkHead = request.expectedTrunkHead ∧ receipt.afterTrunkHead = w.head ∧
    request.Authorizes objects w.head ∧ w.Clean objects

/-- The effect of a request happens once, over every course of every series of calls. -/
def ExactlyOnce (site : Site Commit Tree) (request : IntegrationRequest Commit) : Prop :=
  (∀ w, Ready site.objects request w → ∀ scripts,
    let reached := calls site request w scripts
    (reached.head = request.expectedTrunkHead ∨
      request.Authorizes site.objects reached.head) ∧
    reached.advances request.expectedTrunkHead ≤
      reached.rollbacks request.expectedTrunkHead + 1 ∧
    ∀ script receipt, ((integrateCandidate site request).run reached script).1 = .ok receipt →
      Reports site.objects request receipt
        ((integrateCandidate site request).run reached script).2) ∧
  ∀ w, w.head ≠ request.expectedTrunkHead → ¬ request.Authorizes site.objects w.head →
    ∀ script, (∃ e, ((integrateCandidate site request).run w script).1 = .error e) ∧
      ((integrateCandidate site request).run w script).2 = w

omit [DecidableEq Tree] in
theorem Outcome.reports {receipt : IntegrationReceipt Commit Tree} {w' : World Commit Tree}
    (h : Outcome objects request w (.ok receipt) w') : Reports objects request receipt w' := by
  obtain ⟨⟨_, raised⟩, -⟩ | ⟨w₁, applied, ⟨checkout, rfl, reports⟩ | ⟨⟨_, raised⟩, -⟩⟩ := h
  · cases raised
  · obtain ⟨clean, before, after⟩ := reports receipt rfl
    refine ⟨before, after, ?_, clean⟩
    obtain ⟨-, rfl, authorized⟩ | ⟨-, target, authorized, rfl⟩ := applied
    · exact authorized
    · exact authorized
  · cases raised

/-- The integration is exactly once, unless it merges the trunk's own head. -/
theorem integration_exactly_once (site : Site Commit Tree) (request : IntegrationRequest Commit)
    (another : request.MergesAnother) : ExactlyOnce site request := by
  constructor
  · intro w ready scripts
    have once := ready.once.calls another scripts
    refine ⟨once.head, ?_, fun script receipt eq => ?_⟩
    · have count := once.advances
      split_ifs at count <;> omega
    · have outcome : Outcome site.objects request _ _ _ :=
        (always_integrateCandidate another (calls site request w scripts)).run script
      rw [eq] at outcome
      exact outcome.reports
  · intro w other unauthorized script
    obtain outcome | ⟨w₁, ⟨-, -, authorized⟩ | ⟨head, -⟩, -⟩ :=
      (always_integrateCandidate another w).run script
    · exact outcome
    · exact absurd authorized unauthorized
    · exact absurd head other

/-! ### Samples -/

/-- Commits built by `commit-tree` over root commits; a list of parents is a chain of links. -/
inductive SampleCommit
  | root (id : ℕ)
  | made (tree : ℕ) (parents : SampleCommit)
  | link (first rest : SampleCommit)
deriving DecidableEq

namespace SampleCommit

def ofList : List SampleCommit → SampleCommit
  | [] => root 0
  | first :: rest => link first (ofList rest)

def toList : SampleCommit → List SampleCommit
  | link first rest => first :: rest.toList
  | _ => []

theorem toList_ofList (commits : List SampleCommit) : (ofList commits).toList = commits := by
  induction commits with
  | nil => rfl
  | cons first rest ih => rw [ofList, toList, ih]

def parents : SampleCommit → List SampleCommit
  | made _ parents => parents.toList
  | _ => []

def tree : SampleCommit → ℕ
  | root id => id
  | made tree _ => tree
  | link _ _ => 0

end SampleCommit

open SampleCommit in
def sampleSite : Site SampleCommit ℕ where
  objects :=
    { sha := fun _ => lit "abc"
      tree := tree
      parents := SampleCommit.parents
      isAncestor := fun base tip => base = tip
      mergeTree := fun _ left right => if left = right then left.tree else left.tree + right.tree
      commitTree := fun _ tree parents _ => made tree (ofList parents.eraseDups)
      tree_commitTree := fun _ _ _ _ => rfl
      parents_commitTree := fun _ _ _ _ => toList_ofList _ }
  layout :=
    { rawChain := fun _ => true
      resolve := fun path => some (.new path)
      existingChain := fun _ => true
      isDirectory := fun _ => true
      toplevel := some
      commonDirectory := fun _ => some (.new (lit "/r/.git")) }
  repository :=
    { history := { nodes := [], parents := fun _ => [], closed := nofun, ordered := .nil,
                   irrefl := fun _ => nofun }
      changed := fun _ _ => []
      tree := fun _ => [] }

def sampleRequest (strategy : String) (candidate : SampleCommit) :
    IntegrationRequest SampleCommit where
  repositoryRoot := lit "/r"
  candidateWorkspace := lit "/w"
  candidateBranch := lit "work"
  candidateSha := candidate
  expectedTrunkHead := .root 1
  strategy := lit strategy
  capsule := none

def sampleWorld (candidate : SampleCommit) : World SampleCommit ℕ where
  head := .root 1
  headRef := some (lit "refs/heads/main")
  checkout := ⟨1, 1, []⟩
  candidate := ⟨some (lit "work"), candidate, true⟩
  reflog := []

theorem sampleWorld_ready (strategy : String) (candidate : SampleCommit) :
    Ready sampleSite.objects (sampleRequest strategy candidate) (sampleWorld candidate) :=
  ⟨rfl, ⟨rfl, rfl, rfl⟩, rfl⟩

theorem integration_exactly_once_sample :
    ExactlyOnce sampleSite (sampleRequest "merge" (.root 2)) :=
  integration_exactly_once _ _ fun _ => by decide

-- an undisturbed call returns its receipt
example : ((integrateCandidate sampleSite (sampleRequest "merge" (.root 2))).run
    (sampleWorld (.root 2)) (List.replicate 40 ⟨true, 0, ⟨1, 1, []⟩⟩)).1.isOk = true := by
  decide

/-- The merge of the trunk's own head leaves the trunk at a commit with one parent. -/
theorem own_head_merged :
    ¬ ExactlyOnce sampleSite (sampleRequest "merge" (.root 1)) := by
  intro once
  have reached := (once.1 _ (sampleWorld_ready "merge" (.root 1))
    [List.replicate 40 ⟨true, 0, ⟨1, 1, []⟩⟩]).1
  have head : (calls sampleSite (sampleRequest "merge" (.root 1)) (sampleWorld (.root 1))
      [List.replicate 40 ⟨true, 0, ⟨1, 1, []⟩⟩]).head = .made 1 (.link (.root 1) (.root 0)) := by
    decide
  rw [head] at reached
  obtain expected | ⟨strategy, known, effect⟩ := reached
  · exact absurd expected (by decide)
  · have merge : strategy = .merge := Option.some.inj (known.symm.trans (by decide))
    subst merge
    exact absurd effect.1 (by decide)

end CodexFlow.Git
