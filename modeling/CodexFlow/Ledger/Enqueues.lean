import CodexFlow.Capsule.Types
import CodexFlow.Ledger.Identities
import CodexFlow.Ledger.Launches

/-!
# Repeating an enqueue

An enqueue with all the facts that a repeated call is compared with, and the calls after which the
repeated call finds others.
-/

namespace CodexFlow.Ledger

open Checked DispatchRows

variable {env : Env} {L L' : Ledger} {dispatchId : DispatchId} {r r' s : DispatchRows} {op : Op}
  {now : Time}

/-! ### The other facts of a queue row -/

/-- The compared columns that no later call reads; only a rebind and a refresh write one of them,
the route. -/
structure EnqueueFacts where
  capsuleJson : String
  actionJson : Option String
  routeJson : String
  planPath : String
  planRevisionSha256 : String
  projectionSha256 : String
  permissionMode : Capsule.NativePermissionMode
  effectivePermissionJson : Option String
  effectivePermissionSha256 : Option String
deriving DecidableEq

/-- The arguments of `enqueue_dispatch`. -/
structure EnqueueRequest where
  request : DispatchRequest
  capsuleJson : String
  actionJson : Option String := none
  routeJson : String
  planPath : String := "internal"
  planRevisionSha256 : Option String := none
  projectionSha256 : Option String := none
  permissionMode : Capsule.NativePermissionMode := .readOnly
  effectivePermission : Option String := none

namespace EnqueueRequest

variable (q : EnqueueRequest)

def facts (env : Env) : EnqueueFacts where
  capsuleJson := q.capsuleJson
  actionJson := q.actionJson
  routeJson := q.routeJson
  planPath := q.planPath
  planRevisionSha256 :=
    q.planRevisionSha256.getD (q.projectionSha256.getD (env.sha256 q.capsuleJson))
  projectionSha256 := q.projectionSha256.getD (env.sha256 q.capsuleJson)
  permissionMode := q.permissionMode
  effectivePermissionJson := q.effectivePermission
  effectivePermissionSha256 := q.effectivePermission.map env.sha256

def check (env : Env) : Checked Unit := do
  ensure (q.capsuleJson ≠ "" ∧ q.routeJson ≠ "")
    (.valueError "queue capsule and route facts must be non-empty")
  ensure (q.projectionSha256.all (· = env.sha256 q.capsuleJson))
    (.dispatchConflict "queue projection digest does not match the generated capsule")
  ensure (isSha256 (q.facts env).planRevisionSha256)
    (.valueError "queue plan revision digest must be a lowercase SHA-256 digest")
  ensure (isSha256 (q.facts env).projectionSha256)
    (.valueError "queue projection digest must be a lowercase SHA-256 digest")

end EnqueueRequest

structure Queue where
  ledger : Ledger
  facts : Table DispatchId EnqueueFacts

namespace Queue

variable {Q Q' : Queue} {q : EnqueueRequest}

/-- `enqueue_dispatch` -/
def enqueue (env : Env) (Q : Queue) (d : DispatchId) (q : EnqueueRequest) (now : Time) :
    Checked Queue := do
  q.check env
  let ledger ← Q.ledger.perform env (.enqueue d q.request now)
  match Q.facts.get? d with
  | some facts => do
    ensure (facts = q.facts env)
      (.dispatchConflict "queue dispatch already exists with different immutable facts")
    pure { Q with ledger }
  | none => pure { ledger, facts := Q.facts.insert d (q.facts env) }

/-- The call writes another route into the row of the dispatch. -/
def reroutes (L : Ledger) (d : DispatchId) : Op → Bool
  | .action e a _ _ => e = d && a.actionKind = .compatibilityRebind
  | .refreshProfile q _ => (L.dispatches.get? d).any fun r => r.decisions.any (r.refreshes q)
  | _ => false

def Op.isEnqueue : Op → Bool
  | .enqueue .. => true
  | _ => false

inductive Call where
  | enqueue (dispatchId : DispatchId) (request : EnqueueRequest) (now : Time)
  | other (op : Op) (reroute : String → String) (h : Op.isEnqueue op = false)

def next (env : Env) (Q : Queue) : Call → Queue
  | .enqueue d q now => (Q.enqueue env d q now).toOption.getD Q
  | .other op reroute _ =>
    match Q.ledger.perform env op with
    | .error _ => Q
    | .ok L =>
      { ledger := L
        facts := Q.facts.map fun d facts =>
          if reroutes Q.ledger d op then { facts with routeJson := reroute facts.routeJson }
          else facts }

def Reachable (env : Env) (Q : Queue) : Prop :=
  ∃ calls, Q = Machine.run (next env) ⟨{}, .empty⟩ calls

end Queue

/-! ### Calls that rewrite no fact -/

def DispatchRows.RaisesBudget (r : DispatchRows) (failure : RetryFailureClass) : Prop :=
  (r.policy.charge failure).isSome ∧
    (failure = .invalidResponseChain ∧ r.recovery.freshThread.used = 0 ∧
        ¬(r.recovery.freshThreadAfterIdle ∧ 1 ≤ r.recovery.freshThread.budget) ∨
      failure = .providerTransient ∧
        r.recovery.continuation.budget < r.policy.providerTransient.budget)

def RecoveryState.HasConfiguration (s : RecoveryState) (c : RecoveryConfiguration) : Prop :=
  s.providerEnvKey = some c.providerEnvKey ∧ s.profileSha256 = some c.profileSha256 ∧
    s.inspection.budget = c.inspectionBudget ∧ s.continuation.budget = c.continuationBudget ∧
    s.freshThreadAfterIdle = c.freshThreadAfterIdle ∧ s.freshThread.budget = c.freshThreadBudget

/-- The call rewrites no fact that a repeated enqueue of the dispatch is compared with. -/
def KeepsFacts (d : DispatchId) (r : DispatchRows) : Op → Prop
  | .configureRecovery e c _ => e = d → r.recovery.HasConfiguration c
  | .exit e _ exit _ => e = d → ¬r.RaisesBudget (exit.failure.getD .unknown)
  | .retryFailure e failure _ _ => e = d → ¬r.RaisesBudget failure
  | .action e a _ _ => e = d → a.actionKind ≠ .compatibilityRebind ∧
      ¬a.requestedBudget.any (·.providerTransientBudget.isSome)
  | .refreshProfile q _ => ¬r.decisions.any (r.refreshes q)
  | _ => True

def Work.budgets (w : Work) : ℕ × ℕ × ℕ × Bool :=
  (w.inspection.budget, w.continuation.budget, w.freshThread.budget, w.freshThreadAfterIdle)

theorem prepareFor_budgets {failure : RetryFailureClass}
    (hcharge : (r.policy.charge failure).isSome) (hraises : ¬r.RaisesBudget failure) :
    ({ r with recovery := r.recovery.prepareFor failure r.policy.providerTransient.budget now } :
      DispatchRows).work.budgets = r.work.budgets := by
  unfold RecoveryState.prepareFor
  split
  · split_ifs with hused
    · have hfresh : r.recovery.freshThreadAfterIdle ∧ 1 ≤ r.recovery.freshThread.budget :=
        not_not.1 fun hlow => hraises ⟨hcharge, .inl ⟨rfl, hused, hlow⟩⟩
      unfold Work.budgets work Budget.raise
      dsimp only
      rw [max_eq_left hfresh.2, hfresh.1]
    · rfl
  · have hbudget : r.policy.providerTransient.budget ≤ r.recovery.continuation.budget :=
      Nat.not_lt.1 fun hlt => hraises ⟨hcharge, .inr ⟨rfl, hlt⟩⟩
    unfold Work.budgets work Budget.raise
    dsimp only
    rw [max_eq_left hbudget]
  · rfl

theorem recordCharge_budgets {failure : RetryFailureClass} {evidence : RetryEvidence}
    {charge : Charge} (hcharge : r.policy.charge failure = some charge)
    (hraises : ¬r.RaisesBudget failure) :
    (r.recordCharge env dispatchId failure evidence charge now).work.budgets = r.work.budgets := by
  have hprepared := @prepareFor_budgets r now failure (by rw [hcharge]; rfl) hraises
  unfold recordCharge
  dsimp only
  split
  · split <;> exact hprepared
  split <;> exact hprepared

theorem applyExitRetryPolicy_budgets {failure : RetryFailureClass} {context : ExitContext}
    (hraises : ¬r.RaisesBudget failure) :
    (r.applyExitRetryPolicy env dispatchId failure context now).work.budgets = r.work.budgets := by
  unfold applyExitRetryPolicy
  split
  · rename_i charge hcharge
    have hprepared := @prepareFor_budgets r now failure (by rw [hcharge]; rfl) hraises
    unfold spendAtExit
    dsimp only
    split
    · exact hprepared
    split <;> exact hprepared
  · split_ifs <;> rfl

theorem recordExit_budgets {exit : WorkerExit} :
    ((r.markExited now).recordExit exit now).work.budgets = r.work.budgets := by
  unfold recordExit Work.budgets work
  dsimp only
  split_ifs <;> rfl

theorem recordExit_raisesBudget {exit : WorkerExit} {failure : RetryFailureClass} :
    ((r.markExited now).recordExit exit now).RaisesBudget failure ↔ r.RaisesBudget failure := by
  have hbudget : ((r.markExited now).recordExit exit now).policy.providerTransient.budget =
      r.policy.providerTransient.budget := by
    unfold recordExit
    dsimp only
    split <;> rfl
  unfold RaisesBudget
  rw [recordExit_charge, hbudget]
  rfl

theorem workerExit_budgets {exit : WorkerExit}
    (hraises : ¬r.RaisesBudget (exit.failure.getD .unknown)) :
    (r.workerExit env dispatchId exit now).work.budgets = r.work.budgets := by
  unfold workerExit
  split
  · rfl
  · rw [applyExitRetryPolicy_budgets (recordExit_raisesBudget.not.2 hraises), recordExit_budgets]

theorem Works.budgets_eq (h : Works env L op dispatchId r s) (hop : KeepsFacts dispatchId r op) :
    s.work.budgets = r.work.budgets := by
  cases h with
  | records _ _ h => exact h ▸ rfl
  | claims _ _ _ _ _ _ _ _ h => exact h ▸ rfl
  | cancels _ _ _ _ _ h => exact h ▸ rfl
  | acknowledges _ _ _ _ _ _ _ h => exact h ▸ rfl
  | moves _ _ _ _ _ h => exact h ▸ rfl
  | requeues _ _ _ h => exact h ▸ rfl
  | binds _ _ _ _ _ _ _ _ _ _ _ _ h => exact h ▸ rfl
  | runs _ _ _ _ _ _ _ _ h => exact h ▸ rfl
  | exits process exit now heq _ h =>
    subst heq
    exact h ▸ workerExit_budgets (hop rfl)
  | charges failure evidence now heq _ charge hcharge h =>
    subst heq
    exact h ▸ recordCharge_budgets hcharge (hop rfl)
  | attends _ h => exact h ▸ rfl
  | configures config now heq hi hc hf h =>
    subst heq
    obtain ⟨-, -, hinspection, hcontinuation, hidle, hfresh⟩ := hop rfl
    rw [h]
    exact (congrArg₂ Prod.mk hinspection (congrArg₂ Prod.mk hcontinuation
      (congrArg₂ Prod.mk hfresh hidle))).symm
  | inspects _ _ _ h => exact h ▸ rfl
  | reinspects _ h => exact h ▸ rfl
  | continues epoch nonce program current now _ _ _ h =>
    rw [h]
    unfold continueOrClose
    split_ifs <;> rfl
  | grants action activeTurn now heq hchange =>
    subst heq
    exact absurd hchange (hop rfl).2
  | results _ _ _ _ _ _ h => exact h ▸ rfl
  | ingests _ _ _ _ _ _ _ h => exact h ▸ rfl
  | finishes _ _ _ _ _ h => exact h ▸ rfl
  | captures _ _ _ _ _ _ h => exact h ▸ rfl

theorem body_identity (h : L.body env op = .ok L') (hr : L.dispatches.get? dispatchId = some r)
    (hop : KeepsFacts dispatchId r op) :
    ∃ r', L'.dispatches.get? dispatchId = some r' ∧ r'.identity = r.identity := by
  cases hrewrites : op.rewritesIdentity with
  | false => exact body_identifies hrewrites h dispatchId r hr
  | true =>
    cases op with
    | configureRecovery e c now =>
      obtain ⟨-, -, -, r₀, hr₀, -, hi, hc, hf, rfl⟩ := configureRecovery_ok.1 h
      by_cases he : dispatchId = e
      · subst he
        obtain rfl := Option.some.inj (hr.symm.trans hr₀)
        obtain ⟨hkey, hprofile, -⟩ := hop rfl
        exact ⟨_, Table.get?_set_self hr _,
          identity_eq rfl rfl (congrArg₂ RecoveryFacts.mk hkey.symm hprofile.symm)⟩
      · exact ⟨r, (Table.get?_set_ne _ he _).trans hr, rfl⟩
    | action e a activeTurn now =>
      have he : dispatchId ≠ e := by
        rintro rfl
        exact (hop rfl).1 (of_decide_eq_true hrewrites)
      simp only [body, applyRecoveryAction, checks_ok] at h
      obtain ⟨-, -, -, -, -, -, h⟩ := h
      split at h
      · simp only [steps_ok] at h
        exact ⟨r, h.2.2 ▸ hr, rfl⟩
      · obtain ⟨r₀, r₁, -, -, rfl⟩ := onDispatch_ok.1 h
        exact ⟨r, (Table.get?_set_ne _ he _).trans hr, rfl⟩
    | refreshProfile q now =>
      simp only [body, authorizeProfileRefresh, bind_eq_ok, pure_eq_ok] at h
      obtain ⟨-, -, -, -, rfl⟩ := h
      refine ⟨r.refreshProfile q now, by simp [Table.get?_map, hr], ?_⟩
      unfold refreshProfile
      rw [if_neg hop]
    | _ => cases hrewrites

theorem matchesRows_congr (q : DispatchRequest) (hidentity : r'.identity = r.identity)
    (hbudgets : r'.work.budgets = r.work.budgets) : q.matchesRows r' = q.matchesRows r := by
  simp only [DispatchRows.identity, DispatchQueue.facts, QueueBinding.facts, RecoveryState.facts,
    Identity.mk.injEq, QueueFacts.mk.injEq, BindingFacts.mk.injEq, RecoveryFacts.mk.injEq]
    at hidentity
  simp only [Work.budgets, work, Prod.mk.injEq] at hbudgets
  simp only [DispatchRequest.matchesRows, hidentity, hbudgets]

theorem matchesRows_rows (q : DispatchRequest) (sequence : ℕ) :
    q.matchesRows (q.rows sequence now) = true := by
  simp [DispatchRequest.matchesRows, DispatchRequest.rows, DispatchRequest.queue,
    DispatchRequest.binding, DispatchRequest.recovery, Budget.unused]

/-! ### Repeating the call -/

/-- The arguments of an enqueue pass its checks. -/
def DispatchRequest.Passes (env : Env) (q : DispatchRequest) : Prop :=
  isSha256 q.resultContractSha256 ∧ q.resultContractSha256 ≠ env.legacyResultContract ∧
    0 < q.checkpointDuration ∧
    (q.sourceThreadId.all fun text =>
      text ≠ "" && text.length ≤ 512 && !text.toList.contains '\x00') ∧
    q.providerEnvKey.all isEnvironmentKey ∧
    (q.profileSha256.all isSha256 ∧ q.nativeProfileSha256.all isSha256 ∧
      q.nativeCompatibilitySha256.all isSha256) ∧
    q.inspectionBudget ≤ 16 ∧ q.continuationBudget ≤ 8 ∧ q.freshThreadBudget ≤ 4 ∧
      (q.freshThreadAfterIdle ∨ q.freshThreadBudget = 0)

theorem enqueueDispatch_existing {q : DispatchRequest}
    (hr : L.dispatches.get? dispatchId = some r) :
    L.enqueueDispatch env dispatchId q now = .ok L' ↔
      q.Passes env ∧ q.matchesRows r ∧ L = L' := by
  simp only [enqueueDispatch, hr, steps_ok, DispatchRequest.Passes, and_assoc]

theorem enqueueDispatch_new {q : DispatchRequest} (hr : L.dispatches.get? dispatchId = none)
    (h : L.enqueueDispatch env dispatchId q now = .ok L') :
    q.Passes env ∧ ∃ sequence created,
      L'.dispatches.get? dispatchId = some (q.rows sequence created) := by
  simp only [enqueueDispatch, hr, steps_ok] at h
  obtain ⟨hcontract, hretired, hduration, hsource, hkey, hprofiles, hbudgets, -, rfl⟩ := h
  exact ⟨⟨hcontract, hretired, hduration, hsource, hkey, hprofiles, hbudgets⟩, _, _,
    Table.get?_insert_self hr _⟩

namespace Queue

variable {Q Q' : Queue} {q : EnqueueRequest}

structure Matches (env : Env) (dispatchId : DispatchId) (q : EnqueueRequest) (Q : Queue) :
    Prop where
  valid : Q.ledger.Valid env
  rows : ∃ r, Q.ledger.dispatches.get? dispatchId = some r ∧ q.request.matchesRows r
  facts : Q.facts.get? dispatchId = some (q.facts env)

/-- Then the call commits and changes nothing. -/
theorem Matches.enqueue_eq (h : Q.Matches env dispatchId q) (hpasses : q.request.Passes env)
    (hcheck : q.check env = .ok ()) : Q.enqueue env dispatchId q now = .ok Q := by
  obtain ⟨r, hr, hrows⟩ := h.rows
  have hperform : Q.ledger.perform env (.enqueue dispatchId q.request now) = .ok Q.ledger :=
    perform_ok.2 ⟨h.valid, (enqueueDispatch_existing hr).2 ⟨hpasses, hrows, rfl⟩, h.valid⟩
  unfold enqueue
  rw [hcheck, ok_bind, hperform, ok_bind, h.facts]
  exact bind_eq_ok.2 ⟨(), ensure_of rfl _, rfl⟩

/-- The call rewrites no fact of the dispatch: it is refused, or none of its kind. -/
def KeepsFacts (env : Env) (dispatchId : DispatchId) (Q : Queue) : Call → Prop
  | .enqueue .. => True
  | .other op _ _ => ∀ L' r, Q.ledger.perform env op = .ok L' →
      Q.ledger.dispatches.get? dispatchId = some r → Ledger.KeepsFacts dispatchId r op

theorem enqueue_eq_ok {d : DispatchId} (h : Q.enqueue env d q now = .ok Q') :
    q.check env = .ok () ∧ Q.ledger.perform env (.enqueue d q.request now) = .ok Q'.ledger ∧
      (Q.facts.get? d = some (q.facts env) ∧ Q'.facts = Q.facts ∨
        Q.facts.get? d = none ∧ Q'.facts = Q.facts.insert d (q.facts env)) := by
  obtain ⟨⟨⟩, hcheck, h⟩ := bind_eq_ok.1 h
  obtain ⟨ledger, hperform, h⟩ := bind_eq_ok.1 h
  split at h
  · rename_i facts hfacts
    simp only [steps_ok] at h
    obtain ⟨rfl, rfl⟩ := h
    exact ⟨hcheck, hperform, .inl ⟨hfacts, rfl⟩⟩
  · rename_i hfacts
    cases h
    exact ⟨hcheck, hperform, .inr ⟨hfacts, rfl⟩⟩

/-- Another enqueue leaves the rows of a dispatch that exists. -/
theorem enqueue_matches {d : DispatchId} {q' : EnqueueRequest} (h : Q.Matches env dispatchId q)
    (henqueue : Q.enqueue env d q' now = .ok Q') : Q'.Matches env dispatchId q := by
  obtain ⟨r, hr, hrows⟩ := h.rows
  obtain ⟨-, hperform, hfacts⟩ := enqueue_eq_ok henqueue
  obtain ⟨-, hbody, hvalid⟩ := perform_ok.1 hperform
  obtain ⟨r', hr', hworks⟩ := (body_works hbody).rows dispatchId r hr
  obtain ⟨r'', hr'', hidentity⟩ := enqueueDispatch_identifies hbody dispatchId r hr
  obtain rfl := Option.some.inj (hr'.symm.trans hr'')
  refine ⟨hvalid, ⟨r', hr', ?_⟩, ?_⟩
  · rw [matchesRows_congr q.request hidentity (hworks.budgets_eq trivial)]
    exact hrows
  · obtain ⟨-, hsame⟩ | ⟨hnone, hinsert⟩ := hfacts
    · exact hsame ▸ h.facts
    · have hd : dispatchId ≠ d := by
        rintro rfl
        exact Option.some_ne_none _ (h.facts.symm.trans hnone)
      rw [hinsert, Table.get?_insert_ne _ hd]
      exact h.facts

theorem reroutes_eq_false (hr : L.dispatches.get? dispatchId = some r)
    (hop : Ledger.KeepsFacts dispatchId r op) : reroutes L dispatchId op = false := by
  cases op with
  | action e a activeTurn now =>
    refine Bool.eq_false_iff.2 fun h => ?_
    obtain ⟨he, hkind⟩ := Bool.and_eq_true_iff.1 h
    exact (hop (of_decide_eq_true he)).1 (of_decide_eq_true hkind)
  | refreshProfile q now =>
    unfold reroutes
    rw [hr]
    exact Bool.eq_false_iff.2 hop
  | _ => rfl

theorem next_matches (h : Q.Matches env dispatchId q) (call : Call)
    (hcall : Q.KeepsFacts env dispatchId call) : (Q.next env call).Matches env dispatchId q := by
  obtain ⟨r, hr, hrows⟩ := h.rows
  cases call with
  | enqueue d q' now =>
    show ((Q.enqueue env d q' now).toOption.getD Q).Matches env dispatchId q
    cases henqueue : Q.enqueue env d q' now with
    | error e => exact h
    | ok Q' => exact enqueue_matches h henqueue
  | other op reroute hop =>
    unfold next
    dsimp only
    split
    · exact h
    · rename_i L' hperform
      obtain ⟨-, hbody, hvalid⟩ := perform_ok.1 hperform
      have hkeeps := hcall L' r hperform hr
      obtain ⟨r', hr', hworks⟩ := (body_works hbody).rows dispatchId r hr
      obtain ⟨r'', hr'', hidentity⟩ := body_identity hbody hr hkeeps
      obtain rfl := Option.some.inj (hr'.symm.trans hr'')
      refine ⟨hvalid, ⟨r', hr', ?_⟩, ?_⟩
      · rw [matchesRows_congr q.request hidentity (hworks.budgets_eq hkeeps)]
        exact hrows
      · rw [Table.get?_map, h.facts, reroutes_eq_false hr hkeeps]
        rfl

/-- A dispatch has these columns exactly where it has rows. -/
structure Good (env : Env) (Q : Queue) : Prop where
  valid : Q.ledger.Valid env
  facts : ∀ d, Q.ledger.dispatches.get? d = none → Q.facts.get? d = none

theorem get?_of_body (h : L.body env op = .ok L') (hnone : L'.dispatches.get? dispatchId = none) :
    L.dispatches.get? dispatchId = none := by
  cases hr : L.dispatches.get? dispatchId with
  | none => rfl
  | some r =>
    obtain ⟨r', hr', -⟩ := (body_works h).rows dispatchId r hr
    exact absurd (hnone.symm.trans hr') nofun

theorem enqueue_good (h : Q.Good env) (henqueue : Q.enqueue env dispatchId q now = .ok Q') :
    Q'.Good env := by
  obtain ⟨-, hperform, hfacts⟩ := enqueue_eq_ok henqueue
  obtain ⟨-, hbody, hvalid⟩ := perform_ok.1 hperform
  refine ⟨hvalid, fun d hnone => ?_⟩
  have hnone' := get?_of_body hbody hnone
  have hd : d ≠ dispatchId := by
    rintro rfl
    obtain ⟨-, sequence, created, hrows⟩ := enqueueDispatch_new hnone' hbody
    exact Option.some_ne_none _ (hrows.symm.trans hnone)
  obtain ⟨-, hsame⟩ | ⟨-, hinsert⟩ := hfacts
  · exact hsame ▸ h.facts d hnone'
  · rw [hinsert, Table.get?_insert_ne _ hd]
    exact h.facts d hnone'

theorem next_good (h : Q.Good env) (call : Call) : (Q.next env call).Good env := by
  cases call with
  | enqueue d q now =>
    show ((Q.enqueue env d q now).toOption.getD Q).Good env
    cases henqueue : Q.enqueue env d q now with
    | error e => exact h
    | ok Q' => exact enqueue_good h henqueue
  | other op reroute hop =>
    unfold next
    dsimp only
    split
    · exact h
    · rename_i L' hperform
      obtain ⟨-, hbody, hvalid⟩ := perform_ok.1 hperform
      refine ⟨hvalid, fun d hnone => ?_⟩
      rw [Table.get?_map, h.facts d (get?_of_body hbody hnone)]
      rfl

theorem Reachable.good (h : Q.Reachable env) : Q.Good env := by
  obtain ⟨calls, rfl⟩ := h
  refine Machine.invariant (I := Good env) (fun _ call h => next_good h call) ?_ calls
  exact ⟨(good_empty env).to_valid, fun _ _ => rfl⟩

/-- From the enqueue on, in every run whose calls rewrite no fact of the dispatch, the same enqueue
commits and changes nothing. -/
theorem enqueue_replays (env : Env) (hQ : Q.Reachable env)
    (hnew : Q.ledger.dispatches.get? dispatchId = none)
    (henqueue : Q.enqueue env dispatchId q now = .ok Q') (calls : List Call)
    (hcalls : Machine.Along (next env) (KeepsFacts env dispatchId) Q' calls) (later : Time) :
    (Machine.run (next env) Q' calls).enqueue env dispatchId q later =
      .ok (Machine.run (next env) Q' calls) := by
  obtain ⟨hcheck, hperform, hfacts⟩ := enqueue_eq_ok henqueue
  obtain ⟨-, hbody, hvalid⟩ := perform_ok.1 hperform
  obtain ⟨hpasses, sequence, created, hrows⟩ := enqueueDispatch_new hnew hbody
  have hnone := hQ.good.facts dispatchId hnew
  have hmatches : Q'.Matches env dispatchId q := by
    refine ⟨hvalid, ⟨_, hrows, matchesRows_rows q.request sequence⟩, ?_⟩
    obtain ⟨hsome, -⟩ | ⟨-, hinsert⟩ := hfacts
    · exact absurd (hnone.symm.trans hsome) nofun
    · rw [hinsert]
      exact Table.get?_insert_self hnone _
  have hrun := Machine.invariant_along (I := Matches env dispatchId q)
    (fun _ call h hcall => next_matches h call hcall) hmatches hcalls
  exact hrun.enqueue_eq hpasses hcheck

/-- A reviewer's dispatch as the controller enqueues it: with no provider yet. -/
def sampleEnqueue : EnqueueRequest where
  request := sampleRequest
  capsuleJson := "capsule"
  routeJson := "route"

/-- Every text has one digest. -/
def sampleEnv : Env := { Env.sample with sha256 := fun _ => reviewSha256 }

/-- A harness and no dispatch. -/
def sampleQueue : Queue :=
  Machine.run (next sampleEnv) ⟨{}, .empty⟩
    [.other (.acquireHarness nonceSha256 (seconds 600) 0) id rfl]

/-- A worker claims the dispatch and the refresh fence is armed. -/
def fencedCalls : List Call :=
  [.other (.claim 1 nonceSha256 (fun _ => true) (fun _ => false) 2) id rfl,
    .other (.requestHarnessShutdown 1 nonceSha256) id rfl]

theorem enqueue_replays_fenced : ∃ Q',
    sampleQueue.enqueue sampleEnv sampleId sampleEnqueue 1 = .ok Q' ∧
    (Machine.run (next sampleEnv) Q' fencedCalls).enqueue sampleEnv sampleId sampleEnqueue 3 =
      .ok (Machine.run (next sampleEnv) Q' fencedCalls) := by
  obtain ⟨Q', henqueue⟩ :
      ∃ Q', sampleQueue.enqueue sampleEnv sampleId sampleEnqueue 1 = .ok Q' := ⟨_, rfl⟩
  exact ⟨Q', henqueue, enqueue_replays sampleEnv ⟨_, rfl⟩ rfl henqueue fencedCalls
    ⟨fun _ _ _ _ => trivial, fun _ _ _ _ => trivial, trivial⟩ 3⟩

def launchCall : Call :=
  .other (.configureRecovery sampleId (launchConfiguration "API_KEY" reviewSha256) 2) id rfl

/-- After the launch, the call that had created the row is refused. -/
theorem launched_not_replayed :
    ∃ Q', sampleQueue.enqueue sampleEnv sampleId sampleEnqueue 1 = .ok Q' ∧
      Q'.enqueue sampleEnv sampleId sampleEnqueue 3 = .ok Q' ∧
      ((Q'.next sampleEnv launchCall).enqueue sampleEnv sampleId sampleEnqueue
        3).toOption.isNone :=
  ⟨_, rfl, rfl, rfl⟩

end Queue

end CodexFlow.Ledger
