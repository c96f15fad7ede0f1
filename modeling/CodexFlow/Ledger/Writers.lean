import CodexFlow.Ledger.Fencing
import CodexFlow.Ledger.Work

/-!
# One writer for a dispatch

A worker may write to the workspace from the first bind of its attempt until its exit is recorded.
The ledger forgets a worker with its liveness row, so the attempts that still write are watched
beside it.
-/

namespace CodexFlow.Ledger

open Checked DispatchRows

variable {env : Env} {L L' : Ledger} {dispatchId : DispatchId} {r r' s : DispatchRows} {op : Op}
  {attempt : ℕ} {now : Time}

/-- The ledger with the bound attempts whose exit no call has recorded. -/
structure Watched where
  ledger : Ledger := {}
  writers : List (DispatchId × ℕ) := []

def livenessOf (L : Ledger) (dispatchId : DispatchId) : Option WorkerLiveness :=
  (L.dispatches.get? dispatchId).bind (·.liveness)

/-- The attempt that an accepted call binds for the first time. -/
def firstBind (L : Ledger) : Op → Option (DispatchId × ℕ)
  | .bindLiveness d _ _ attempt _ _ _ _ =>
    if (L.livenessOf d).isNone then some (d, attempt) else none
  | _ => none

/-- The attempt whose exit an accepted call records. A cancelled dispatch has none to record. -/
def recordedExit (L : Ledger) : Op → Option (DispatchId × ℕ)
  | .exit d _ _ _ => (L.livenessOf d).map fun l => (d, l.attempt)
  | .acknowledgeCancellationExit d _ _ _ _ _ =>
    if stateOf L d = some .cancelled then none else (L.livenessOf d).map fun l => (d, l.attempt)
  | _ => none

namespace Watched

def next (env : Env) (W : Watched) (op : Op) : Watched :=
  match W.ledger.perform env op with
  | .error _ => W
  | .ok L' =>
    { ledger := L'
      writers := (W.writers ++ (W.ledger.firstBind op).toList).filter fun writer =>
        W.ledger.recordedExit op ≠ some writer }

/-- An accepted bind leaves no attempt of its dispatch but its own writing. -/
def BindsAlone (env : Env) (W : Watched) (op : Op) : Prop :=
  ∀ d epoch generation attempt process token lease now,
    op = .bindLiveness d epoch generation attempt process token lease now →
    (∃ L', W.ledger.perform env op = .ok L') →
    ∀ other, (d, other) ∈ W.writers → other = attempt

/-- An accepted call releases a new attempt of a dispatch that still has a writer. -/
def Overlooks (env : Env) (W : Watched) (op : Op) : Prop :=
  (∃ L', W.ledger.perform env op = .ok L') ∧
    ∃ d attempt, (d, attempt) ∈ W.writers ∧ W.ledger.releases d op

end Watched

/-! ### The worker of the rows -/

def DispatchRows.Writes (r : DispatchRows) (attempt : ℕ) : Prop :=
  ∃ w, r.work.worker = some w ∧ w.attempt = attempt ∧ w.exited = false

theorem DispatchRows.Writes.liveness (h : r.Writes attempt) :
    ∃ l, r.liveness = some l ∧ l.attempt = attempt ∧ l.exitedAt = none := by
  obtain ⟨w, hw, hattempt, hexited⟩ := h
  obtain ⟨l, hl, rfl⟩ := Option.map_eq_some_iff.1 hw
  exact ⟨l, hl, hattempt, Option.isSome_eq_false_iff.1 hexited |> Option.isNone_iff_eq_none.1⟩

theorem DispatchRows.Writes.congr (h : r.Writes attempt) (hwork : s.work.worker = r.work.worker) :
    s.Writes attempt := by
  unfold Writes
  rw [hwork]
  exact h

/-- A charge releases the dispatch only behind an exited worker. -/
theorem recordCharge_writes {failure : RetryFailureClass} {evidence : RetryEvidence}
    {charge : Charge} (h : r.Writes attempt) :
    (r.recordCharge env dispatchId failure evidence charge now).Writes attempt := by
  obtain ⟨l, hl, -, hexited⟩ := h.liveness
  refine h.congr ?_
  unfold recordCharge
  dsimp only
  split
  · rw [if_neg (by simp [hl, hexited])]
    rfl
  split
  · rfl
  · rfl

/-- A writer keeps writing, unless its dispatch is cancelled, its exit is recorded or the call
releases the next attempt. -/
theorem Works.writes (h : Works env L op dispatchId r s)
    (hr : L.dispatches.get? dispatchId = some r) (hwrites : r.Writes attempt)
    (hreleases : ¬L.releases dispatchId op) :
    s.Writes attempt ∨ s.queue.state = .cancelled ∨
      L.recordedExit op = some (dispatchId, attempt) := by
  obtain ⟨l, hl, hattempt, hexited⟩ := hwrites.liveness
  have hlive : L.livenessOf dispatchId = some l := by
    rw [livenessOf, hr]
    exact hl
  have hkept : ∀ w, s.work = w → w.worker = r.work.worker → s.Writes attempt :=
    fun w hw hworker => hwrites.congr ((congrArg Work.worker hw).trans hworker)
  cases h with
  | records added _ h => exact .inl (hkept _ h rfl)
  | claims _ _ _ _ _ _ _ _ h => exact .inl (hkept _ h rfl)
  | cancels _ _ _ _ _ h => exact .inr (.inl (congrArg Work.state h))
  | acknowledges _ _ _ _ _ _ _ h => exact .inr (.inl (congrArg Work.state h))
  | moves _ _ _ _ _ h => exact .inl (hkept _ h rfl)
  | requeues hop => exact absurd hop hreleases
  | binds _ _ _ _ _ _ _ _ _ _ _ _ h =>
    obtain ⟨w, hw, -⟩ := hwrites
    exact .inl (hkept _ h (by rw [hw]; rfl))
  | runs _ _ _ _ _ _ _ _ h => exact .inl (hkept _ h rfl)
  | exits process exit now hop =>
    rw [hop, recordedExit, hlive, ← hattempt]
    exact .inr (.inr rfl)
  | charges _ _ _ _ _ _ _ h =>
    exact .inl ((recordCharge_writes hwrites).congr (congrArg Work.worker h))
  | attends _ h => exact .inl (hkept _ h rfl)
  | configures _ _ _ _ _ _ h => exact .inl (hkept _ h rfl)
  | inspects _ _ _ h => exact .inl (hkept _ h rfl)
  | reinspects _ h => exact .inl (hkept _ h rfl)
  | continues _ _ _ _ _ _ _ hidle =>
    rw [hl, Option.all_some, hexited] at hidle
    cases hidle
  | grants _ _ _ _ _ _ _ _ _ _ _ h => exact .inl (hkept _ h rfl)
  | results _ _ _ _ _ _ h => exact .inl (hkept _ h rfl)
  | ingests _ _ _ _ _ _ _ h => exact .inl (hkept _ h rfl)
  | finishes _ _ _ _ _ h => exact .inl (hkept _ h rfl)
  | captures _ _ _ _ _ _ h => exact .inl (hkept _ h rfl)

/-- A decision that revives a cancelled dispatch releases its next attempt. -/
theorem releases_of_revives (h : Revives env L dispatchId op) : L.releases dispatchId op := by
  cases op with
  | retryDispatch d strategy state reason now => exact decide_eq_true h.1
  | _ => cases h

/-! ### The invariant -/

/-- A bind names a worker the rows do not contradict, in an active state. -/
theorem perform_bind {epoch generation lease : ℕ} {process : WorkerProcess} {token : String}
    (h : L.perform env
      (.bindLiveness dispatchId epoch generation attempt process token lease now) = .ok L') :
    ∃ r r', L.dispatches.get? dispatchId = some r ∧ L'.dispatches.get? dispatchId = some r' ∧
      r.queue.state ∈ [.claimed, .starting, .running] ∧
      (∀ l ∈ r.liveness, l.attempt = attempt) ∧ (r.liveness = none → r'.Writes attempt) := by
  have hbody := (perform_ok.1 h).2.1
  simp only [body, bindWorkerLiveness, checks_ok] at hbody
  obtain ⟨-, -, -, -, -, -, hbody⟩ := hbody
  obtain ⟨r, r', hr, hrows, rfl⟩ := onDispatch_ok.1 hbody
  simp only [steps_ok] at hrows
  obtain ⟨-, -, hstate, hlive, rfl⟩ := hrows
  refine ⟨r, _, hr, Table.get?_set_self hr _, hstate, fun l hl => ?_, fun hnone => ?_⟩
  · have hsame := (Option.all_eq_true _ _).1 hlive l hl
    simp only [Bool.and_eq_true, decide_eq_true_eq] at hsame
    exact hsame.1.1.1.2
  · refine ⟨⟨attempt, process.pid, process.processBirthIdentity, false⟩, ?_, rfl, rfl⟩
    simp [work, hnone, WorkerLiveness.worker]

theorem firstBind_writes (h : L.perform env op = .ok L')
    (hbind : (dispatchId, attempt) ∈ (L.firstBind op).toList) :
    ∃ r', L'.dispatches.get? dispatchId = some r' ∧
      (r'.Writes attempt ∨ r'.queue.state = .cancelled) := by
  unfold firstBind at hbind
  split at hbind
  · split_ifs at hbind with hnone
    · obtain ⟨rfl, rfl⟩ : dispatchId = _ ∧ attempt = _ := by simpa using hbind
      obtain ⟨r, r', hr, hr', -, -, hwrites⟩ := perform_bind h
      refine ⟨r', hr', .inl (hwrites ?_)⟩
      rw [livenessOf, hr] at hnone
      exact Option.isNone_iff_eq_none.1 hnone
    · cases hbind
  · cases hbind

namespace Watched

/-- A watched writer is the worker of its dispatch's liveness row, or its dispatch is cancelled. -/
structure Tracked (env : Env) (W : Watched) : Prop where
  good : W.ledger.Good env
  writers : ∀ d attempt, (d, attempt) ∈ W.writers →
    ∃ r, W.ledger.dispatches.get? d = some r ∧ (r.Writes attempt ∨ r.queue.state = .cancelled)

theorem tracked_empty (env : Env) : Tracked env {} where
  good := good_empty env
  writers := fun _ _ h => nomatch h

theorem next_error {W : Watched} {e : LedgerError} (h : W.ledger.perform env op = .error e) :
    W.next env op = W := by
  unfold next
  rw [h]

theorem next_ok {W : Watched} (h : W.ledger.perform env op = .ok L') :
    W.next env op =
      { ledger := L'
        writers := (W.writers ++ (W.ledger.firstBind op).toList).filter fun writer =>
          W.ledger.recordedExit op ≠ some writer } := by
  unfold next
  rw [h]

theorem perform_eq_next (h : L.perform env op = .ok L') : L.next env op = L' := by
  unfold Ledger.next
  rw [h]
  rfl

theorem next_tracked {W : Watched} (hW : W.Tracked env) (op : Op) (hop : ¬W.Overlooks env op) :
    (W.next env op).Tracked env := by
  cases hperform : W.ledger.perform env op with
  | error e =>
    rw [next_error hperform]
    exact hW
  | ok L' =>
    rw [next_ok hperform]
    refine ⟨perform_eq_next hperform ▸ next_good hW.good op, fun d attempt hmem => ?_⟩
    obtain ⟨hwatched, hexit⟩ := List.mem_filter.1 hmem
    have hexit : W.ledger.recordedExit op ≠ some (d, attempt) := of_decide_eq_true hexit
    obtain hold | hnew := List.mem_append.1 hwatched
    · have hreleases : ¬W.ledger.releases d op :=
        fun h => hop ⟨⟨L', hperform⟩, d, attempt, hold, h⟩
      obtain ⟨r, hr, hwrites | hcancelled⟩ := hW.writers d attempt hold
      · obtain ⟨r', hr', hworks⟩ := perform_works hperform hr
        refine ⟨r', hr', ?_⟩
        obtain h | h | h := hworks.writes hr hwrites hreleases
        · exact .inl h
        · exact .inr h
        · exact absurd h hexit
      · obtain ⟨r', hr', hstate | ⟨hrevives, -⟩⟩ := next_cancelled hW.good hr hcancelled op
        · exact ⟨r', perform_eq_next hperform ▸ hr', .inr hstate⟩
        · exact absurd (releases_of_revives hrevives) hreleases
    · exact firstBind_writes hperform hnew

/-- The invariant makes every accepted bind that of the one writer. -/
theorem Tracked.bindsAlone {W : Watched} (hW : W.Tracked env) (op : Op) :
    W.BindsAlone env op := by
  rintro d epoch generation attempt process token lease now rfl ⟨L', hperform⟩ other hother
  obtain ⟨r, r', hr, -, hstate, hlive, -⟩ := perform_bind hperform
  obtain ⟨r₀, hr₀, hwrites | hcancelled⟩ := hW.writers d other hother
  · obtain rfl := Option.some.inj (hr.symm.trans hr₀)
    obtain ⟨l, hl, rfl, -⟩ := hwrites.liveness
    exact hlive l hl
  · obtain rfl := Option.some.inj (hr.symm.trans hr₀)
    rw [hcancelled] at hstate
    exact absurd hstate (by decide)

/-- In a run that never releases an attempt over a worker whose exit is not recorded, every bind
is that of the only writer of its dispatch. -/
theorem single_writer (env : Env) (ops : List Op)
    (hops : Machine.Along (next env) (fun W op => ¬W.Overlooks env op) {} ops) :
    Machine.Along (next env) (fun W op => W.BindsAlone env op) {} ops :=
  hops.imp_of_invariant (I := Tracked env) (fun _ op hW hop => next_tracked hW op hop)
    (fun _ op hW _ => hW.bindsAlone op) (tracked_empty env)

/-! ### Runs -/

/-- The four calls that may release an attempt over its worker. -/
def isUnguarded : Op → Bool
  | .recover .. => true
  | .retryDispatch .. => true
  | .action .. => true
  | .controllerActions .. => true
  | _ => false

theorem not_overlooks {W : Watched} (h : isUnguarded op = false) : ¬W.Overlooks env op := by
  rintro ⟨-, d, attempt, -, hreleases⟩
  cases op with
  | recover => cases h
  | retryDispatch => cases h
  | action => cases h
  | controllerActions => cases h
  | _ => cases hreleases

theorem along_of_guarded {W : Watched} {ops : List Op} (h : ops.all (!isUnguarded ·)) :
    Machine.Along (next env) (fun W op => ¬W.Overlooks env op) W ops := by
  induction ops generalizing W with
  | nil => trivial
  | cons op ops ih =>
    rw [List.all_cons, Bool.and_eq_true, Bool.not_eq_true'] at h
    exact ⟨not_overlooks h.1, ih h.2⟩

/-- A second process takes the next attempt. -/
def restarted (now : Time) : List Op :=
  [.claim 1 nonceSha256 (fun _ => true) (fun _ => false) now,
    .issueCapability sampleId
      { generation := 1, attempt := 2, schemaSha256 := reviewContract,
        workspacePath := "/work", backend := .sdkHeadless, tokenSha256 := tokenSha256 } now,
    .bindLiveness sampleId 1 1 2 ⟨42, "birth"⟩ tokenSha256 (seconds 60) now]

/-- The transport breaks before the worker has a thread, and the exit requeues the dispatch. -/
def exitedRun : List Op :=
  enqueued ++ started 1 ++ [.exit sampleId ⟨41, "birth"⟩ { exitCode := some 74 } 5] ++
    restarted (seconds 60)

theorem exitedRun_alone :
    Machine.Along (next .sample) (fun W op => W.BindsAlone .sample op) {} exitedRun ∧
      (Machine.run (next .sample) {} exitedRun).writers = [(sampleId, 2)] :=
  ⟨single_writer .sample exitedRun (along_of_guarded (by decide)), by decide +kernel⟩

/-- A human is asked about a live worker and lets the dispatch start again. -/
def overlookedRun : List Op :=
  enqueued ++ started 1 ++ [.requireAttention sampleId "stuck" none 5,
    .retryDispatch sampleId .humanAttention .humanAttentionRequired "again" 6] ++ restarted 7

theorem overlookedRun_not_alone :
    ¬∀ (env : Env) (ops : List Op),
      Machine.Along (next env) (fun W op => W.BindsAlone env op) {} ops := by
  intro h
  have hsplit : overlookedRun = overlookedRun.take 9 ++ overlookedRun.drop 9 :=
    (List.take_append_drop 9 overlookedRun).symm
  have halong := h .sample overlookedRun
  rw [hsplit, Machine.along_append] at halong
  obtain ⟨hbind, -⟩ := halong.2
  have hrun : ((Machine.run (next .sample) {} (overlookedRun.take 9)).ledger.perform .sample
      (.bindLiveness sampleId 1 1 2 ⟨42, "birth"⟩ tokenSha256 (seconds 60) 7)).toOption.isSome ∧
      (sampleId, 1) ∈ (Machine.run (next .sample) {} (overlookedRun.take 9)).writers := by
    decide +kernel
  cases hperform : (Machine.run (next .sample) {} (overlookedRun.take 9)).ledger.perform .sample
      (.bindLiveness sampleId 1 1 2 ⟨42, "birth"⟩ tokenSha256 (seconds 60) 7) with
  | error e =>
    rw [hperform] at hrun
    cases hrun.1
  | ok L' =>
    have hsame := hbind sampleId 1 1 2 ⟨42, "birth"⟩ tokenSha256 (seconds 60) 7 rfl ⟨L', hperform⟩ 1
      hrun.2
    exact absurd hsame (by decide)

end Watched

end CodexFlow.Ledger
