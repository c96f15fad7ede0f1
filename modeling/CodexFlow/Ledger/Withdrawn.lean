import CodexFlow.Ledger.Authority
import CodexFlow.Ledger.Cancellation
import CodexFlow.Ledger.Writers

/-!
# Recorded cancellations

A cancellation of a live worker is only recorded; the acknowledgement of the worker's exit carries
it out. Submissions and further actions look for the record, the calls of `Overtakes` do not.
-/

namespace CodexFlow.Ledger

open Checked DispatchRows

variable {env : Env} {L L' : Ledger} {dispatchId : DispatchId} {r r' s : DispatchRows} {op : Op}
  {keys : List DispatchId} {actionId : String} {exitCode : Option ℤ}
  {now : Time}

/-! ### What a call may do meanwhile -/

def Worker.process (w : Worker) : WorkerProcess := ⟨w.pid, w.processBirthIdentity⟩

def WorkerLiveness.process (l : WorkerLiveness) : WorkerProcess := ⟨l.pid, l.processBirthIdentity⟩

/-- A state that no call may bring a dispatch to once its cancellation is recorded. -/
def QueueState.isPassed (s : QueueState) : Bool :=
  s ∈ [.queued, .claimed, .resultSubmitted, .completed, .failed]

/-- The attempt is kept, and with it the process unless the dispatch is cancelled. -/
structure Work.Stands (w w' : Work) : Prop where
  attempt : w'.attempt = w.attempt
  state : w'.state = w.state ∨ ¬w'.state.isPassed
  worker : w'.state = .cancelled ∨
    w'.state.isNonterminal ∧ w'.worker.map (·.process) = w.worker.map (·.process)

def DispatchRows.mayContinue (r : DispatchRows) : Prop :=
  r.recovery.continuation.used < r.recovery.continuation.budget ∧
    (r.recovery.freshThreadAfterIdle → r.recovery.freshThread.used < r.recovery.freshThread.budget)

/-- The calls that move the dispatch on without looking for a recorded cancellation. -/
def Overtakes (L : Ledger) (dispatchId : DispatchId) (r : DispatchRows) : Op → Prop
  | .claim _ _ _ executionCancelled now =>
    (L.nextClaimable now).any (·.1 = dispatchId) ∧ executionCancelled dispatchId = false
  | .setState d state _ _ => d = dispatchId ∧ state ≠ r.queue.state ∧ state.isPassed
  | .exit d _ exit _ => d = dispatchId ∧ exit.failure = some .preIdentityTransport ∧
      (r.policy.charge .preIdentityTransport).isSome
  | .retryFailure d failure _ _ => d = dispatchId ∧ failure = .preIdentityTransport ∧
      r.queue.state ≠ .queued ∧ r.liveness.all (·.exitedAt.isSome)
  | .beginContinuation d _ _ _ _ _ => d = dispatchId ∧ r.mayContinue
  | .ingest d _ _ => d = dispatchId ∧ r.queue.state = .recoveryInspectionPending
  | op => L.releases dispatchId op

instance (r : DispatchRows) : Decidable r.mayContinue := by
  unfold mayContinue
  infer_instance

instance (L : Ledger) (dispatchId : DispatchId) (r : DispatchRows) (op : Op) :
    Decidable (L.Overtakes dispatchId r op) := by
  apply Op.casesOn (motive := fun op => Decidable (L.Overtakes dispatchId r op)) op <;> intros <;>
    unfold Overtakes <;> infer_instance

namespace Work.Stands

variable {w w' w'' : Work}

theorem of_moveTo {state : QueueState} (hactive : state.isNonterminal)
    (hstate : state = w.state ∨ ¬state.isPassed) : w.Stands (w.moveTo state) :=
  ⟨rfl, hstate, .inr ⟨hactive, rfl⟩⟩

theorem refl (hactive : w.state.isNonterminal) : w.Stands w := ⟨rfl, .inl rfl, .inr ⟨hactive, rfl⟩⟩

theorem trans (h : w.Stands w') (hactive : w'.state.isNonterminal) (h' : w'.Stands w'') :
    w.Stands w'' where
  attempt := h'.attempt.trans h.attempt
  state := h'.state.elim (fun hsame => h.state.imp hsame.trans (hsame ▸ ·)) .inr
  worker := by
    obtain hcancelled | ⟨-, hworker⟩ := h.worker
    · exact absurd hcancelled (Life.ne_cancelled_of_isNonterminal hactive)
    · exact h'.worker.imp_right fun h => ⟨h.1, h.2.trans hworker⟩

theorem congr (h : w.Stands w') (hattempt : w''.attempt = w'.attempt)
    (hstate : w''.state = w'.state)
    (hworker : w''.worker.map (·.process) = w'.worker.map (·.process)) : w.Stands w'' := by
  obtain ⟨h₁, h₂, h₃⟩ := h
  rw [← hattempt] at h₁
  rw [← hstate] at h₂ h₃
  rw [← hworker] at h₃
  exact ⟨h₁, h₂, h₃⟩

end Work.Stands

theorem attended_stands : r.work.Stands (r.work.moveTo .humanAttentionRequired) :=
  have hstate : ¬QueueState.humanAttentionRequired.isPassed := by decide
  .of_moveTo rfl (.inr hstate)

theorem recordCharge_stands {failure : RetryFailureClass} {evidence : RetryEvidence}
    {charge : Charge} (hactive : r.queue.state.isNonterminal)
    (hrelease : ¬(failure = .preIdentityTransport ∧ r.queue.state ≠ .queued ∧
      r.liveness.all (·.exitedAt.isSome))) :
    r.work.Stands (r.recordCharge env dispatchId failure evidence charge now).work := by
  have hstands : r.work.Stands r.work := .refl hactive
  unfold recordCharge
  dsimp only
  split
  · rename_i hfailure
    rw [if_neg fun h => hrelease ⟨hfailure, by simpa using h⟩]
    exact hstands.congr rfl rfl rfl
  split <;> exact hstands.congr rfl rfl rfl

theorem markExited_process :
    (r.markExited now).work.worker.map (·.process) = r.work.worker.map (·.process) := by
  show ((r.liveness.map _).map _).map _ = (r.liveness.map _).map _
  cases r.liveness with
  | none => rfl
  | some l =>
    simp only [Option.map_some]
    split_ifs <;> rfl

theorem recordExit_stands {exit : WorkerExit} (hactive : r.queue.state.isNonterminal) :
    ((r.markExited now).recordExit exit now).queue.state.isNonterminal ∧
      r.work.Stands ((r.markExited now).recordExit exit now).work := by
  have hworker : ((r.markExited now).recordExit exit now).work.worker.map (·.process) =
      r.work.worker.map (·.process) := markExited_process
  have hstate : ((r.markExited now).recordExit exit now).queue.state = r.queue.state ∨
      ((r.markExited now).recordExit exit now).queue.state ∈
        [.recoveryInspectionPending, .humanAttentionRequired] := by
    unfold recordExit
    dsimp only
    split_ifs
    · exact .inr (List.mem_cons_of_mem _ List.mem_cons_self)
    · exact .inr List.mem_cons_self
    · exact .inl rfl
  have hattempt : ((r.markExited now).recordExit exit now).work.attempt = r.work.attempt := by
    unfold recordExit
    dsimp only [work]
    split_ifs <;> rfl
  obtain hsame | hmoved := hstate
  · exact ⟨hsame ▸ hactive, Work.Stands.congr (.refl hactive) hattempt hsame hworker⟩
  · generalize hstate : ((r.markExited now).recordExit exit now).queue.state = state at hmoved
    have hfacts : state.isNonterminal ∧ ¬state.isPassed := by
      revert hmoved
      cases state <;> decide
    exact ⟨hfacts.1, Work.Stands.congr (.of_moveTo hfacts.1 (.inr hfacts.2)) hattempt hstate hworker⟩

/-- An exit leaves its dispatch to recovery, unless it is requeued for its transport. -/
theorem workerExit_stands {exit : WorkerExit} (hactive : r.queue.state.isNonterminal)
    (hrelease : ¬(exit.failure = some .preIdentityTransport ∧
      (r.policy.charge .preIdentityTransport).isSome)) :
    r.work.Stands (r.workerExit env dispatchId exit now).work := by
  obtain ⟨hactive₁, hstands⟩ := @recordExit_stands r now exit hactive
  have hopen : r.queue.state ∉ [.resultSubmitted, .completed, .failed, .cancelled] := by
    generalize r.queue.state = state at hactive
    revert hactive
    cases state <;> decide
  unfold workerExit
  rw [if_neg hopen]
  unfold applyExitRetryPolicy
  split
  · rename_i charge hcharge
    unfold spendAtExit
    dsimp only
    split
    · rename_i hfailure
      have htransport : exit.failure = some .preIdentityTransport := by
        cases hexit : exit.failure with
        | none =>
          rw [hexit] at hfailure
          cases hfailure
        | some failure =>
          rw [hexit] at hfailure
          exact congrArg some hfailure
      refine absurd ⟨htransport, ?_⟩ hrelease
      rw [← @recordExit_charge r now exit, ← hfailure, hcharge]
      rfl
    split <;> exact hstands.congr rfl rfl rfl
  · split_ifs
    · exact hstands.congr rfl rfl rfl
    · unfold closeAtExit
      split_ifs
      · exact hstands.congr rfl rfl rfl
      · exact hstands.trans hactive₁ (attended_stands.congr rfl rfl rfl)

theorem recordInspection_stands {inspection : Inspection} (hactive : r.queue.state.isNonterminal)
    (hdecided : inspection.decided ∈ [.retryWait, .continuationPending, .humanAttentionRequired]) :
    r.work.Stands (r.recordInspection env inspection now).work := by
  unfold recordInspection
  dsimp only
  split
  · have hnext : (if r.recovery.inspection.budget ≤ r.recovery.inspection.used then
        .humanAttentionRequired else inspection.decided) ∈
        [RecoveryKind.retryWait, .continuationPending, .humanAttentionRequired] := by
      split_ifs
      · decide
      · exact hdecided
    generalize (if r.recovery.inspection.budget ≤ r.recovery.inspection.used then
        RecoveryKind.humanAttentionRequired else inspection.decided) = next at hnext
    have hfacts : (next.queueState.getD r.queue.state).isNonterminal ∧
        ¬(next.queueState.getD r.queue.state).isPassed := by
      revert hnext
      cases next <;> simp [RecoveryKind.queueState, QueueState.isNonterminal, QueueState.isPassed]
    exact Work.Stands.congr (.of_moveTo hfacts.1 (.inr hfacts.2)) rfl rfl rfl
  · exact Work.Stands.congr (.refl hactive) rfl rfl rfl

theorem continueOrClose_stands {claim : Claim} (hspent : ¬r.mayContinue) :
    r.work.Stands (r.continueOrClose claim now).work := by
  unfold continueOrClose
  split_ifs with hcontinuation hidle hfresh
  · exact absurd ⟨hcontinuation, fun _ => hfresh⟩ hspent
  · exact attended_stands.congr rfl rfl rfl
  · exact absurd ⟨hcontinuation, fun h => absurd h hidle⟩ hspent
  · exact attended_stands.congr rfl rfl rfl

/-- A permitted move of an active dispatch that passes no cancellation leaves it active. -/
theorem isNonterminal_of_transition {state state' : QueueState} (hactive : state.isNonterminal)
    (htransition : state' ≠ .cancelled ∧ state' ∈ transitions state)
    (hstate : ¬(state' ≠ state ∧ state'.isPassed)) : state'.isNonterminal := by
  revert hactive htransition hstate
  cases state <;> cases state' <;> decide

theorem overtakes_of_releases (h : L.releases dispatchId op) : L.Overtakes dispatchId r op := by
  cases op <;> first
    | exact h
    | cases h

/-- A call that does not overtake the cancellation leaves the attempt to be cancelled. -/
theorem Works.stands (h : Works env L op dispatchId r s) (hpending : r.cancelPending)
    (hactive : r.queue.state.isNonterminal) (hbound : r.liveness.isSome)
    (hop : ¬L.Overtakes dispatchId r op) : r.work.Stands s.work := by
  have hstands : r.work.Stands r.work := .refl hactive
  have hcancelled : ¬QueueState.cancelled.isPassed := by decide
  have hstarting : ¬QueueState.starting.isPassed := by decide
  have hrunning : ¬QueueState.running.isPassed := by decide
  have hinspection : ¬QueueState.recoveryInspectionPending.isPassed := by decide
  cases h with
  | records added _ h => exact h ▸ hstands.congr rfl rfl rfl
  | claims epoch nonce program executionCancelled now heq hnext hkept =>
    subst heq
    exact absurd ⟨hnext, hkept⟩ hop
  | cancels retain added _ _ _ h => exact h ▸ ⟨rfl, .inr hcancelled, .inl rfl⟩
  | acknowledges _ _ _ _ _ _ _ h => exact h ▸ ⟨rfl, .inr hcancelled, .inl rfl⟩
  | moves state epoch now heq htransition h =>
    subst heq
    have hstate : ¬(state ≠ r.queue.state ∧ state.isPassed) := fun h => hop ⟨rfl, h⟩
    have hsame : state = r.queue.state ∨ ¬state.isPassed := by
      by_contra hneither
      exact hstate ⟨fun h => hneither (.inl h), by_contra fun h => hneither (.inr h)⟩
    exact h ▸ .of_moveTo (isNonterminal_of_transition hactive htransition hstate) hsame
  | requeues hreleases => exact absurd (overtakes_of_releases hreleases) hop
  | binds epoch generation attempt process token lease now _ _ _ hstate _ h =>
    obtain ⟨l, hl⟩ := Option.isSome_iff_exists.1 hbound
    have hworker : r.work.worker = some l.worker := by
      rw [work, hl]
      rfl
    rw [hworker] at h
    refine h ▸ ⟨rfl, ?_, .inr ⟨?_, hworker ▸ rfl⟩⟩
    · show (if r.queue.state = .claimed then QueueState.starting else r.queue.state) = _ ∨ _
      split_ifs
      · exact .inr hstarting
      · exact .inl rfl
    · show (if r.queue.state = .claimed then QueueState.starting else r.queue.state).isNonterminal
      split_ifs
      · rfl
      · exact hactive
  | runs _ _ _ _ _ _ _ hstate h => exact h ▸ .of_moveTo rfl (.inr hrunning)
  | exits process exit now heq _ h =>
    subst heq
    exact h ▸ workerExit_stands hactive fun h => hop ⟨rfl, h⟩
  | charges failure evidence now heq _ charge _ h =>
    subst heq
    exact h ▸ recordCharge_stands hactive fun h => hop ⟨rfl, h⟩
  | attends _ h => exact h ▸ attended_stands
  | configures _ _ _ _ _ _ h => exact h ▸ hstands.congr rfl rfl rfl
  | inspects inspection now hdecided h => exact h ▸ recordInspection_stands hactive hdecided
  | reinspects _ h => exact h ▸ .of_moveTo rfl (.inr hinspection)
  | continues epoch nonce program current now heq _ _ h =>
    subst heq
    exact h ▸ continueOrClose_stands fun h => hop ⟨rfl, h⟩
  | grants _ _ _ _ _ hnone =>
    rw [hpending] at hnone
    cases hnone
  | results _ hnone =>
    rw [hpending] at hnone
    cases hnone
  | ingests raw now heq hstate =>
    subst heq
    exact absurd ⟨rfl, hstate⟩ hop
  | finishes hstate =>
    exfalso
    generalize r.queue.state = state at hactive hstate
    revert hactive hstate
    cases state <;> decide
  | captures _ _ _ _ _ _ h => exact h ▸ hstands.congr rfl rfl rfl

/-! ### The record -/

theorem workerExit_controls {exit : WorkerExit} :
    (r.workerExit env dispatchId exit now).controls = r.controls := by
  unfold workerExit
  split
  · rfl
  unfold applyExitRetryPolicy
  split
  · unfold spendAtExit
    dsimp only
    split
    · rfl
    split <;> rfl
  · split_ifs <;> rfl

theorem recordCharge_controls {failure : RetryFailureClass} {evidence : RetryEvidence}
    {charge : Charge} :
    (r.recordCharge env dispatchId failure evidence charge now).controls = r.controls := by
  unfold recordCharge
  dsimp only
  split
  · split <;> rfl
  split <;> rfl

theorem continueOrClose_controls {claim : Claim} :
    (r.continueOrClose claim now).controls = r.controls := by
  unfold continueOrClose
  split_ifs <;> rfl

/-- Actions are only added, under identities that no dispatch has recorded. -/
theorem Works.controls (h : Works env L op dispatchId r s) :
    ∃ added, (∀ a ∈ added, L.findControl a.actionId = none) ∧ s.controls = r.controls ++ added := by
  have hkept : ∀ w, s.work = w → w.controls = r.controls → ∃ added : List RecoveryControl,
      (∀ a ∈ added, L.findControl a.actionId = none) ∧ s.controls = r.controls ++ added :=
    fun w hw hcontrols => ⟨[], nofun,
      ((congrArg Work.controls hw).trans hcontrols).trans (List.append_nil _).symm⟩
  cases h with
  | records added hadded h => exact ⟨added, hadded, congrArg Work.controls h⟩
  | claims _ _ _ _ _ _ _ _ h => exact hkept _ h rfl
  | cancels _ added hadded _ _ h => exact ⟨added, hadded, congrArg Work.controls h⟩
  | acknowledges _ _ _ _ _ _ _ h => exact hkept _ h rfl
  | moves _ _ _ _ _ h => exact hkept _ h rfl
  | requeues _ added hadded h => exact ⟨added, hadded, congrArg Work.controls h⟩
  | binds _ _ _ _ _ _ _ _ _ _ _ _ h => exact hkept _ h rfl
  | runs _ _ _ _ _ _ _ _ h => exact hkept _ h rfl
  | exits _ _ _ _ _ h => exact hkept _ h workerExit_controls
  | charges _ _ _ _ _ _ _ h => exact hkept _ h recordCharge_controls
  | attends _ h => exact hkept _ h rfl
  | configures _ _ _ _ _ _ h => exact hkept _ h rfl
  | inspects _ _ _ h => exact hkept _ h rfl
  | reinspects _ h => exact hkept _ h rfl
  | continues _ _ _ _ _ _ _ _ h => exact hkept _ h continueOrClose_controls
  | grants _ _ _ _ _ _ _ _ _ added hadded h => exact ⟨added, hadded, congrArg Work.controls h⟩
  | results _ _ _ _ _ _ h => exact hkept _ h rfl
  | ingests _ _ _ _ _ _ _ h => exact hkept _ h rfl
  | finishes _ _ _ _ _ h => exact hkept _ h rfl
  | captures _ _ _ _ _ _ h => exact hkept _ h rfl

theorem mem_recorded {d : DispatchId} {a : RecoveryControl} :
    (d, a) ∈ L.dispatches.entries.flatMap (fun entry => entry.2.controls.map fun a => (entry.1, a)) ↔
      ∃ r, L.dispatches.get? d = some r ∧ a ∈ r.controls := by
  rw [List.mem_flatMap]
  constructor
  · rintro ⟨⟨d, r⟩, hentry, hmem⟩
    obtain ⟨a, ha, heq⟩ := List.mem_map.1 hmem
    cases heq
    exact ⟨r, Table.get?_eq_some.2 hentry, ha⟩
  · rintro ⟨r, hr, ha⟩
    exact ⟨(d, r), Table.get?_eq_some.1 hr, List.mem_map_of_mem ha⟩

theorem findControl_eq_none : L.findControl actionId = none ↔
    ∀ d r, L.dispatches.get? d = some r → ∀ a ∈ r.controls, a.actionId ≠ actionId := by
  rw [findControl, List.find?_eq_none]
  constructor
  · intro h d r hr a ha hid
    exact h (d, a) (mem_recorded.2 ⟨r, hr, ha⟩) (decide_eq_true hid)
  · rintro h ⟨d, a⟩ hmem hid
    obtain ⟨r, hr, ha⟩ := mem_recorded.1 hmem
    exact h d r hr a ha (of_decide_eq_true hid)

structure Withdraws (L : Ledger) (dispatchId : DispatchId) (actionId : String) : Prop where
  recorded : ∃ r, L.dispatches.get? dispatchId = some r ∧ ∃ a ∈ r.controls, a.actionId = actionId
  unique : ∀ d r, L.dispatches.get? d = some r → ∀ a ∈ r.controls, a.actionId = actionId →
    d = dispatchId ∧ a.actionKind = .cancel

theorem Withdraws.findControl (h : L.Withdraws dispatchId actionId) :
    ∃ a, L.findControl actionId = some (dispatchId, a) ∧ a.actionKind = .cancel := by
  cases hfound : L.findControl actionId with
  | none =>
    obtain ⟨r, hr, a, ha, hid⟩ := h.recorded
    exact absurd hid (findControl_eq_none.1 hfound _ r hr a ha)
  | some found =>
    obtain ⟨d, a⟩ := found
    obtain ⟨r, hr, ha⟩ := mem_recorded.1 (List.mem_of_find?_eq_some hfound)
    have hid : a.actionId = actionId := by simpa using List.find?_some hfound
    obtain ⟨rfl, hkind⟩ := h.unique d r hr a ha hid
    exact ⟨a, rfl, hkind⟩

theorem Withdraws.cancelPending (h : L.Withdraws dispatchId actionId)
    (hr : L.dispatches.get? dispatchId = some r) : r.cancelPending := by
  obtain ⟨r₀, hr₀, a, ha, hid⟩ := h.recorded
  obtain rfl := Option.some.inj (hr.symm.trans hr₀)
  exact List.any_eq_true.2 ⟨a, ha, decide_eq_true (h.unique _ _ hr a ha hid).2⟩

theorem Withdraws.next (h : L.Withdraws dispatchId actionId) (op : Op) :
    (L.next env op).Withdraws dispatchId actionId := by
  obtain hsame | ⟨-, hbody, -⟩ := next_cases env L op
  · rwa [hsame]
  have hall := body_works hbody
  obtain ⟨r, hr, a, ha, hid⟩ := h.recorded
  constructor
  · obtain ⟨r', hr', hworks⟩ := hall.rows _ r hr
    obtain ⟨added, -, hcontrols⟩ := hworks.controls
    exact ⟨r', hr', a, hcontrols ▸ List.mem_append_left _ ha, hid⟩
  · intro d r' hr' b hb hsame
    cases hold : L.dispatches.get? d with
    | none =>
      obtain ⟨q, now, sequence, created, -, rfl⟩ := hall.fresh d r' hold hr'
      cases hb
    | some r₀ =>
      obtain ⟨s, hs, hworks⟩ := hall.rows d r₀ hold
      obtain rfl := Option.some.inj (hs.symm.trans hr')
      obtain ⟨added, hadded, hcontrols⟩ := hworks.controls
      rw [hcontrols] at hb
      obtain hb | hb := List.mem_append.1 hb
      · exact h.unique d r₀ hold b hb hsame
      · exact absurd hid (findControl_eq_none.1 (hsame ▸ hadded b hb) _ r hr a ha)

/-! ### The process of a worker -/

theorem workerExit_liveness {exit : WorkerExit} :
    (r.workerExit env dispatchId exit now).liveness = none ∨
      (r.workerExit env dispatchId exit now).liveness = (r.markExited now).liveness := by
  unfold workerExit
  split
  · exact .inr rfl
  unfold applyExitRetryPolicy
  split
  · unfold spendAtExit
    dsimp only
    split
    · exact .inl rfl
    split <;> exact .inr rfl
  · split_ifs <;> exact .inr rfl

def DispatchRows.Names (r : DispatchRows) (process : WorkerProcess) : Prop :=
  r.work.worker.map (·.process) = some process

theorem DispatchRows.Names.liveness {process : WorkerProcess} (h : r.Names process) :
    ∃ l, r.liveness = some l ∧ l.pid = process.pid ∧
      l.processBirthIdentity = process.processBirthIdentity := by
  obtain ⟨w, hw, rfl⟩ := Option.map_eq_some_iff.1 h
  obtain ⟨l, hl, rfl⟩ := Option.map_eq_some_iff.1 hw
  exact ⟨l, hl, rfl, rfl⟩

theorem recordCharge_liveness {failure : RetryFailureClass} {evidence : RetryEvidence}
    {charge : Charge} :
    (r.recordCharge env dispatchId failure evidence charge now).liveness = none ∨
      (r.recordCharge env dispatchId failure evidence charge now).liveness = r.liveness := by
  unfold recordCharge
  dsimp only
  split
  · split
    · exact .inl rfl
    · exact .inr rfl
  split <;> exact .inr rfl

theorem continueOrClose_liveness {claim : Claim} :
    (r.continueOrClose claim now).liveness = none ∨
      (r.continueOrClose claim now).liveness = r.liveness := by
  unfold continueOrClose
  split_ifs
  · exact .inl rfl
  · exact .inr rfl
  · exact .inl rfl
  · exact .inr rfl

/-- A call keeps the process of the dispatch, forgets it, or binds one that has an identity. -/
theorem Works.names {process : WorkerProcess} (h : Works env L op dispatchId r s)
    (hs : s.Names process) :
    r.Names process ∨ 0 < process.pid ∧ process.processBirthIdentity ≠ "" := by
  have hkept : ∀ w, s.work = w → w.worker.map (·.process) = r.work.worker.map (·.process) →
      r.Names process ∨ 0 < process.pid ∧ process.processBirthIdentity ≠ "" := by
    intro w hw hworker
    left
    unfold Names at hs ⊢
    rw [← hworker, ← hw]
    exact hs
  have hnone : ∀ w, s.work = w → w.worker ≠ none := by
    intro w hw hworker
    unfold Names at hs
    rw [hw, hworker] at hs
    cases hs
  have hforgot : ∀ t : DispatchRows, s.work = t.work → t.liveness = none ∨ t.liveness = r.liveness →
      r.Names process ∨ 0 < process.pid ∧ process.processBirthIdentity ≠ "" := by
    rintro t ht (hl | hl)
    · exact absurd (by rw [work, hl]; rfl) (hnone _ ht)
    · exact hkept _ ht (by rw [work, hl]; rfl)
  cases h with
  | records _ _ h => exact hkept _ h rfl
  | claims _ _ _ _ _ _ _ _ h => exact hkept _ h rfl
  | cancels retain _ _ _ _ h =>
    cases retain with
    | false => exact absurd rfl (hnone _ h)
    | true => exact hkept _ h rfl
  | acknowledges _ _ _ _ _ _ _ h => exact hkept _ h (Option.map_map ..)
  | moves _ _ _ _ _ h => exact hkept _ h rfl
  | requeues _ _ _ h => exact absurd rfl (hnone _ h)
  | binds epoch generation attempt bound token lease now _ hbound _ _ _ h =>
    cases hw : r.work.worker with
    | some w => exact hkept _ h (by rw [hw]; rfl)
    | none =>
      rw [hw] at h
      unfold Names at hs
      rw [h] at hs
      obtain rfl := Option.some.inj hs
      exact .inr hbound
  | runs _ _ _ _ _ _ _ _ h => exact hkept _ h rfl
  | exits _ exit now _ _ h =>
    obtain hl | hl := @workerExit_liveness env dispatchId r now exit
    · exact hforgot _ h (.inl hl)
    · have hprocess : (r.workerExit env dispatchId exit now).work.worker =
          (r.markExited now).work.worker := by
        rw [work, hl]
        rfl
      exact hkept _ h (by rw [hprocess]; exact markExited_process)
  | charges _ _ _ _ _ _ _ h => exact hforgot _ h recordCharge_liveness
  | attends _ h => exact hkept _ h rfl
  | configures _ _ _ _ _ _ h => exact hkept _ h rfl
  | inspects _ _ _ h => exact hkept _ h rfl
  | reinspects _ h => exact hkept _ h rfl
  | continues _ _ _ _ _ _ _ _ h => exact hforgot _ h continueOrClose_liveness
  | grants _ _ _ _ _ _ _ _ _ _ _ h => exact hkept _ h rfl
  | results _ _ _ _ _ _ h => exact hkept _ h rfl
  | ingests _ _ _ _ _ _ _ h => exact hkept _ h rfl
  | finishes _ _ _ _ _ h => exact hkept _ h rfl
  | captures _ _ _ _ _ _ h => exact hkept _ h rfl

theorem Reachable.process {process : WorkerProcess} (hL : L.Reachable env)
    (hr : L.dispatches.get? dispatchId = some r) (hnames : r.Names process) :
    0 < process.pid ∧ process.processBirthIdentity ≠ "" := by
  revert hnames
  refine hL.rows (I := fun r => r.Names process → 0 < process.pid ∧ process.processBirthIdentity ≠ "")
    (fun _ _ _ h => nomatch h) ?_ hr
  intro L op r r' _ _ hr hr' hI hnames
  obtain ⟨s, hs, hworks⟩ := next_works env op hr
  obtain rfl := Option.some.inj (hs.symm.trans hr')
  exact (hworks.names hnames).elim hI id

/-! ### The acknowledgement -/

/-- The acknowledgement of the exit, whatever its code and its time, ends the dispatch. -/
def Acknowledges (env : Env) (L : Ledger) (dispatchId : DispatchId) (actionId : String)
    (process : WorkerProcess) : Prop :=
  ∀ exitCode now, ∃ L' r', L.perform env (.acknowledgeCancellationExit dispatchId actionId
      process.pid process.processBirthIdentity exitCode now) = .ok L' ∧
    L'.dispatches.get? dispatchId = some r' ∧ r'.queue.state = .cancelled

/-- Keeping the exited worker changes nothing that a cancelled dispatch is checked for. -/
theorem acknowledged_valid (hvalid : r.Valid env keys dispatchId) {l : WorkerLiveness}
    (hl : r.liveness = some l) :
    ((r.recordCancelledExit exitCode now).cancel true now).Valid env keys dispatchId ↔
      (r.cancel false now).Valid env keys dispatchId := by
  obtain ⟨hgeneration, hattempt, -⟩ := hvalid.liveness l hl
  unfold recordCancelledExit
  split_ifs with hexited
  · constructor
    · intro h
      exact { h with liveness := nofun }
    · intro h
      refine { h with liveness := ?_ }
      intro l' hl'
      rw [Option.mem_def, DispatchRows.cancel, if_pos rfl, hl] at hl'
      cases hl'
      exact ⟨hgeneration, hattempt, fun _ => (by decide : QueueState.cancelled ∉ _), fun _ => rfl⟩
  · constructor
    · intro h
      exact { h with liveness := nofun }
    · intro h
      refine { h with liveness := ?_ }
      intro l' hl'
      rw [Option.mem_def, DispatchRows.cancel, if_pos rfl, hl] at hl'
      cases hl'
      refine ⟨hgeneration, hattempt, fun _ => (by decide : QueueState.cancelled ∉ _), fun _ => ?_⟩
      simpa [hl, Option.isSome_iff_ne_none] using hexited

theorem Reachable.acknowledged_of_mem {d : ControllerDecision} (hL : L.Reachable env)
    (hr : L.dispatches.get? dispatchId = some r) (hd : d ∈ r.decisions)
    (hacknowledged : d.acknowledgedAt.isSome) : d.outbox.isSome := by
  have hat : r.decision? d.kind d.cycleSequence = some d :=
    decision?_of_mem (hL.good.to_valid.rows hr).decisions.1 hd
  have hp : L.pairAt (.dispatch dispatchId d.kind d.cycleSequence) =
      some ⟨d, r.wake? d.kind d.cycleSequence⟩ := by
    show (L.dispatches.get? dispatchId).bind _ = _
    rw [hr]
    exact pair?_eq_some.2 ⟨hat, rfl⟩
  exact hL.acknowledged hp hacknowledged

theorem recordCancelledExit_cancel {l : WorkerLiveness} (hl : r.liveness = some l)
    (hactive : r.queue.state.isNonterminal) (hraw : r.queue.raw = none) (hblank : r.Blank) :
    L.cancelQueueRow none true now (r.recordCancelledExit exitCode now) =
      .ok ((r.recordCancelledExit exitCode now).cancel true now) := by
  have hexited : (r.recordCancelledExit exitCode now).liveness.any (·.exitedAt.isSome) := by
    unfold recordCancelledExit
    split_ifs with h
    · simp [hl]
    · simpa [hl, Option.isSome_iff_ne_none] using h
  have hkept : (r.recordCancelledExit exitCode now).queue = r.queue ∧
      (r.recordCancelledExit exitCode now).successorOutbox = none ∧
      (r.recordCancelledExit exitCode now).notificationOutbox = none := by
    unfold recordCancelledExit
    split_ifs <;> exact ⟨rfl, hblank.successorOutbox, hblank.notificationOutbox⟩
  unfold cancelQueueRow
  rw [hkept.1, hkept.2.1, hkept.2.2, if_neg (Life.ne_cancelled_of_isNonterminal hactive),
    ensure_of hactive, ensure_of (by rw [hraw, hblank.terminalStatus]; rfl),
    ensure_of (by rfl), ensure_of fun _ => hexited]
  rfl

/-- The acknowledgement goes through exactly when nothing of the dispatch stops a cancellation. -/
theorem acknowledges_iff {process : WorkerProcess} (hL : L.Reachable env)
    (hid : env.isCommandId actionId) (hw : L.Withdraws dispatchId actionId)
    (hr : L.dispatches.get? dispatchId = some r) (hactive : r.queue.state.isNonterminal)
    (hnames : r.Names process) :
    L.Acknowledges env dispatchId actionId process ↔ r.Cancellable := by
  have hvalid := hL.good.to_valid
  have hrows := hvalid.rows hr
  have hblank := hL.blank hr (Life.isTerminal_of_isNonterminal hactive)
  obtain ⟨l, hl, hpid, hbirth⟩ := hnames.liveness
  obtain ⟨a, hfound, hkind⟩ := hw.findControl
  have hcancel : ∀ {exitCode now}, ((r.recordCancelledExit exitCode now).cancel true now).Valid env
      L.dispatches.keys dispatchId ↔ r.Cancellable :=
    (acknowledged_valid hrows hl).trans
      (cancel_valid hrows hactive hblank fun d hd => hL.acknowledged_of_mem hr hd)
  have hbody : ∀ exitCode now, L.body env (.acknowledgeCancellationExit dispatchId actionId
      process.pid process.processBirthIdentity exitCode now) = .ok { L with
        dispatches := L.dispatches.set dispatchId
                        ((r.recordCancelledExit exitCode now).cancel true now) } := by
    intro exitCode now
    show L.acknowledgeWorkerCancellationExit env dispatchId actionId _ _ exitCode now = _
    unfold acknowledgeWorkerCancellationExit
    rw [ensure_of hid, ok_bind, ensure_of (hL.process hr hnames), ok_bind, hfound]
    refine onDispatch_ok.2 ⟨r, _, hr, ?_, rfl⟩
    rw [ensure_of ⟨rfl, hkind⟩, ok_bind, if_neg (Life.ne_cancelled_of_isNonterminal hactive),
      ensure_of (by simp [hl, hpid, hbirth]), ok_bind]
    exact recordCancelledExit_cancel hl hactive (hrows.queue.2.2.2.1 hactive).1 hblank
  constructor
  · intro h
    obtain ⟨L', r', hperform, hr', -⟩ := h none 0
    obtain ⟨-, hbody', hL'⟩ := perform_ok.1 hperform
    obtain rfl := Except.ok.inj ((hbody none 0).symm.trans hbody')
    have hrows' := hL'.rows (Table.get?_set_self hr _)
    rw [Table.keys_set] at hrows'
    exact hcancel.1 hrows'
  · intro hc exitCode now
    exact ⟨_, _, perform_ok.2 ⟨hvalid, hbody exitCode now, valid_set hvalid (hcancel.2 hc)⟩,
      Table.get?_set_self hr _, rfl⟩

/-! ### The cancellation wins -/

/-- No call releases the dispatch, and while its cancellation waits nothing of it stops a
cancellation and no call overtakes it. -/
def Undisturbed (L : Ledger) (dispatchId : DispatchId) (op : Op) : Prop :=
  ¬L.releases dispatchId op ∧
    ∀ r ∈ L.dispatches.get? dispatchId, r.queue.state ≠ .cancelled →
      r.Cancellable ∧ ¬L.Overtakes dispatchId r op

instance (L : Ledger) (dispatchId : DispatchId) (op : Op) :
    Decidable (L.Undisturbed dispatchId op) := by
  unfold Undisturbed
  infer_instance

/-- While the cancellation waits, the call starts no attempt and does not move the dispatch past it,
and the exit of the process can be acknowledged. -/
def Wins (env : Env) (L : Ledger) (dispatchId : DispatchId) (actionId : String)
    (process : WorkerProcess) (op : Op) : Prop :=
  ∀ r ∈ L.dispatches.get? dispatchId, r.queue.state ≠ .cancelled →
    (∀ L' r', L.perform env op = .ok L' → L'.dispatches.get? dispatchId = some r' →
      (r'.queue.state = r.queue.state ∨ ¬r'.queue.state.isPassed) ∧
        r'.queue.attempt = r.queue.attempt) ∧
    L.Acknowledges env dispatchId actionId process

/-- The cancellation is recorded, and the dispatch is cancelled or still has its process. -/
structure Waits (env : Env) (L : Ledger) (dispatchId : DispatchId) (actionId : String)
    (process : WorkerProcess) : Prop where
  reachable : L.Reachable env
  commandId : env.isCommandId actionId
  record : L.Withdraws dispatchId actionId
  rows : ∃ r, L.dispatches.get? dispatchId = some r ∧
    (r.queue.state = .cancelled ∨ r.queue.state.isNonterminal ∧ r.Names process)

namespace Waits

variable {process : WorkerProcess}

theorem stands (h : L.Waits env dispatchId actionId process) (hop : L.Undisturbed dispatchId op)
    (hr : L.dispatches.get? dispatchId = some r) (hactive : r.queue.state.isNonterminal)
    (hnames : r.Names process) (hworks : Works env L op dispatchId r s) : r.work.Stands s.work := by
  obtain ⟨l, hl, -⟩ := hnames.liveness
  exact hworks.stands (h.record.cancelPending hr) hactive (by rw [hl]; rfl)
    (hop.2 r hr (Life.ne_cancelled_of_isNonterminal hactive)).2

theorem next (h : L.Waits env dispatchId actionId process) (hop : L.Undisturbed dispatchId op) :
    (L.next env op).Waits env dispatchId actionId process := by
  refine ⟨Reachable.next h.reachable op, h.commandId, h.record.next op, ?_⟩
  obtain ⟨r, hr, hcancelled | ⟨hactive, hnames⟩⟩ := h.rows
  · obtain ⟨r', hr', hstate | ⟨hrevives, -⟩⟩ := next_cancelled h.reachable.good hr hcancelled op
    · exact ⟨r', hr', .inl hstate⟩
    · exact absurd (releases_of_revives hrevives) hop.1
  · obtain ⟨r', hr', hworks⟩ := next_works env op hr
    obtain ⟨-, -, hstate | ⟨hactive', hprocess⟩⟩ := h.stands hop hr hactive hnames hworks
    · exact ⟨r', hr', .inl hstate⟩
    · exact ⟨r', hr', .inr ⟨hactive', hprocess.trans hnames⟩⟩

theorem wins (h : L.Waits env dispatchId actionId process) (hop : L.Undisturbed dispatchId op) :
    L.Wins env dispatchId actionId process op := by
  intro r hr hstate
  obtain ⟨r₀, hr₀, hcancelled | ⟨hactive, hnames⟩⟩ := h.rows
  · obtain rfl := Option.some.inj (hr.symm.trans hr₀)
    exact absurd hcancelled hstate
  obtain rfl := Option.some.inj (hr.symm.trans hr₀)
  refine ⟨fun L' r' hperform hr' => ?_,
    (acknowledges_iff h.reachable h.commandId h.record hr hactive hnames).2 (hop.2 r hr hstate).1⟩
  obtain ⟨s, hs, hworks⟩ := perform_works hperform hr
  obtain rfl := Option.some.inj (hs.symm.trans hr')
  obtain ⟨hattempt, hkept, -⟩ := h.stands hop hr hactive hnames hworks
  exact ⟨hkept, hattempt⟩

end Waits

theorem waits_of_action (hL : L.Reachable env) (hr : L.dispatches.get? dispatchId = some r)
    {l : WorkerLiveness} (hl : r.liveness = some l) (hexited : l.exitedAt = none)
    {action : RecoveryAction} (hkind : action.actionKind = .cancel)
    (hnew : L.findControl action.actionId = none) {activeTurn : Bool}
    (h : L.perform env (.action dispatchId action activeTurn now) = .ok L') :
    L'.Waits env dispatchId action.actionId l.process := by
  have hreachable : L'.Reachable env := by
    have hnext := hL.next (.action dispatchId action activeTurn now)
    rwa [Ledger.next, h] at hnext
  have hbody : L.applyRecoveryAction env dispatchId action activeTurn now = .ok L' :=
    (perform_ok.1 h).2.1
  simp only [applyRecoveryAction, hnew, checks_ok] at hbody
  obtain ⟨hid, -, -, -, -, -, hbody⟩ := hbody
  obtain ⟨r₀, r', hr₀, hrow, rfl⟩ := onDispatch_ok.1 hbody
  obtain rfl := Option.some.inj (hr.symm.trans hr₀)
  simp only [steps_ok] at hrow
  obtain ⟨-, -, hstate, applied, happlied, rfl⟩ := hrow
  have hlive : r.liveness.any (·.exitedAt.isNone) := by simp [hl, hexited]
  obtain rfl : applied = { r with policy := r.policy.revise now } := by
    rw [actionEffect, hkind] at happlied
    unfold cancelAction at happlied
    rw [if_pos hlive] at happlied
    exact (pure_eq_ok.1 happlied).symm
  have hget := Table.get?_set_self hr
    { r with
      policy := r.policy.revise now
      controls := r.controls ++ [action.control env now] }
  have hfresh := findControl_eq_none.1 hnew
  refine ⟨hreachable, hid, ⟨⟨_, hget, _, List.mem_append_right _ List.mem_cons_self, rfl⟩, ?_⟩,
    _, hget, .inr ⟨isNonterminal_of_not_mem hstate, ?_⟩⟩
  · intro d s hs a ha hsame
    by_cases hd : d = dispatchId
    · subst hd
      obtain rfl := Option.some.inj (hget.symm.trans hs)
      obtain ha | ha := List.mem_append.1 ha
      · exact absurd hsame (hfresh d r hr a ha)
      · obtain rfl := List.mem_singleton.1 ha
        exact ⟨rfl, hkind⟩
    · rw [Table.get?_set_ne _ hd] at hs
      exact absurd hsame (hfresh d s hs a ha)
  · show (r.liveness.map _).map _ = _
    rw [hl]
    rfl

/-- After a cancellation of a live worker has committed, it wins over every call of a run that does
not overtake it. -/
theorem committed_cancellation_wins (hL : L.Reachable env)
    (hr : L.dispatches.get? dispatchId = some r) {l : WorkerLiveness} (hl : r.liveness = some l)
    (hexited : l.exitedAt = none) {action : RecoveryAction} (hkind : action.actionKind = .cancel)
    (hnew : L.findControl action.actionId = none) {activeTurn : Bool}
    (haction : L.perform env (.action dispatchId action activeTurn now) = .ok L')
    (ops : List Op)
    (hops : Machine.Along (next env) (fun L op => L.Undisturbed dispatchId op) L' ops) :
    Machine.Along (next env) (fun L op => L.Wins env dispatchId action.actionId
      l.process op) L' ops :=
  hops.imp_of_invariant
    (I := fun L => L.Waits env dispatchId action.actionId l.process)
    (fun _ _ h hop => h.next hop) (fun _ _ h hop => h.wins hop)
    (waits_of_action hL hr hl hexited hkind hnew haction)

def withdrawal : RecoveryAction where
  actionId := "stop-1"
  expectedRevision := 0
  actionKind := .cancel
  reason := "stop"

theorem withdrawn_sample :
    ∃ r l, (Machine.run (next .sample) {} (enqueued ++ started 1)).dispatches.get? sampleId =
        some r ∧ r.liveness = some l ∧ l.exitedAt = none ∧ l.process = ⟨41, "birth"⟩ ∧
      (Machine.run (next .sample) {} (enqueued ++ started 1)).findControl "stop-1" = none := by
  have hrun : ((Machine.run (next .sample) {} (enqueued ++ started 1)).dispatches.get? sampleId).any
      (fun r => r.liveness.any fun l => l.exitedAt = none && l.process = ⟨41, "birth"⟩) ∧
      (Machine.run (next .sample) {} (enqueued ++ started 1)).findControl "stop-1" = none := by
    decide +kernel
  obtain ⟨hrow, hnew⟩ := hrun
  obtain ⟨r, hr, hlive⟩ := (Option.any_eq_true _ _).1 hrow
  obtain ⟨l, hl, hfacts⟩ := (Option.any_eq_true _ _).1 hlive
  simp only [Bool.and_eq_true, decide_eq_true_eq] at hfacts
  exact ⟨r, l, hr, hl, hfacts.1, hfacts.2, hnew⟩

/-- The worker fails after its cancellation, and its exit is acknowledged. -/
def failedExit : List Op :=
  [.exit sampleId ⟨41, "birth"⟩ { exitCode := some 1 } 6,
    .acknowledgeCancellationExit sampleId "stop-1" 41 "birth" (some 1) 7]

theorem failedExit_wins :
    ∃ L', (Machine.run (next .sample) {} (enqueued ++ started 1)).perform .sample
        (.action sampleId withdrawal true 5) = .ok L' ∧
      Machine.Along (next .sample) (fun L op => L.Wins .sample sampleId "stop-1" ⟨41, "birth"⟩ op)
        L' failedExit ∧
      ((Machine.run (next .sample) L' failedExit).dispatches.get? sampleId).any fun r =>
        r.queue.state = .cancelled := by
  have hrun : ((Machine.run (next .sample) {} (enqueued ++ started 1)).perform .sample
      (.action sampleId withdrawal true 5)).toOption.any fun L' =>
        Machine.Along (next .sample) (fun L op => L.Undisturbed sampleId op) L' failedExit &&
        ((Machine.run (next .sample) L' failedExit).dispatches.get? sampleId).any fun r =>
          r.queue.state = .cancelled := by
    decide
  obtain ⟨L', hperform, h⟩ := exists_ok_of_toOption hrun
  simp only [Bool.and_eq_true, decide_eq_true_eq] at h
  obtain ⟨r, l, hr, hl, hexited, hprocess, hnew⟩ := withdrawn_sample
  have hwins := committed_cancellation_wins ⟨_, rfl⟩ hr hl hexited rfl hnew hperform failedExit h.1
  exact ⟨L', hperform, hprocess ▸ hwins, h.2⟩

/-- The transport of the worker breaks before it has a thread. -/
def brokenExit : Op := .exit sampleId ⟨41, "birth"⟩ { exitCode := some 74 } 6

theorem brokenExit_not_wins :
    ¬∀ (env : Env) (L L' : Ledger) (d : DispatchId) (r : DispatchRows) (l : WorkerLiveness)
      (action : RecoveryAction) (activeTurn : Bool) (now : Time) (ops : List Op),
      L.Reachable env → L.dispatches.get? d = some r → r.liveness = some l → l.exitedAt = none →
      action.actionKind = .cancel → L.findControl action.actionId = none →
      L.perform env (.action d action activeTurn now) = .ok L' →
      Machine.Along (next env) (fun L op => L.Wins env d action.actionId l.process op) L' ops := by
  intro h
  have hrun : ((Machine.run (next .sample) {} (enqueued ++ started 1)).perform .sample
      (.action sampleId withdrawal true 5)).toOption.any fun L' =>
        (L'.perform .sample brokenExit).toOption.any fun L'' =>
          (L'.dispatches.get? sampleId).any (fun r => r.queue.state = .starting) &&
          (L''.dispatches.get? sampleId).any fun r => r.queue.state = .queued := by
    decide
  obtain ⟨L', haction, hexit⟩ := exists_ok_of_toOption hrun
  obtain ⟨L'', hexit, hstates⟩ := exists_ok_of_toOption hexit
  rw [Bool.and_eq_true] at hstates
  obtain ⟨r', hr', hstarting⟩ := (Option.any_eq_true _ _).1 hstates.1
  obtain ⟨r'', hr'', hqueued⟩ := (Option.any_eq_true _ _).1 hstates.2
  obtain ⟨r, l, hr, hl, hexited, -, hnew⟩ := withdrawn_sample
  have halong := h .sample _ L' sampleId r l withdrawal true 5 [brokenExit] ⟨_, rfl⟩ hr hl hexited
    rfl hnew haction
  rw [decide_eq_true_eq] at hstarting hqueued
  obtain ⟨hcall, -⟩ := halong.1 r' hr' (by rw [hstarting]; decide)
  obtain ⟨hstate, -⟩ := hcall L'' r'' hexit hr''
  rw [hstarting, hqueued] at hstate
  exact absurd hstate (by decide)

end CodexFlow.Ledger
