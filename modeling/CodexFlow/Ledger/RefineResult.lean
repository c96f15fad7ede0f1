import CodexFlow.Ledger.RefineRecovery

/-!
# Refinement of the results, the wakes and the gates

A commit is seen by the life as one step: it finishes the dispatch, or settles one that has ended.
-/

namespace CodexFlow.Ledger

open Checked DispatchRows

variable {env : Env} {L L' : Ledger} {keys : List DispatchId} {dispatchId : DispatchId}
  {r r' : DispatchRows} {c : Cause} {now : Time}

/-! ### What the parts of a commit do -/

theorem capabilityAt_eq_some {generation attempt : ℕ} {cap : AttemptCapability}
    (h : r.capabilityAt generation attempt = some cap) :
    r.capability = some cap ∧ cap.generation = generation ∧ cap.attempt = attempt := by
  obtain ⟨hcap, hkey⟩ := Option.filter_eq_some_iff.1 h
  simp only [Bool.and_eq_true, decide_eq_true_eq] at hkey
  exact ⟨hcap, hkey⟩

/-- A submission that is let through owns the capability of the current attempt. -/
structure SubmitOwned (env : Env) (s : Submission) (r : DispatchRows) (cap : AttemptCapability) :
    Prop where
  identity : 1 ≤ s.generation ∧ 1 ≤ s.attempt
  capability : r.capabilityAt s.generation s.attempt = some cap
  binding : cap.generation = r.queue.generation ∧ cap.attempt = r.queue.attempt ∧
    cap.backend = r.queue.backend ∧ cap.workspacePath = r.queue.workspacePath ∧
    cap.schemaSha256 = r.queue.resultContractSha256
  token : isAscii s.token ∧ cap.tokenSha256 = env.sha256 s.token
  notPending : r.cancelPending = false
  notCancelled : r.queue.state ≠ .cancelled

theorem SubmitOwned.attempt_eq {s : Submission} {cap : AttemptCapability}
    (h : SubmitOwned env s r cap) : r.queue.attempt = s.attempt := by
  rw [← h.binding.2.1]
  exact (capabilityAt_eq_some h.capability).2.2

/-- The three ways a submission is let through: as a replay of the terminal result or of the
accepted one, or as a new result. -/
theorem submit_cases {s : Submission} {p : ParsedResult} (h : r.submit env s p now = .ok r') :
    ∃ cap, SubmitOwned env s r cap ∧
      ((r.queue.state.isTerminal ∧ r.rawSha256 = some p.digest ∧ r' = r) ∨
        (¬r.queue.state.isTerminal ∧ cap.consumedAt.isSome ∧
          cap.acceptedResultSha256 = some p.digest ∧ r' = r) ∨
        (¬r.queue.state.isTerminal ∧ cap.consumedAt = none ∧ r.mayStillSubmit s.generation s.attempt ∧
          r' = r.acceptResult p now)) := by
  simp only [DispatchRows.submit, requireWorkerIdentity, checks_ok] at h
  obtain ⟨hidentity, h⟩ := h
  split at h
  · cases h
  rename_i cap hcap
  simp only [checks_ok] at h
  obtain ⟨hbinding, htoken, hpending, hcancelled, h⟩ := h
  refine ⟨cap, ⟨hidentity, hcap, hbinding, htoken, by simpa using hpending, hcancelled⟩, ?_⟩
  split at h
  · rename_i hterminal
    simp only [steps_ok] at h
    exact .inl ⟨hterminal, h.1, h.2.symm⟩
  rename_i hterminal
  split at h
  · rename_i hconsumed
    simp only [steps_ok] at h
    exact .inr (.inl ⟨hterminal, hconsumed, h.1, h.2.symm⟩)
  · rename_i hconsumed
    simp only [steps_ok] at h
    exact .inr (.inr ⟨hterminal, Option.not_isSome_iff_eq_none.1 hconsumed, h.2.1, h.2.2.symm⟩)

theorem bindIntegrity_eq {digest : String} (h : r.bindIntegrity digest = .ok r') :
    ∃ i, r' = { r with integrity := i } := by
  unfold bindIntegrity at h
  split at h
  · simp only [steps_ok] at h
    exact ⟨r.integrity, h.2.symm⟩
  · split at h
    · cases h
    · simp only [steps_ok] at h
      exact ⟨_, h.2.2.symm⟩

theorem insertWake_eq {w : NewWake} {current : Time} (h : r.insertWake w current now = .ok r') :
    ∃ decisions, r' = { r with decisions := decisions, wakes := r.wakes ++ [w.wake current] } := by
  simp only [insertWake, ensureControllerDecision, steps_ok] at h
  obtain ⟨r₁, ⟨-, rfl⟩, -, rfl⟩ := h
  split_ifs
  · exact ⟨r.decisions, rfl⟩
  · exact ⟨_, rfl⟩

theorem waits_terminate (terminal : QueueState) (task : Option String) :
    (r.terminate terminal task now).waits = [] := by
  simp only [waits, terminate, List.map_eq_nil_iff, List.filter_eq_nil_iff, List.mem_map]
  rintro _ ⟨a, -, rfl⟩
  unfold AuthorizedSuccessor.release
  split_ifs with h
  · exact Bool.false_ne_true
  · exact h

/-- A finalization is a replay, or ends a submitted result. -/
theorem finalize_eq {request : FinalizeRequest} (h : r.finalize request now = .ok r') :
    (r.queue.state ∈ [.completed, .failed, .cancelled] ∧ r' = r) ∨
      (r.queue.state = .resultSubmitted ∧ ∃ terminal : QueueState, terminal.isTerminal ∧
        ∃ decisions wakes, r' = { r.terminate terminal request.notifySourceTask now with
          decisions := decisions, wakes := wakes }) := by
  unfold finalize at h
  split at h
  · rename_i hstate
    exact .inl ⟨hstate, (pure_eq_ok.1 h).symm⟩
  simp only [checks_ok] at h
  obtain ⟨hstate, -, -, hwake⟩ := h
  have hterminal : QueueState.isTerminal
      (if isFailure (r.queue.terminalStatus.getD "") then .failed else .completed) := by
    split_ifs
    · rfl
    · rfl
  generalize (if isFailure (r.queue.terminalStatus.getD "") then QueueState.failed
    else QueueState.completed) = terminal at hterminal hwake
  obtain ⟨decisions, rfl⟩ := insertWake_eq hwake
  exact .inr ⟨hstate, terminal, hterminal, decisions, _, rfl⟩

theorem ParsedResult.recoveryKind_ne (p : ParsedResult) : p.recoveryKind ≠ .none := by
  unfold ParsedResult.recoveryKind
  split_ifs
  · decide
  · decide

/-- A result that was only submitted does not pass validation. -/
theorem acceptResult_not_valid {p : ParsedResult} :
    ¬(r.acceptResult p now).Valid env keys dispatchId := by
  intro hvalid
  have hstate : (r.acceptResult p now).queue.state = .resultSubmitted := rfl
  have hkind : (r.acceptResult p now).recovery.recoveryState = p.recoveryKind := rfl
  unfold ParsedResult.recoveryKind at hkind
  split_ifs at hkind
  · have := hvalid.queueState_eq (s := .failed) (by rw [hkind]; rfl)
    exact absurd (hstate.symm.trans this) (by decide)
  · have := hvalid.queueState_eq (s := .completed) (by rw [hkind]; rfl)
    exact absurd (hstate.symm.trans this) (by decide)

/-! ### Results -/

theorem finalize_accepted_refines {mid : DispatchRows} {p : ParsedResult}
    {request : FinalizeRequest} (hnon : r.queue.state.isNonterminal)
    (hstate : mid.queue.state = .resultSubmitted) (hkind : mid.recovery.recoveryState = p.recoveryKind)
    (hlife : mid.life =
      { r.life with state := .resultSubmitted, result := some p.digest, strategy := .none })
    (h : mid.finalize request now = .ok r') : Refines c r r' := by
  obtain ⟨hended, rfl⟩ | ⟨-, terminal, hterminal, decisions, wakes, rfl⟩ := finalize_eq h
  · rw [hstate] at hended
    exact absurd hended (by decide)
  · refine ⟨settled_of_recovery ?_, ?_⟩
    · show mid.recovery.recoveryState ≠ .none
      rw [hkind]
      exact p.recoveryKind_ne
    · have hended : (mid.terminate terminal request.notifySourceTask now).life =
          { mid.life with state := terminal, waits := [] } :=
        congrArg (Life.mk _ _ _ _ _ _) (waits_terminate terminal request.notifySourceTask)
      show Life.Step c r.life (mid.terminate terminal request.notifySourceTask now).life
      rw [hended, hlife]
      exact .finish hnon hterminal p.digest

theorem commitSubmitted_refines {p : ParsedResult} (hnon : r.queue.state.isNonterminal)
    (h : (r.acceptResult p now).commitSubmitted p.digest now = .ok r') : Refines c r r' := by
  simp only [commitSubmitted, bind_eq_ok] at h
  obtain ⟨bound, hbound, hfinal⟩ := h
  obtain ⟨i, rfl⟩ := bindIntegrity_eq hbound
  exact finalize_accepted_refines (p := p) hnon rfl rfl rfl hfinal

theorem commitSubmitted_replayed {digest : String} (hterminal : r.queue.state.isTerminal)
    (h : r.commitSubmitted digest now = .ok r') :
    ∃ i, r' = { r with integrity := i, policy := r.policy.settle none now } := by
  simp only [commitSubmitted, bind_eq_ok] at h
  obtain ⟨bound, hbound, hfinal⟩ := h
  obtain ⟨i, rfl⟩ := bindIntegrity_eq hbound
  obtain ⟨-, rfl⟩ | ⟨hstate, -⟩ := finalize_eq hfinal
  · exact ⟨i, rfl⟩
  · have hsubmitted : r.queue.state = .resultSubmitted := hstate
    rw [hsubmitted] at hterminal
    exact absurd hterminal (by decide)

/-- Good rows take a submission as a replay of their terminal result or as a new one. -/
theorem submit_good {s : Submission} {p : ParsedResult} (hgood : r.Good env keys dispatchId)
    (h : r.submit env s p now = .ok r') :
    (r.queue.state.isTerminal ∧ r' = r) ∨
      (r.queue.state.isNonterminal ∧ r' = r.acceptResult p now) := by
  obtain ⟨cap, howned, ⟨hterminal, -, rfl⟩ | ⟨hterminal, hconsumed, -, rfl⟩ |
    ⟨hterminal, -, -, rfl⟩⟩ := submit_cases h
  · exact .inl ⟨hterminal, rfl⟩
  · -- a consumed capability stands beside a result
    have hcap := (capabilityAt_eq_some howned.capability).1
    have hstate := ((hgood.valid.capability cap hcap).2.2.2.2.2.2.2 hconsumed).1
    have hne := hgood.ne_submitted
    exfalso
    generalize r'.queue.state = state at *
    cases state <;> revert hstate hne hterminal <;> decide
  · refine .inr ⟨?_, rfl⟩
    have hne := hgood.ne_submitted
    have hcancelled := howned.notCancelled
    generalize r.queue.state = state at *
    cases state <;> revert hne hterminal hcancelled <;> decide

theorem submitQueueResult_updates {s : Submission}
    (h : L.submitQueueResult env dispatchId s now = .ok L') : Updates env c dispatchId L L' := by
  refine .of_onDispatch h fun r r' _ hbody hgood hvalid => ?_
  simp only [bind_eq_ok] at hbody
  obtain ⟨p, -, hsubmit⟩ := hbody
  obtain ⟨-, rfl⟩ | ⟨-, rfl⟩ := submit_good hgood hsubmit
  · exact .refl hgood.settled
  · exact absurd hvalid acceptResult_not_valid

theorem commitQueueResult_updates {s : Submission}
    (h : L.commitQueueResult env dispatchId s now = .ok L') : Updates env c dispatchId L L' := by
  refine .of_onDispatch h fun r r' _ hbody hgood _ => ?_
  simp only [DispatchRows.commit, checks_ok] at hbody
  obtain ⟨p, -, -, submitted, hsubmit, hcommit⟩ := hbody
  obtain ⟨hterminal, rfl⟩ | ⟨hnon, rfl⟩ := submit_good hgood hsubmit
  · obtain ⟨i, rfl⟩ := commitSubmitted_replayed hterminal hcommit
    exact ⟨hgood.settled.congr rfl rfl, .settle hterminal⟩
  · exact commitSubmitted_refines hnon hcommit

/-- The attempt that lost its transport still waits for a human. -/
theorem lateResultAllowed_state {generation attempt : ℕ} (hgood : r.Good env keys dispatchId)
    (h : r.lateResultAllowed generation attempt) : r.queue.state = .humanAttentionRequired := by
  simp only [lateResultAllowed, Bool.and_eq_true, decide_eq_true_eq] at h
  exact hgood.valid.queueState_eq (by rw [h.1.2]; rfl)

theorem commitRetainedQueueResult_updates {s : Submission}
    (h : L.commitRetainedQueueResult env dispatchId s now = .ok L') :
    Updates env c dispatchId L L' := by
  refine .of_onDispatch h fun r r' _ hbody hgood _ => ?_
  simp only [commitRetained, checks_ok] at hbody
  obtain ⟨p, -, -, hlate, -, submitted, hsubmit, hcommit⟩ := hbody
  have hstate := lateResultAllowed_state hgood hlate
  obtain ⟨cap, howned, ⟨hterminal, -, -⟩ | ⟨-, hconsumed, -, -⟩ | ⟨-, -, -, rfl⟩⟩ :=
    submit_cases hsubmit
  · exact absurd (hstate ▸ hterminal : QueueState.isTerminal .humanAttentionRequired) (by decide)
  · obtain ⟨cap₀, hcap₀, rfl⟩ := Option.map_eq_some_iff.1 (capabilityAt_eq_some howned.capability).1
    have hconsumed₀ : cap₀.consumedAt.isSome := by
      split_ifs at hconsumed
      · exact hconsumed
      · exact hconsumed
    have hafter := ((hgood.valid.capability cap₀ hcap₀).2.2.2.2.2.2.2 hconsumed₀).1
    rw [hstate] at hafter
    exact absurd hafter (by decide)
  · have hnon : r.queue.state.isNonterminal := by
      rw [hstate]
      rfl
    obtain ⟨hsettled, hstep⟩ := commitSubmitted_refines (c := c)
      (r := r.renewCapability s.generation s.attempt (now + seconds 30)) hnon hcommit
    exact ⟨hsettled, hstep⟩

theorem ingestRecoveredResult_updates {raw : String}
    (h : L.ingestRecoveredResult env dispatchId raw now = .ok L') :
    Updates env c dispatchId L L' := by
  refine .of_onDispatch h fun r r' _ hbody hgood _ => ?_
  simp only [DispatchRows.ingest, checks_ok] at hbody
  obtain ⟨p, -, -, hbody⟩ := hbody
  split at hbody
  · simp only [checks_ok] at hbody
    obtain ⟨i, rfl⟩ := bindIntegrity_eq hbody.2
    exact .stay hgood.settled rfl rfl
  · simp only [checks_ok] at hbody
    obtain ⟨hstate, bound, hbound, hfinal⟩ := hbody
    obtain ⟨i, rfl⟩ := bindIntegrity_eq hbound
    exact finalize_accepted_refines (p := p) (by rw [hstate]; rfl) rfl rfl rfl hfinal

theorem finalizeQueueResult_updates {request : FinalizeRequest}
    (h : L.finalizeQueueResult dispatchId request now = .ok L') : Updates env c dispatchId L L' := by
  refine .of_onDispatch h fun r r' _ hbody hgood _ => ?_
  obtain ⟨-, rfl⟩ | ⟨hstate, -⟩ := finalize_eq hbody
  · exact .refl hgood.settled
  · exact absurd hstate hgood.ne_submitted.1

theorem captureDispatchTerminalIntegrity_updates {completed allowInsert : Bool}
    {capture : Option TerminalCapture}
    (h : L.captureDispatchTerminalIntegrity dispatchId completed capture allowInsert now = .ok L') :
    Updates env c dispatchId L L' := by
  refine .of_onDispatch h fun r r' _ hbody hgood _ => ?_
  have hframe : ∃ i, r' = { r with integrity := i } := by
    unfold captureIntegrity at hbody
    split at hbody
    · simp only [steps_ok] at hbody
      exact ⟨r.integrity, hbody.2.symm⟩
    split at hbody
    · cases hbody
    · simp only [checks_ok] at hbody
      obtain ⟨-, hbody⟩ := hbody
      split at hbody
      · simp only [steps_ok] at hbody
        exact ⟨r.integrity, hbody.2.symm⟩
      · simp only [steps_ok] at hbody
        exact ⟨_, hbody.2.2.2.symm⟩
  obtain ⟨i, rfl⟩ := hframe
  exact .stay hgood.settled rfl rfl

end CodexFlow.Ledger
