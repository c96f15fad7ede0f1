import CodexFlow.Ledger.Paid

/-!
# Replayed commits

A worker that lost the acknowledgement commits its result again. The replay is accepted and keeps
every row but one: it settles the retry policy once more, under a new revision.
-/

namespace CodexFlow.Ledger

open Checked DispatchRows

variable {env : Env} {L L' : Ledger} {keys : List DispatchId} {dispatchId : DispatchId}
  {r r' : DispatchRows} {s : Submission} {p : ParsedResult} {now : Time}

structure DispatchRows.Committed (env : Env) (s : Submission) (p : ParsedResult)
    (r : DispatchRows) : Prop where
  parsed : r.parseResult env s.rawResult = .ok p
  owned : ∃ cap, SubmitOwned env s r cap
  terminal : r.queue.state.isTerminal
  digest : r.rawSha256 = some p.digest
  bound : r.bindIntegrity p.digest = .ok r

theorem submit_of_committed (h : r.Committed env s p) : r.submit env s p now = .ok r := by
  obtain ⟨cap, howned⟩ := h.owned
  simp only [DispatchRows.submit, requireWorkerIdentity, howned.capability, checks_ok]
  refine ⟨howned.identity, howned.binding, howned.token, ?_, howned.notCancelled, ?_⟩
  · rw [howned.notPending]
    rfl
  · rw [if_pos h.terminal]
    simp [ensure, h.digest]

theorem mem_of_isTerminal {s : QueueState} (h : s.isTerminal) :
    s ∈ [.completed, .failed, .cancelled] := by
  cases s <;> revert h <;> decide

theorem commit_of_committed (h : r.Committed env s p) (hraw : withinRawBound s.rawResult) :
    r.commit env s now = .ok { r with policy := r.policy.settle none now } := by
  simp only [DispatchRows.commit, commitSubmitted, checks_ok]
  refine ⟨p, h.parsed, hraw, r, submit_of_committed h, r, h.bound, ?_⟩
  unfold finalize
  exact if_pos (mem_of_isTerminal h.terminal)

/-! ### The first commit -/

theorem setIntegrity_self {i : Option TerminalIntegrity} (h : r.integrity = i) :
    { r with integrity := i } = r := by
  subst h
  rfl

theorem bindIntegrity_again {digest : String} (h : r.bindIntegrity digest = .ok r')
    (r₂ : DispatchRows) (hi : r₂.integrity = r'.integrity)
    (hrepair : r₂.isControlRepair = r.isControlRepair) (hraw : r₂.rawSha256 = some digest) :
    r₂.bindIntegrity digest = .ok r₂ := by
  unfold bindIntegrity at h ⊢
  rw [hrepair]
  split_ifs at h ⊢
  · simp only [steps_ok] at h ⊢
    rw [hi, ← h.2]
    exact ⟨h.1, trivial⟩
  · split at h
    · cases h
    · simp only [steps_ok] at h
      obtain ⟨-, -, rfl⟩ := h
      rw [hi]
      simp only [steps_ok]
      exact ⟨hraw, by simp, setIntegrity_self hi⟩

/-- A submission keeps what a replay of it reads, and leaves its digest. -/
theorem submit_kept (hvalid : r.Valid env keys dispatchId) (h : r.submit env s p now = .ok r') :
    (∃ cap, SubmitOwned env s r' cap) ∧ r'.rawSha256 = some p.digest ∧
      r'.queue.resultContractSha256 = r.queue.resultContractSha256 := by
  obtain ⟨cap, howned, ⟨-, hdigest, rfl⟩ | ⟨-, hconsumed, haccepted, rfl⟩ | ⟨-, -, -, rfl⟩⟩ :=
    submit_cases h
  · exact ⟨⟨cap, howned⟩, hdigest, rfl⟩
  · have hcap := (capabilityAt_eq_some howned.capability).1
    have hraw := ((hvalid.capability cap hcap).2.2.2.2.2.2.2 hconsumed).2
    exact ⟨⟨cap, howned⟩, hraw.trans haccepted, rfl⟩
  · obtain ⟨hcap, hkey⟩ := capabilityAt_eq_some howned.capability
    refine ⟨⟨{ cap with consumedAt := some now, acceptedResultSha256 := some p.digest },
      ⟨howned.identity, ?_, howned.binding, howned.token, howned.notPending, QueueState.noConfusion⟩⟩,
      rfl, rfl⟩
    simp [capabilityAt, acceptResult, hcap, hkey]

theorem commit_committed (hvalid : r.Valid env keys dispatchId)
    (h : r.commit env s now = .ok r') :
    ∃ p, r'.Committed env s p ∧ withinRawBound s.rawResult := by
  simp only [DispatchRows.commit, commitSubmitted, checks_ok] at h
  obtain ⟨p, hparse, hraw, submitted, hsubmit, bound, hbound, hfinal⟩ := h
  obtain ⟨⟨cap, howned⟩, hdigest, hcontract⟩ := submit_kept hvalid hsubmit
  have hparsed : submitted.parseResult env s.rawResult = .ok p := by
    rw [← hparse]
    unfold parseResult
    rw [hcontract]
  have hagain := bindIntegrity_again hbound
  obtain ⟨i, rfl⟩ := bindIntegrity_eq hbound
  refine ⟨p, ?_, hraw⟩
  obtain ⟨hended, rfl⟩ | ⟨-, terminal, hterminal, decisions, wakes, rfl⟩ := finalize_eq hfinal
  · have hterminal : submitted.queue.state.isTerminal := by
      have hcancelled := howned.notCancelled
      have hended' : submitted.queue.state ∈ [.completed, .failed, .cancelled] := hended
      generalize submitted.queue.state = state at *
      cases state <;> revert hcancelled hended' <;> decide
    exact ⟨hparsed, ⟨cap, howned.identity, howned.capability, howned.binding, howned.token,
      howned.notPending, howned.notCancelled⟩, hterminal, hdigest, hagain _ rfl rfl hdigest⟩
  · refine ⟨hparsed, ⟨cap, howned.identity, howned.capability, howned.binding, howned.token,
      howned.notPending, ?_⟩, hterminal, hdigest, hagain _ rfl rfl hdigest⟩
    show terminal ≠ .cancelled
    rintro rfl
    exact absurd hterminal (by decide)

/-! ### The replay -/

theorem settle_valid (h : r.Valid env keys dispatchId) (nextEligibleAt : Option Time) :
    DispatchRows.Valid env keys dispatchId
      { r with policy := r.policy.settle nextEligibleAt now } where
  integrity := h.integrity
  result := h.result
  capability := h.capability
  queue := h.queue
  outbox := h.outbox
  liveness := h.liveness
  successors := h.successors
  wakes := h.wakes
  recovery := h.recovery
  policy := by
    obtain ⟨h1, h2, h3, h4, h5, h6, h7, -⟩ := h.policy
    exact ⟨h1, h2, h3, h4, h5, h6, h7, rfl⟩
  controls := h.controls
  decisions := h.decisions

/-- Whenever a commit was accepted, its replay is accepted too, returns the same queue row and leaves
every other row as it was, but writes a new revision of the retry policy: no replay leaves the tables
as they are. -/
theorem commit_replayed (env : Env) {L L' : Ledger} {d : DispatchId} {s : Submission} {now : Time}
    (h : L.perform env (.commit d s now) = .ok L') (later : Time) :
    ∃ r, L'.dispatches.get? d = some r ∧ r.queue.state.isTerminal ∧
      L'.perform env (.commit d s later) = .ok { L' with
        dispatches := L'.dispatches.set d { r with policy := r.policy.settle none later } } ∧
      (r.policy.settle none later).revision = r.policy.revision + 1 ∧
      L'.next env (.commit d s later) ≠ L' := by
  obtain ⟨hvalid, hbody, hvalid'⟩ := perform_ok.1 h
  obtain ⟨r₀, r, hr₀, hcommit, rfl⟩ := onDispatch_ok.1 hbody
  have hr : ({ L with dispatches := L.dispatches.set d r } : Ledger).dispatches.get? d = some r :=
    Table.get?_set_self hr₀ r
  obtain ⟨p, hcommitted, hraw⟩ :=
    commit_committed (hvalid.rows hr₀) hcommit
  generalize ({ L with dispatches := L.dispatches.set d r } : Ledger) = L' at hvalid' hr ⊢
  have hagain : L'.perform env (.commit d s later) = .ok { L' with
      dispatches := L'.dispatches.set d { r with policy := r.policy.settle none later } } := by
    refine perform_ok.2 ⟨hvalid', onDispatch_ok.2 ⟨r, _, hr, commit_of_committed hcommitted hraw, rfl⟩,
      valid_set hvalid' ?_⟩
    exact settle_valid (hvalid'.rows hr) none
  refine ⟨r, hr, hcommitted.terminal, hagain, rfl, fun hsame => ?_⟩
  -- the policy revision tells the two ledgers apart
  unfold next at hsame
  rw [hagain] at hsame
  have hget := Table.get?_set_self hr { r with policy := r.policy.settle none later }
  rw [show L'.dispatches.set d { r with policy := r.policy.settle none later } = L'.dispatches from
    congrArg Ledger.dispatches hsame, hr] at hget
  have hrevision : r.policy.revision = r.policy.revision + 1 :=
    congrArg (fun r => r.policy.revision) (Option.some.inj hget)
  omega

def revisionOf (L : Ledger) (d : DispatchId) : Option ℕ :=
  (L.dispatches.get? d).map (·.policy.revision)

theorem committed_revisionOf :
    revisionOf (Machine.run (next .sample) {} running) sampleId = some 0 ∧
      revisionOf (Machine.run (next .sample) {} committed) sampleId = some 1 ∧
      revisionOf (Machine.run (next .sample) {}
        (committed ++ [.commit sampleId ⟨1, 1, "token", reviewText⟩ 7])) sampleId = some 2 := by
  decide +kernel

theorem committed_accepted :
    (Machine.run (next .sample) {} running).perform .sample
      (.commit sampleId ⟨1, 1, "token", reviewText⟩ 6) =
        .ok (Machine.run (next .sample) {} committed) := by
  obtain ⟨hbefore, hafter, -⟩ := committed_revisionOf
  rw [committed, Machine.run_concat] at hafter ⊢
  refine perform_of_next_ne fun hsame => ?_
  rw [hsame, hbefore] at hafter
  exact absurd hafter (by decide)

/-- The reviewer's commit is replayed later. -/
theorem committed_replayed :
    ∃ r, (Machine.run (next .sample) {} committed).dispatches.get? sampleId = some r ∧
      r.queue.state.isTerminal ∧
      (Machine.run (next .sample) {} committed).next .sample
        (.commit sampleId ⟨1, 1, "token", reviewText⟩ (seconds 1)) ≠
          Machine.run (next .sample) {} committed := by
  obtain ⟨r, hr, hterminal, -, -, hne⟩ := commit_replayed .sample committed_accepted (seconds 1)
  exact ⟨r, hr, hterminal, hne⟩

/-- The second commit of the same bytes changes the policy revision. -/
theorem commit_not_idempotent :
    ¬∀ (env : Env) (L L' : Ledger) (d : DispatchId) (s : Submission) (now later : Time),
      L.perform env (.commit d s now) = .ok L' → L'.next env (.commit d s later) = L' := by
  intro h
  obtain ⟨-, hfirst, hsecond⟩ := committed_revisionOf
  have hsame := h .sample _ _ sampleId _ 6 7 committed_accepted
  rw [Machine.run_concat, hsame, hfirst] at hsecond
  exact absurd hsecond (by decide)

end CodexFlow.Ledger
