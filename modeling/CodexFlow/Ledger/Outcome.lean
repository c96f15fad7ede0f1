import CodexFlow.Ledger.Fencing

/-!
# One outcome per dispatch

A result digest that was recorded stays, an ended dispatch stays ended, and another result is
refused; a cancelled dispatch has no result, and stays cancelled while no decision revives it.
-/

namespace CodexFlow.Ledger

open Checked DispatchRows

variable {env : Env} {L L' : Ledger} {keys : List DispatchId} {dispatchId : DispatchId}
  {r r' : DispatchRows} {op : Op} {raw digest : String} {now : Time}

def Op.brings (dispatchId : DispatchId) (raw : String) : Op → Prop
  | .submit d s _ => d = dispatchId ∧ s.rawResult = raw
  | .commit d s _ => d = dispatchId ∧ s.rawResult = raw
  | .commitRetained d s _ => d = dispatchId ∧ s.rawResult = raw
  | .ingest d text _ => d = dispatchId ∧ text = raw
  | _ => False

theorem parseResult_digest {p : ParsedResult} (h : r.parseResult env raw = .ok p) :
    p.digest = env.sha256 raw := by
  simp only [parseResult, bind_eq_ok, pure_eq_ok] at h
  obtain ⟨status, -, rfl⟩ := h
  rfl

namespace DispatchRows.Good

variable (h : r.Good env keys dispatchId)
include h

theorem isTerminal_of_result (hd : r.rawSha256 = some digest) : r.queue.state.isTerminal := by
  have hrecorded : r.rawSha256.isSome = r.queue.state.isTerminal := h.recorded
  rw [← hrecorded, hd]
  rfl

theorem not_cancelled_of_result : ¬(r.queue.state = .cancelled ∧ r.rawSha256.isSome) := by
  rintro ⟨hcancelled, hresult⟩
  obtain ⟨digest, hd⟩ := Option.isSome_iff_exists.1 hresult
  have hterminal := h.isTerminal_of_result hd
  rw [hcancelled] at hterminal
  exact absurd hterminal (by decide)

end DispatchRows.Good

theorem submit_digest {s : Submission} {p : ParsedResult} (hterminal : r.queue.state.isTerminal)
    (h : r.submit env s p now = .ok r') : r.rawSha256 = some p.digest := by
  obtain ⟨cap, -, ⟨-, hdigest, -⟩ | ⟨hnot, -⟩ | ⟨hnot, -⟩⟩ := submit_cases h
  · exact hdigest
  · exact absurd hterminal hnot
  · exact absurd hterminal hnot

theorem brings_accepted (hL : L.Good env) (hr : L.dispatches.get? dispatchId = some r)
    (hd : r.rawSha256 = some digest) (hop : op.brings dispatchId raw)
    (h : L.body env op = .ok L') : env.sha256 raw = digest := by
  have hterminal := (hL.rows dispatchId r hr).isTerminal_of_result hd
  have hsame : ∀ {r₀}, L.dispatches.get? dispatchId = some r₀ → r₀ = r :=
    fun h₀ => Option.some.inj (h₀.symm.trans hr)
  cases op with
  | submit d s now =>
    obtain ⟨rfl, rfl⟩ := hop
    obtain ⟨r₀, r', hr₀, hbody, -⟩ := onDispatch_ok.1 h
    obtain rfl := hsame hr₀
    simp only [bind_eq_ok] at hbody
    obtain ⟨p, hp, hsubmit⟩ := hbody
    rw [← parseResult_digest hp]
    exact Option.some.inj ((submit_digest hterminal hsubmit).symm.trans hd)
  | commit d s now =>
    obtain ⟨rfl, rfl⟩ := hop
    obtain ⟨r₀, r', hr₀, hbody, -⟩ := onDispatch_ok.1 h
    obtain rfl := hsame hr₀
    simp only [DispatchRows.commit, checks_ok] at hbody
    obtain ⟨p, hp, -, submitted, hsubmit, -⟩ := hbody
    rw [← parseResult_digest hp]
    exact Option.some.inj ((submit_digest hterminal hsubmit).symm.trans hd)
  | commitRetained d s now =>
    obtain ⟨rfl, rfl⟩ := hop
    obtain ⟨r₀, r', hr₀, hbody, -⟩ := onDispatch_ok.1 h
    obtain rfl := hsame hr₀
    simp only [commitRetained, checks_ok] at hbody
    obtain ⟨p, -, -, hlate, -⟩ := hbody
    rw [lateResultAllowed_state (hL.rows d r₀ hr) hlate] at hterminal
    exact absurd hterminal (by decide)
  | ingest d text now =>
    obtain ⟨rfl, rfl⟩ := hop
    obtain ⟨r₀, r', hr₀, hbody, -⟩ := onDispatch_ok.1 h
    obtain rfl := hsame hr₀
    simp only [DispatchRows.ingest, checks_ok] at hbody
    obtain ⟨p, hp, -, hbody⟩ := hbody
    rw [if_pos hterminal] at hbody
    simp only [checks_ok] at hbody
    rw [← parseResult_digest hp]
    exact Option.some.inj (hbody.1.symm.trans hd)
  | _ => exact absurd hop id

/-- In a ledger whose dispatch has a result, another result is refused. -/
def RefusesOther (env : Env) (L : Ledger) (dispatchId : DispatchId) (digest : String) : Prop :=
  ∀ op raw, op.brings dispatchId raw → env.sha256 raw ≠ digest → ∀ L', L.perform env op ≠ .ok L'

theorem refusesOther_of_result (hL : L.Good env) (hr : L.dispatches.get? dispatchId = some r)
    (hd : r.rawSha256 = some digest) : RefusesOther env L dispatchId digest := by
  intro op raw hop hne L' h
  exact hne (brings_accepted hL hr hd hop (perform_ok.1 h).2.1)

/-! ### Runs -/

theorem next_outcome (hL : L.Good env) (op : Op) (hr : L.dispatches.get? dispatchId = some r) :
    ∃ r', (L.next env op).dispatches.get? dispatchId = some r' ∧
      (∀ digest, r.rawSha256 = some digest → r'.rawSha256 = some digest) ∧
      (r.queue.state.isTerminal → r'.queue.state = r.queue.state) := by
  obtain ⟨r', hr', hstep, -⟩ := next_step hL op hr
  exact ⟨r', hr', fun digest hd => hstep.result (hL.rows dispatchId r hr).recorded hd,
    fun hterminal => (hstep.terminal hterminal).1⟩

theorem run_outcome (hL : L.Good env) (hr : L.dispatches.get? dispatchId = some r)
    (ops : List Op) :
    ∃ r', (Machine.run (next env) L ops).dispatches.get? dispatchId = some r' ∧
      (∀ digest, r.rawSha256 = some digest → r'.rawSha256 = some digest) ∧
      (r.queue.state.isTerminal → r'.queue.state = r.queue.state) := by
  induction ops generalizing L r with
  | nil => exact ⟨r, hr, fun _ hd => hd, fun _ => rfl⟩
  | cons op ops ih =>
    obtain ⟨r₁, hr₁, hresult₁, hstate₁⟩ := next_outcome hL op hr
    obtain ⟨r₂, hr₂, hresult₂, hstate₂⟩ := ih (next_good hL op) hr₁
    refine ⟨r₂, hr₂, fun digest hd => hresult₂ digest (hresult₁ digest hd), fun hterminal => ?_⟩
    have hsame := hstate₁ hterminal
    rw [hstate₂ (hsame ▸ hterminal), hsame]

/-- Once recorded, a result is kept and no other one is let in; no dispatch is both cancelled and
the holder of a result; a completed or failed dispatch stays so, and a cancelled one stays so as
long as no retry decision revives it. -/
theorem one_outcome (env : Env) (before after : List Op) {d : DispatchId} {r : DispatchRows}
    (hr : (Machine.run (next env) {} before).dispatches.get? d = some r) :
    ∃ r', (Machine.run (next env) {} (before ++ after)).dispatches.get? d = some r' ∧
      (∀ digest, r.rawSha256 = some digest → r'.rawSha256 = some digest ∧
        RefusesOther env (Machine.run (next env) {} (before ++ after)) d digest) ∧
      ¬(r'.queue.state = .cancelled ∧ r'.rawSha256.isSome) ∧
      (r.queue.state ∈ [.completed, .failed] → r'.queue.state = r.queue.state) ∧
      (r.queue.state = .cancelled →
        Machine.Along (next env) (fun L op => ¬Revives env L d op)
          (Machine.run (next env) {} before) after →
        r'.queue.state = .cancelled) := by
  have hafter := run_good env (before ++ after)
  rw [Machine.run_append] at hafter ⊢
  obtain ⟨r', hr', hresult, hstate⟩ := run_outcome (run_good env before) hr after
  refine ⟨r', hr', fun digest hd => ?_, (hafter.rows d r' hr').not_cancelled_of_result, fun hended => ?_,
    fun hcancelled hops => ?_⟩
  · have hkept := hresult digest hd
    exact ⟨hkept, refusesOther_of_result hafter hr' hkept⟩
  · refine hstate ?_
    generalize r.queue.state = state at hended
    cases state <;> revert hended <;> decide
  · obtain ⟨r'', hr'', hstate''⟩ := run_cancelled (run_good env before) hr hcancelled hops
    rw [Option.some.inj (hr'.symm.trans hr''), hstate'']

/-- A worker runs the dispatch. -/
def running : List Op :=
  enqueued ++ started 1 ++ [.bindThread sampleId 1 1 1 "token" "thread-1" 5]

def committed : List Op := running ++ [.commit sampleId ⟨1, 1, "token", reviewText⟩ 6]

def resultOf (L : Ledger) (d : DispatchId) : Option String :=
  (L.dispatches.get? d).bind (·.rawSha256)

theorem committed_resultOf :
    resultOf (Machine.run (next .sample) {} committed) sampleId = some reviewSha256 := by
  decide +kernel

/-- The committed result survives a cancellation, and a later result with other bytes is refused. -/
theorem committed_outcome :
    ∃ r', (Machine.run (next .sample) {} (committed ++ [.cancel sampleId none 7])).dispatches.get?
        sampleId = some r' ∧ r'.rawSha256 = some reviewSha256 ∧
      RefusesOther .sample (Machine.run (next .sample) {} (committed ++ [.cancel sampleId none 7]))
        sampleId reviewSha256 := by
  obtain ⟨r, hr, hd⟩ := Option.bind_eq_some_iff.1 committed_resultOf
  obtain ⟨r', hr', hresult, -⟩ := one_outcome .sample committed [.cancel sampleId none 7] hr
  exact ⟨r', hr', hresult _ hd⟩

/-- A cancelled dispatch leaves its state when a retry decision names it. -/
theorem cancelled_not_final :
    ¬∀ (env : Env) (before after : List Op) (d : DispatchId) (r r' : DispatchRows),
      (Machine.run (next env) {} before).dispatches.get? d = some r →
      (Machine.run (next env) {} (before ++ after)).dispatches.get? d = some r' →
      r.queue.state ∈ [.completed, .failed, .cancelled] → r'.queue.state = r.queue.state := by
  intro h
  obtain ⟨r, hr, hstate⟩ := Option.map_eq_some_iff.1 cancelled_stateOf
  obtain ⟨r', hr', hstate'⟩ := Option.map_eq_some_iff.1 revived_stateOf.1
  have hsame := h .sample cancelled revived sampleId r r' hr hr' (by rw [hstate]; decide)
  rw [hstate, hstate'] at hsame
  exact absurd hsame (by decide)

end CodexFlow.Ledger
