import CodexFlow.Ledger.Authority

/-!
# Epochs of the harness

Every acquisition opens a new epoch and no call goes back to an earlier one, so that a call that
names an epoch of the past finds neither the authority nor a claim and changes nothing.
-/

namespace CodexFlow.Ledger

open Checked

variable {env : Env} {L L' : Ledger} {op : Op} {now : Time}

/-! ### What a call makes of the authority -/

/-- The epoch of the authority, before the first acquisition 0. -/
def epoch (L : Ledger) : ℕ := (L.harness.map (·.epoch)).getD 0

inductive HarnessMoves (h : Option HarnessAuthority) : Op → Option HarnessAuthority → Prop
  | keeps (op : Op) : HarnessMoves h op h
  | acquires (ownerNonceSha256 : String) (lease : ℕ) (now : Time)
      (hfree : ∀ held ∈ h, held.requestedShutdown ∨ held.expiresAt ≤ now ∨
        held.ownerNonceSha256 = ownerNonceSha256) :
    HarnessMoves h (.acquireHarness ownerNonceSha256 lease now)
      (some ⟨(h.map (·.epoch)).getD 0 + 1, ownerNonceSha256, now + lease, false⟩)
  | renews (epoch : ℕ) (ownerNonceSha256 : String) (lease : ℕ) (now : Time) :
    HarnessMoves h (.renewHarness epoch ownerNonceSha256 lease now)
      (h.map fun held => { held with expiresAt := now + lease })
  | fences (op : Op) : HarnessMoves h op (h.map fun held => { held with requestedShutdown := true })

theorem withHarness_eq {f : HarnessAuthority → HarnessAuthority} {epoch : ℕ} {nonce : String}
    (h : L.withHarness epoch nonce f = .ok L') : L' = { L with harness := L.harness.map f } := by
  simp only [withHarness, steps_ok] at h
  exact h.2.symm

theorem ensureProgramDecision_harness {event : ProgramEvent} {f : ProgramFacts}
    {deadline : Option Time} (h : L.ensureProgramDecision event f deadline now = .ok L') :
    L'.harness = L.harness := by
  simp only [ensureProgramDecision, checks_ok] at h
  obtain ⟨-, -, -, h⟩ := h
  split at h
  · exact pure_eq_ok.1 h ▸ rfl
  · simp only [steps_ok] at h
    exact h.2 ▸ rfl

theorem openCoalesced_harness {facts : String → ProgramFacts} {programs : List String}
    (h : openCoalesced facts now programs L = .ok L') : L'.harness = L.harness := by
  induction programs generalizing L with
  | nil => exact pure_eq_ok.1 h ▸ rfl
  | cons programId programs ih =>
    simp only [openCoalesced, bind_eq_ok] at h
    obtain ⟨L₁, hfirst, hrest⟩ := h
    exact (ih hrest).trans (ensureProgramDecision_harness hfirst)

theorem body_harness (h : L.body env op = .ok L') : HarnessMoves L.harness op L'.harness := by
  have hkeeps : L'.harness = L.harness → HarnessMoves L.harness op L'.harness := by
    intro hsame
    rw [hsame]
    exact .keeps op
  cases op with
  | acquireHarness nonce lease now =>
    simp only [body, acquireHarness, steps_ok] at h
    obtain ⟨-, -, hfree, rfl⟩ := h
    refine .acquires nonce lease now fun held hheld => ?_
    rw [Option.mem_def.1 hheld] at hfree
    simpa [or_assoc] using hfree
  | renewHarness epoch nonce lease now =>
    simp only [body, renewHarness, checks_ok] at h
    exact withHarness_eq h.2 ▸ .renews epoch nonce lease now
  | requestHarnessShutdown epoch nonce => exact withHarness_eq h ▸ .fences _
  | armRefreshFence starts now =>
    simp only [body, armHarnessRefreshFence, bind_eq_ok, pure_eq_ok] at h
    obtain ⟨-, -, -, -, rfl⟩ := h
    exact .fences _
  | programDecision event capable call now =>
    simp only [body, onProgramDecision, bind_eq_ok] at h
    obtain ⟨-, -, h⟩ := h
    split at h
    · cases h
    simp only [bind_eq_ok, pure_eq_ok] at h
    obtain ⟨-, -, -, -, rfl⟩ := h
    exact .keeps _
  | programEvent event f deadline now =>
    simp only [body, recordProgramEvent, bind_eq_ok] at h
    obtain ⟨-, -, h⟩ := h
    refine hkeeps ((ensureProgramDecision_harness h).trans ?_)
    split_ifs <;> rfl
  | reconcileStaleDecisions facts isOpen now =>
    simp only [body, reconcileStaleDecisions, bind_eq_ok] at h
    obtain ⟨-, -, h⟩ := h
    have hsame := openCoalesced_harness h
    exact hkeeps hsame
  | claimProgramDecision event q f minted now =>
    simp only [body, claimProgramDecision, checks_ok] at h
    obtain ⟨-, h⟩ := h
    split at h
    · cases h
    simp only [steps_ok] at h
    obtain ⟨-, -, -, -, -, -, -, -, -, -, rfl⟩ := h
    exact .keeps _
  | programActions event q f effects now =>
    simp only [body, submitProgramActions, bind_eq_ok] at h
    obtain ⟨-, -, -, -, h⟩ := h
    split at h
    · cases h
    simp only [bind_eq_ok] at h
    obtain ⟨-, -, -, -, h⟩ := h
    split at h
    · simp only [bind_eq_ok, pure_eq_ok] at h
      obtain ⟨-, -, -, -, rfl⟩ := h
      exact .keeps _
    simp only [bind_eq_ok] at h
    obtain ⟨-, -, -, -, h⟩ := h
    split at h
    · cases h
    simp only [bind_eq_ok, pure_eq_ok] at h
    obtain ⟨-, -, rfl⟩ := h
    exact .keeps _
  | programEffect event q f now =>
    simp only [body] at h
    unfold recordProgramEffect at h
    split at h
    · cases h
    simp only [checks_ok] at h
    obtain ⟨-, -, -, h⟩ := h
    split_ifs at h
    · have hsame := ensureProgramDecision_harness h
      exact hkeeps hsame
    · exact pure_eq_ok.1 h ▸ .keeps _
  | _ => exact hkeeps ((body_moves h).rest rfl).2

theorem next_harness (env : Env) (L : Ledger) (op : Op) :
    HarnessMoves L.harness op (L.next env op).harness := by
  obtain hsame | ⟨-, hbody, -⟩ := next_cases env L op
  · rw [hsame]
    exact .keeps op
  · exact body_harness hbody

/-! ### Epochs of a run -/

/-- No call goes back to an earlier epoch. -/
theorem next_epoch (env : Env) (L : Ledger) (op : Op) : L.epoch ≤ (L.next env op).epoch := by
  have hmoves := next_harness env L op
  unfold epoch
  generalize (L.next env op).harness = h' at hmoves
  cases hmoves with
  | keeps => exact le_rfl
  | acquires => exact Nat.le_succ _
  | renews => cases L.harness <;> exact le_rfl
  | fences => cases L.harness <;> exact le_rfl

theorem run_epoch (env : Env) (L : Ledger) (ops : List Op) :
    L.epoch ≤ (Machine.run (next env) L ops).epoch :=
  Machine.related (R := fun L L' : Ledger => L.epoch ≤ L'.epoch) (I := fun _ => True)
    (fun _ => le_rfl) (fun _ _ _ => le_trans) (fun _ _ _ => trivial)
    (fun L op _ => next_epoch env L op) trivial ops

def Op.epoch? : Op → Option ℕ
  | .claim epoch _ _ _ _ => some epoch
  | .claimCheckpoint epoch _ _ => some epoch
  | .setState _ _ epoch _ => epoch
  | .cancel _ epoch _ => epoch
  | .renewHarness epoch _ _ _ => some epoch
  | _ => none

theorem harnessLive_epoch {epoch : ℕ} (h : L.harnessLive epoch now) : L.epoch = epoch := by
  obtain ⟨held, hheld, hepoch⟩ := (Option.any_eq_true _ _).1 h
  unfold Ledger.epoch
  rw [Option.mem_def.1 hheld]
  exact of_decide_eq_true (Bool.and_eq_true_iff.1 hepoch).1

theorem cancel_epoch {dispatchId : DispatchId} {epoch : ℕ}
    (h : L.cancelQueueDispatch dispatchId (some epoch) now = .ok L') :
    L' = L ∨ L.epoch = epoch := by
  unfold cancelQueueDispatch onDispatch at h
  split at h
  · cases h
  rename_i r hr
  simp only [bind_eq_ok, pure_eq_ok] at h
  obtain ⟨r', hr', rfl⟩ := h
  unfold cancelQueueRow at hr'
  split_ifs at hr'
  · obtain rfl := pure_eq_ok.1 hr'
    rw [Table.set_self hr]
    exact .inl rfl
  · simp only [requireClaimEpoch, checks_ok] at hr'
    obtain ⟨-, ⟨-, hlive⟩, -⟩ := hr'
    exact .inr (harnessLive_epoch hlive)

/-- An accepted call names the epoch of the authority, or changes nothing. -/
theorem body_epoch {epoch : ℕ} (hop : op.epoch? = some epoch) (h : L.body env op = .ok L') :
    L' = L ∨ L.epoch = epoch := by
  cases op with
  | claim epoch' nonce program cancelled now =>
    obtain rfl := Option.some.inj hop
    simp only [body, claimQueueDispatch, checks_ok] at h
    exact .inr (harnessLive_epoch h.2.1)
  | claimCheckpoint epoch' current now =>
    obtain rfl := Option.some.inj hop
    obtain ⟨result, hresult, rfl⟩ := map_eq_ok.1 h
    simp only [claimDueCheckpoint, requireLiveHarness, checks_ok] at hresult
    exact .inr (harnessLive_epoch hresult.1)
  | setState dispatchId state epoch' now =>
    obtain rfl : epoch' = some epoch := hop
    simp only [body, setQueueState] at h
    split_ifs at h
    · exact cancel_epoch h
    · unfold onDispatch at h
      split at h
      · cases h
      simp only [steps_ok] at h
      obtain ⟨-, ⟨-, -, hlive, -⟩, -⟩ := h
      exact .inr (harnessLive_epoch (by simpa using hlive))
  | cancel dispatchId epoch' now =>
    obtain rfl : epoch' = some epoch := hop
    exact cancel_epoch h
  | renewHarness epoch' nonce lease now =>
    obtain rfl := Option.some.inj hop
    simp only [body, renewHarness, withHarness, checks_ok] at h
    obtain ⟨-, hheld, -⟩ := h
    obtain ⟨held, hsome, hepoch⟩ := (Option.any_eq_true _ _).1 hheld
    refine .inr ?_
    unfold Ledger.epoch
    rw [Option.mem_def.1 hsome]
    exact of_decide_eq_true (Bool.and_eq_true_iff.1 hepoch).1
  | _ => cases hop

/-- A call of another epoch changes nothing. -/
theorem next_of_stale {epoch : ℕ} (hop : op.epoch? = some epoch) (hstale : epoch ≠ L.epoch) :
    L.next env op = L := by
  obtain hsame | ⟨-, hbody, -⟩ := next_cases env L op
  · exact hsame
  · exact (body_epoch hop hbody).resolve_right hstale.symm

/-- An acquisition opens the next epoch, over a lease that another harness still has only when it is
fenced, and from then on no call that names an earlier epoch changes anything. -/
theorem single_harness_authority {nonce : String} {lease : ℕ}
    (h : L.perform env (.acquireHarness nonce lease now) = .ok L') :
    L'.epoch = L.epoch + 1 ∧
      (∀ held ∈ L.harness, held.ownerNonceSha256 ≠ nonce → now < held.expiresAt →
        held.requestedShutdown) ∧
      ∀ ops : List Op, L'.epoch ≤ (Machine.run (next env) L' ops).epoch ∧
        ∀ op epoch, op.epoch? = some epoch → epoch ≤ L.epoch →
          (Machine.run (next env) L' ops).next env op = Machine.run (next env) L' ops := by
  obtain ⟨-, hbody, -⟩ := perform_ok.1 h
  simp only [body, acquireHarness, bind_eq_ok, ensure_eq_ok, exists_const, pure_eq_ok] at hbody
  obtain ⟨-, -, hfree, rfl⟩ := hbody
  refine ⟨rfl, fun held hheld hother hlive => ?_, fun ops => ⟨run_epoch env _ ops, ?_⟩⟩
  · rw [Option.mem_def.1 hheld] at hfree
    simp only [Option.all_some, Bool.or_eq_true, decide_eq_true_eq] at hfree
    obtain (hfenced | hexpired) | hsame := hfree
    · exact hfenced
    · exact absurd hexpired (Nat.not_le.2 hlive)
    · exact absurd hsame hother
  · intro op epoch hop hpast
    have hlater := run_epoch env { L with harness := some ⟨L.epoch + 1, nonce, now + lease, false⟩ } ops
    refine next_of_stale hop (Nat.ne_of_lt ?_)
    exact (Nat.lt_succ_of_le hpast).trans_le hlater

/-- A second harness takes over after the lease, and the claim of the first comes too late. -/
theorem takeover_single :
    ∃ L', (Machine.run (next .sample) {} enqueued).perform .sample
        (.acquireHarness reviewSha256 (seconds 600) (seconds 600)) = .ok L' ∧ L'.epoch = 2 ∧
      L'.next .sample (.claim 1 nonceSha256 (fun _ => true) (fun _ => false) (seconds 601)) = L' := by
  have hrun : ((Machine.run (next .sample) {} enqueued).perform .sample
      (.acquireHarness reviewSha256 (seconds 600) (seconds 600))).toOption.any (·.epoch = 2) := by
    decide +kernel
  cases h : (Machine.run (next .sample) {} enqueued).perform .sample
      (.acquireHarness reviewSha256 (seconds 600) (seconds 600)) with
  | error e =>
    rw [h] at hrun
    cases hrun
  | ok L' =>
    rw [h] at hrun
    have hepoch : L'.epoch = 2 := of_decide_eq_true hrun
    obtain ⟨hnext, -, hstale⟩ := single_harness_authority h
    rw [hepoch] at hnext
    exact ⟨L', rfl, hepoch, (hstale []).2 _ 1 rfl (by omega)⟩

end CodexFlow.Ledger
