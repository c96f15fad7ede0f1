import CodexFlow.Executions.Steps

/-!
# Exclusive workspaces

Only a lease lets an execution past its plan, and a lease is given while no other execution works
in the workspace. So at most one execution works in a workspace at a time, the lease of the
workspace is the one that its capsule asks for, and a lease is never rewritten.
-/

namespace CodexFlow.Executions

open Checked

variable {host : Host} {leases : Table String WorkspaceLease} {key : ExecutionKey}
  {m m' : MilestoneRows} {e e' : Execution}

theorem Execution.holdsWorkspace_iff :
    e.holdsWorkspace ↔ ¬ e.status.isTerminal ∧ e.checkpoint ≠ .capsulePlanned := by
  simp [holdsWorkspace]

/-! ### One call -/

namespace MilestoneRows

/-- An execution whose rows show a route has a checkpoint past its plan. -/
def Advanced (m : MilestoneRows) : Prop :=
  ∀ e, m.execution = some e → e.status ≠ .planned ∨ m.appNative.isSome →
    e.checkpoint ≠ .capsulePlanned

theorem advanced_blank : Advanced {} := by
  intro e he
  cases he

/-- The call keeps the workspaces: an execution that works in one after the call worked in it
before, for the same capsule. -/
structure WorkspaceStep (m m' : MilestoneRows) : Prop where
  keeps : ∀ e', m'.execution = some e' → e'.holdsWorkspace →
    ∃ e, m.execution = some e ∧ e.holdsWorkspace ∧ e.workspacePath = e'.workspacePath ∧
      e.capsuleSha256 = e'.capsuleSha256
  advanced : m'.Advanced

theorem WorkspaceStep.of_same (advanced : m.Advanced) (same : m'.execution = m.execution)
    (app : m'.appNative = m.appNative) : m.WorkspaceStep m' where
  keeps := fun e' he' holds => ⟨e', same ▸ he', holds, rfl, rfl⟩
  advanced := by
    intro e he begun
    exact advanced e (same ▸ he) (app ▸ begun)

/-- A call that writes the execution past its plan. -/
theorem WorkspaceStep.of_write (he : m.execution = some e) (he' : m'.execution = some e')
    (path : e.workspacePath = e'.workspacePath) (sha : e.capsuleSha256 = e'.capsuleSha256)
    (holds : e'.holdsWorkspace → e.holdsWorkspace) (past : e'.checkpoint ≠ .capsulePlanned) :
    m.WorkspaceStep m' where
  keeps := by
    intro e'' he'' h
    obtain rfl : e' = e'' := Option.some.inj (he'.symm.trans he'')
    exact ⟨e, he, holds h, path, sha⟩
  advanced := by
    intro e'' he'' _
    obtain rfl : e' = e'' := Option.some.inj (he'.symm.trans he'')
    exact past

theorem holds_of_awaitsRoute (awaits : awaitsRoute e) : e.holdsWorkspace := by
  simp only [awaitsRoute, Bool.and_eq_true, decide_eq_true_eq] at awaits
  refine Execution.holdsWorkspace_iff.mpr ⟨by rw [awaits.1]; decide, fun planned => ?_⟩
  exact absurd awaits.2 (by rw [planned]; decide)

theorem holds_of_planned (planned : e.status = .planned) (past : e.checkpoint ≠ .capsulePlanned) :
    e.holdsWorkspace :=
  Execution.holdsWorkspace_iff.mpr ⟨by rw [planned]; decide, past⟩

theorem Advanced.of_started (advanced : m.Advanced) (he : m.execution = some e)
    (started : e.status = .threadStarted) : e.checkpoint ≠ .capsulePlanned :=
  advanced e he (.inl (by rw [started]; decide))

theorem Advanced.holds_of_started (advanced : m.Advanced) (he : m.execution = some e)
    (started : e.status = .threadStarted) : e.holdsWorkspace :=
  Execution.holdsWorkspace_iff.mpr
    ⟨by rw [started]; decide, advanced.of_started he started⟩

theorem started_of_hasThread (thread : hasThread e) : e.status = .threadStarted := by
  simp only [hasThread, Bool.and_eq_true, decide_eq_true_eq] at thread
  exact thread.1

theorem call_workspaceStep {c : Call} (advanced : m.Advanced)
    (h : m.call host leases key c = .ok m') : m.WorkspaceStep m' := by
  cases c with
  | recordNativeProfile p =>
    obtain ⟨e, he, awaits, ⟨rfl, -⟩ | ⟨-, rfl⟩⟩ := recordNativeProfile_ok h
    · exact .of_same advanced rfl rfl
    · exact .of_write he rfl rfl rfl (fun _ => holds_of_awaitsRoute awaits) nofun
  | rebindNativeProfileForResume profile compatibility candidate =>
    obtain ⟨e, i, effective, -, -, -, rfl⟩ := rebindNativeProfileForResume_ok h
    exact .of_same advanced rfl rfl
  | claimExecutor =>
    obtain ⟨rfl, -⟩ | ⟨-, -, rfl⟩ := claimExecutor_ok h
    · exact .of_same advanced rfl rfl
    · exact .of_same advanced rfl rfl
  | recordThreadStarting =>
    obtain ⟨e, he, planned, ⟨-, rfl⟩ | ⟨baseline, rfl⟩⟩ := recordThreadStarting_ok h
    · exact .of_same advanced rfl rfl
    · exact .of_write he rfl rfl rfl
        (fun _ => holds_of_planned planned (by rw [baseline]; decide)) nofun
  | recordPreIdentityUncertainty =>
    obtain ⟨e, he, start, rfl⟩ := recordPreIdentityUncertainty_ok h
    obtain ⟨planned, starting, -⟩ := atThreadStart_iff.mp start
    have past : e.checkpoint ≠ .capsulePlanned := by rw [starting]; decide
    exact .of_write he rfl rfl rfl (fun _ => holds_of_planned planned past) past
  | rejectThreadStartAuthorization =>
    obtain ⟨e, he, start, rfl⟩ := rejectThreadStartAuthorization_ok h
    obtain ⟨planned, starting, -⟩ := atThreadStart_iff.mp start
    exact .of_write he rfl rfl rfl
      (fun _ => holds_of_planned planned (by rw [starting]; decide)) nofun
  | recordThreadIdentity threadId =>
    obtain ⟨e, he, ⟨-, rfl⟩ | ⟨-, planned, starting, -, rfl⟩⟩ := recordThreadIdentity_ok h
    · exact .of_same advanced rfl rfl
    · exact .of_write he rfl rfl rfl
        (fun _ => holds_of_planned planned (by rw [starting]; decide)) nofun
  | recordGitAuthorityBefore authority =>
    obtain ⟨rfl, -⟩ := recordGitAuthorityBefore_ok h
    exact .of_same advanced rfl rfl
  | recordTurnStarting =>
    obtain ⟨e, he, thread, ⟨-, rfl⟩ | ⟨-, -, i, -, rfl⟩⟩ := recordTurnStarting_ok h
    · exact .of_same advanced rfl rfl
    · have started := started_of_hasThread thread
      have past := advanced.of_started he started
      exact .of_write he rfl rfl rfl (fun _ => advanced.holds_of_started he started) past
  | rejectTurnAuthorization =>
    obtain ⟨e, i, he, -, thread, -, -, -, rfl⟩ := rejectTurnAuthorization_ok h
    have started := started_of_hasThread thread
    have past := advanced.of_started he started
    exact .of_write he rfl rfl rfl (fun _ => advanced.holds_of_started he started) past
  | recordTurn o =>
    obtain ⟨e, i, he, -, thread, -, -, ⟨-, -, rfl⟩ | ⟨-, -, rfl⟩⟩ := recordTurn_ok h
    · exact .of_same advanced rfl rfl
    · exact .of_write he rfl rfl rfl
        (fun _ => advanced.holds_of_started he (started_of_hasThread thread)) nofun
  | recordTerminalExecution f =>
    obtain ⟨e, i, he, -, started, -, -, -, rfl⟩ := recordTerminalExecution_ok h
    exact .of_write he rfl rfl rfl (fun _ => advanced.holds_of_started he started) nofun
  | prepareAppNative p =>
    obtain ⟨e, he, -, -, ⟨rfl, -⟩ | ⟨-, awaits, -, -, rfl⟩⟩ := prepareAppNative_ok h
    · exact .of_same advanced rfl rfl
    · exact .of_write he rfl rfl rfl (fun _ => holds_of_awaitsRoute awaits) nofun
  | bindAppNative claimToken receipt =>
    obtain ⟨a, ha, -, ⟨rfl, -⟩ | ⟨-, -, e, he, planned, -, rfl⟩⟩ := bindAppNative_ok h
    · exact .of_same advanced rfl rfl
    · have past := advanced e he (.inr (by rw [ha]; rfl))
      exact .of_write he rfl rfl rfl (fun _ => holds_of_planned planned past) nofun
  | recordAppNativeResult claimToken identity f =>
    obtain ⟨a, e, -, he, -, -, ⟨rfl, -⟩ | ⟨-, -, started, -, rfl⟩⟩ := recordAppNativeResult_ok h
    · exact .of_same advanced rfl rfl
    · exact .of_write he rfl rfl rfl (fun _ => advanced.holds_of_started he started) nofun
  | cancelExecution queueRefuses =>
    obtain ⟨e, he, -, ⟨rfl, -⟩ | ⟨-, rfl⟩⟩ := cancelExecution_ok h
    · exact .of_same advanced rfl rfl
    · refine .of_write he rfl rfl rfl (fun holds => ?_) nofun
      exact absurd rfl (Execution.holdsWorkspace_iff.mp holds).1
  | transition target expected =>
    obtain ⟨-, -, -, rfl⟩ := transition_ok h
    exact .of_same advanced rfl rfl

theorem planExecution_workspaceStep {p : ExecutionPlan} (advanced : m.Advanced)
    (blank : m.execution = none → m.appNative = none) (h : m.planExecution p = .ok m') :
    m.WorkspaceStep m' := by
  obtain rfl | ⟨none_, rfl⟩ := planExecution_ok h
  · exact .of_same advanced rfl rfl
  · refine ⟨fun e' he' holds => ?_, fun e he begun => ?_⟩
    · obtain rfl : p.execution = e' := Option.some.inj he'
      exact absurd rfl (Execution.holdsWorkspace_iff.mp holds).2
    · obtain rfl : p.execution = e := Option.some.inj he
      obtain status | app := begun
      · exact absurd rfl status
      · rw [blank none_] at app
        cases app

end MilestoneRows

/-! ### The ledger -/

namespace ExecutionLedger

variable {L L' : ExecutionLedger} {c : ExecutionCapsule} {op : Op}

theorem execution?_eq_some :
    L.execution? key = some e ↔ ∃ m, L.milestones.get? key = some m ∧ m.execution = some e :=
  Option.bind_eq_some_iff

theorem execution?_put_self (hm : L.milestones.get? key = some m) :
    (L.put key m').execution? key = m'.execution := by
  simp only [execution?, put, Table.get?_set_self hm, Option.bind_some]

theorem execution?_put_ne {k : ExecutionKey} (hk : k ≠ key) :
    (L.put key m').execution? k = L.execution? k := by
  simp only [execution?, put, Table.get?_set_ne _ hk]

theorem laneOwner_mem {runId lane : String} {lease : WorkspaceLease}
    (h : L.laneOwner runId lane = some lease) : ∃ path, L.leases.get? path = some lease := by
  obtain ⟨entry, hfind, rfl⟩ := Option.map_eq_some_iff.mp h
  exact ⟨entry.1, Table.get?_eq_some.mpr (List.mem_of_find?_eq_some hfind)⟩

theorem occupied_of {k : ExecutionKey} (hk : k ≠ key) (he : L.execution? k = some e)
    (holds : e.holdsWorkspace) : L.occupied key e.workspacePath := by
  obtain ⟨m, hm, hexec⟩ := execution?_eq_some.mp he
  refine List.any_eq_true.mpr ⟨(k, m), Table.get?_eq_some.mp hm, ?_⟩
  simp [hk, hexec, holds]

/-- One execution in each workspace, under the lease that a capsule of its key asks for. `named`
relates the digest of an execution to its capsules. -/
structure Leased (named : Sha256 → ExecutionCapsule → Prop) (L : ExecutionLedger) : Prop where
  advanced : ∀ key m, L.milestones.get? key = some m → m.Advanced
  keyed : ∀ path lease, L.leases.get? path = some lease → lease.workspacePath = path
  held : ∀ key e, L.execution? key = some e → e.holdsWorkspace →
    ∃ c : ExecutionCapsule, c.key = key ∧ named e.capsuleSha256 c ∧
      L.leases.get? e.workspacePath = some c.lease
  exclusive : ∀ k₁ k₂ e₁ e₂, L.execution? k₁ = some e₁ → L.execution? k₂ = some e₂ →
    e₁.holdsWorkspace → e₂.holdsWorkspace → e₁.workspacePath = e₂.workspacePath → k₁ = k₂

variable {named : Sha256 → ExecutionCapsule → Prop}

theorem Leased.put (h : L.Leased named) (hm : L.milestones.get? key = some m)
    (step : m.WorkspaceStep m') : (L.put key m').Leased named := by
  have keeps : ∀ k e', (L.put key m').execution? k = some e' → e'.holdsWorkspace →
      ∃ e, L.execution? k = some e ∧ e.holdsWorkspace ∧ e.workspacePath = e'.workspacePath ∧
        e.capsuleSha256 = e'.capsuleSha256 := by
    intro k e' he' holds
    by_cases hk : k = key
    · subst hk
      rw [execution?_put_self hm] at he'
      obtain ⟨e, he, rest⟩ := step.keeps e' he' holds
      exact ⟨e, execution?_eq_some.mpr ⟨m, hm, he⟩, rest⟩
    · rw [execution?_put_ne hk] at he'
      exact ⟨e', he', holds, rfl, rfl⟩
  refine ⟨?_, h.keyed, fun k e' he' holds => ?_, ?_⟩
  · exact Table.forall_set (fun k m _ hk => h.advanced k m hk) step.advanced
  · obtain ⟨e, he, holds', path, sha⟩ := keeps k e' he' holds
    obtain ⟨c, hkey, hnamed, hlease⟩ := h.held k e he holds'
    exact ⟨c, hkey, sha ▸ hnamed, path ▸ hlease⟩
  · intro k₁ k₂ e₁ e₂ he₁ he₂ holds₁ holds₂ same
    obtain ⟨d₁, hd₁, old₁, path₁, -⟩ := keeps k₁ e₁ he₁ holds₁
    obtain ⟨d₂, hd₂, old₂, path₂, -⟩ := keeps k₂ e₂ he₂ holds₂
    exact h.exclusive k₁ k₂ d₁ d₂ hd₁ hd₂ old₁ old₂ (path₁.trans (same.trans path₂.symm))

theorem leasesFor_stands {leases : Table String WorkspaceLease} {path : String}
    {lease : WorkspaceLease} (h : L.leasesFor c = .ok leases)
    (hlease : L.leases.get? path = some lease) : leases.get? path = some lease := by
  unfold leasesFor at h
  dsimp only at h
  split at h
  · rename_i free
    have free := Option.or_eq_none_iff.mp (Option.orElse_eq_or.symm.trans free)
    obtain rfl := pure_eq_ok.mp h
    rwa [Table.get?_insert_ne]
    rintro rfl
    rw [free.2] at hlease
    cases hlease
  · simp only [steps_ok] at h
    obtain ⟨-, -, -, rfl⟩ := h
    exact hlease

/-- A lease is inserted for a free workspace, or is there with the facts of the capsule while no
other execution works in the workspace. -/
theorem leasesFor_ok {leases : Table String WorkspaceLease}
    (keyed : ∀ path lease, L.leases.get? path = some lease → lease.workspacePath = path)
    (h : L.leasesFor c = .ok leases) :
    (L.leases.get? c.workspacePath = none ∧ leases = L.leases.insert c.workspacePath c.lease) ∨
      (L.leases.get? c.workspacePath = some c.lease ∧ ¬ L.occupied c.key c.workspacePath ∧
        leases = L.leases) := by
  unfold leasesFor at h
  dsimp only at h
  split at h
  · rename_i free
    have free := Option.or_eq_none_iff.mp (Option.orElse_eq_or.symm.trans free)
    exact .inl ⟨free.2, (pure_eq_ok.mp h).symm⟩
  · rename_i candidate found
    simp only [steps_ok] at h
    obtain ⟨-, rfl, free, rfl⟩ := h
    refine .inr ⟨?_, free, rfl⟩
    cases lane : L.laneOwner c.runId c.lane with
    | none =>
      rw [lane] at found
      exact found
    | some owner =>
      rw [lane] at found
      obtain rfl : owner = c.lease := Option.some.inj found
      obtain ⟨path, hpath⟩ := laneOwner_mem lane
      obtain rfl : c.workspacePath = path := keyed path _ hpath
      exact hpath

theorem execution_leased (e : Execution) :
    e.leased.workspacePath = e.workspacePath ∧ e.leased.capsuleSha256 = e.capsuleSha256 ∧
      e.leased.status = e.status := by
  unfold Execution.leased
  split_ifs <;> exact ⟨rfl, rfl, rfl⟩

theorem leased_past (past : e.checkpoint ≠ .capsulePlanned) :
    e.leased.checkpoint ≠ .capsulePlanned := by
  unfold Execution.leased
  rwa [if_neg fun both => past both.2]

theorem acquireWorkspaceLease_ok (h : L.acquireWorkspaceLease c = .ok L') :
    ∃ m e leases, L.milestones.get? c.key = some m ∧ m.execution = some e ∧
      e.workspacePath = c.workspacePath ∧ L.leasesFor c = .ok leases ∧
      L' = { L with leases }.put c.key { m with execution := some e.leased } := by
  simp only [acquireWorkspaceLease, steps_ok, getMilestone_eq_ok,
    MilestoneRows.openExecution_eq_ok] at h
  obtain ⟨m, hm, e, ⟨he, -⟩, path, leases, hleases, rfl⟩ := h
  exact ⟨m, e, leases, hm, he, path, hleases, rfl⟩

def Asks (named : Sha256 → ExecutionCapsule → Prop) (L : ExecutionLedger) (op : Op) : Prop :=
  ∀ c, op = .acquireWorkspaceLease c → ∀ e, L.execution? c.key = some e → named e.capsuleSha256 c

theorem Leased.acquire (h : L.Leased named) (asks : Asks named L (.acquireWorkspaceLease c))
    (hop : L.acquireWorkspaceLease c = .ok L') : L'.Leased named := by
  obtain ⟨m, e, leases, hm, he, path, hleases, rfl⟩ := acquireWorkspaceLease_ok hop
  obtain ⟨samePath, sameSha, sameStatus⟩ := execution_leased e
  have hexec : L.execution? c.key = some e := execution?_eq_some.mpr ⟨m, hm, he⟩
  have cases_ := leasesFor_ok h.keyed hleases
  have lease : leases.get? c.workspacePath = some c.lease := by
    obtain ⟨none_, rfl⟩ | ⟨there, -, rfl⟩ := cases_
    · exact Table.get?_insert_self none_ _
    · exact there
  have alone : ∀ k e', k ≠ c.key → L.execution? k = some e' → e'.holdsWorkspace →
      e'.workspacePath ≠ c.workspacePath := by
    intro k e' hk he' holds samePath'
    obtain ⟨none_, -⟩ | ⟨-, free, -⟩ := cases_
    · obtain ⟨d, -, -, hd⟩ := h.held k e' he' holds
      rw [samePath', none_] at hd
      cases hd
    · exact free (samePath' ▸ occupied_of hk he' holds)
  have self : ({ L with leases }.put c.key { m with execution := some e.leased }).execution? c.key =
      some e.leased := execution?_put_self (L := { L with leases }) hm
  have other : ∀ k, k ≠ c.key →
      ({ L with leases }.put c.key { m with execution := some e.leased }).execution? k =
        L.execution? k := fun k hk => execution?_put_ne hk
  refine ⟨?_, ?_, ?_, ?_⟩
  · refine Table.forall_set (fun k m _ hk => h.advanced k m hk) ?_
    intro e' he' begun
    obtain rfl : e.leased = e' := Option.some.inj he'
    rw [sameStatus] at begun
    exact leased_past (h.advanced c.key m hm e he begun)
  · intro p old hold
    obtain ⟨none_, rfl⟩ | ⟨-, -, rfl⟩ := cases_
    · by_cases hp : p = c.workspacePath
      · subst hp
        obtain rfl : c.lease = old := Option.some.inj (lease.symm.trans hold)
        rfl
      · exact h.keyed p old ((Table.get?_insert_ne _ hp _).symm.trans hold)
    · exact h.keyed p old hold
  · intro k e' he' holds
    by_cases hk : k = c.key
    · subst hk
      obtain rfl : e.leased = e' := Option.some.inj (self.symm.trans he')
      refine ⟨c, rfl, sameSha ▸ asks c rfl e hexec, ?_⟩
      rw [samePath, path]
      exact lease
    · obtain ⟨d, hd, hnamed, hlease⟩ := h.held k e' (other k hk ▸ he') holds
      exact ⟨d, hd, hnamed, leasesFor_stands hleases hlease⟩
  · intro k₁ k₂ e₁ e₂ he₁ he₂ holds₁ holds₂ same
    by_cases hk₁ : k₁ = c.key
    · by_cases hk₂ : k₂ = c.key
      · exact hk₁.trans hk₂.symm
      · subst hk₁
        obtain rfl : e.leased = e₁ := Option.some.inj (self.symm.trans he₁)
        have := alone k₂ e₂ hk₂ (other k₂ hk₂ ▸ he₂) holds₂
        exact absurd (same.symm.trans (samePath.trans path)) this
    · by_cases hk₂ : k₂ = c.key
      · subst hk₂
        obtain rfl : e.leased = e₂ := Option.some.inj (self.symm.trans he₂)
        have := alone k₁ e₁ hk₁ (other k₁ hk₁ ▸ he₁) holds₁
        exact absurd (same.trans (samePath.trans path)) this
      · exact h.exclusive k₁ k₂ e₁ e₂ (other k₁ hk₁ ▸ he₁) (other k₂ hk₂ ▸ he₂) holds₁ holds₂ same

/-! ### Runs -/

theorem onRows_ok {call : MilestoneRows → Checked MilestoneRows} (h : L.onRows key call = .ok L') :
    ∃ m m', L.milestones.get? key = some m ∧ call m = .ok m' ∧ L' = L.put key m' := by
  simp only [onRows, bind_eq_ok, getMilestone_eq_ok, pure_eq_ok] at h
  obtain ⟨m, hm, m', hcall, rfl⟩ := h
  exact ⟨m, m', hm, hcall, rfl⟩

theorem perform_ok (h : L.perform host op = .ok L') :
    L.valid host ∧ L.body host op = .ok L' ∧ L'.valid host := by
  simp only [perform, steps_ok] at h
  obtain ⟨before, _, hbody, after_, rfl⟩ := h
  exact ⟨before, hbody, after_⟩

theorem next_cases (L : ExecutionLedger) (op : Op) :
    L.next host op = L ∨ L.perform host op = .ok (L.next host op) := by
  unfold next
  cases h : L.perform host op with
  | ok L' => exact .inr rfl
  | error error => exact .inl rfl

theorem blank_of_valid (h : L.valid host) (hm : L.milestones.get? key = some m)
    (none_ : m.execution = none) : m.integrity = none ∧ m.appNative = none := by
  have valid := List.all_eq_true.mp h (key, m) (Table.get?_eq_some.mp hm)
  simpa [MilestoneRows.valid, none_] using valid

theorem execution?_createMilestone (L : ExecutionLedger) (key k : ExecutionKey) :
    (L.createMilestone key).execution? k = L.execution? k := by
  unfold execution? createMilestone
  by_cases fresh : L.milestones.get? key = none
  · by_cases hk : k = key
    · subst hk
      rw [Table.get?_insert_self fresh, fresh]
      rfl
    · rw [Table.get?_insert_ne _ hk]
  · have there : key ∈ L.milestones.keys := not_not.mp (mt Table.get?_eq_none.mpr fresh)
    simp only [Table.insert, dif_pos there]

theorem get?_createMilestone {k : ExecutionKey}
    (hm : (L.createMilestone key).milestones.get? k = some m) :
    L.milestones.get? k = some m ∨ m = {} := by
  unfold createMilestone at hm
  by_cases fresh : L.milestones.get? key = none
  · by_cases hk : k = key
    · subst hk
      exact .inr (Option.some.inj ((Table.get?_insert_self fresh _).symm.trans hm)).symm
    · exact .inl ((Table.get?_insert_ne _ hk _).symm.trans hm)
  · have there : key ∈ L.milestones.keys := not_not.mp (mt Table.get?_eq_none.mpr fresh)
    simp only [Table.insert, dif_pos there] at hm
    exact .inl hm

theorem createMilestone_leased (h : L.Leased named) (key : ExecutionKey) :
    (L.createMilestone key).Leased named := by
  have same := execution?_createMilestone L key
  refine ⟨fun k m hm => ?_, h.keyed, fun k e he => ?_, fun k₁ k₂ e₁ e₂ he₁ he₂ => ?_⟩
  · obtain old | rfl := get?_createMilestone hm
    · exact h.advanced k m old
    · exact MilestoneRows.advanced_blank
  · exact h.held k e (same k ▸ he)
  · exact h.exclusive k₁ k₂ e₁ e₂ (same k₁ ▸ he₁) (same k₂ ▸ he₂)

theorem body_leased (valid : L.valid host) (h : L.Leased named) (asks : Asks named L op)
    (hbody : L.body host op = .ok L') : L'.Leased named := by
  cases op with
  | createMilestone key =>
    obtain rfl := pure_eq_ok.mp hbody
    exact createMilestone_leased h key
  | planExecution p =>
    obtain ⟨m, m', hm, hcall, rfl⟩ := onRows_ok hbody
    exact h.put hm (MilestoneRows.planExecution_workspaceStep (h.advanced _ m hm)
      (fun none_ => (blank_of_valid valid hm none_).2) hcall)
  | acquireWorkspaceLease c => exact h.acquire asks hbody
  | call key c =>
    obtain ⟨m, m', hm, hcall, rfl⟩ := onRows_ok hbody
    exact h.put hm (MilestoneRows.call_workspaceStep (h.advanced _ m hm) hcall)

theorem next_leased (h : L.Leased named) (asks : Asks named L op) :
    (L.next host op).Leased named := by
  obtain same | done : L.next host op = L ∨ _ := next_cases L op
  · rwa [same]
  · obtain ⟨valid, hbody, -⟩ := perform_ok done
    exact body_leased valid h asks hbody

theorem leased_initial : Leased named {} := by
  have none_ : ∀ key, ({} : ExecutionLedger).execution? key = none := fun _ => rfl
  refine ⟨fun key m hm => ?_, fun path lease hlease => ?_, fun key e he => ?_, ?_⟩
  · cases (Table.get?_empty key).symm.trans hm
  · cases (Table.get?_empty path).symm.trans hlease
  · cases (none_ key).symm.trans he
  · intro k₁ _ e₁ _ he₁
    cases (none_ k₁).symm.trans he₁

theorem next_lease {path : String} {lease : WorkspaceLease}
    (h : L.leases.get? path = some lease) : (L.next host op).leases.get? path = some lease := by
  obtain same | done : L.next host op = L ∨ _ := next_cases L op
  · rwa [same]
  · obtain ⟨-, hbody, -⟩ := perform_ok done
    generalize L.next host op = L' at hbody
    cases op with
    | createMilestone key =>
      obtain rfl := pure_eq_ok.mp hbody
      exact h
    | planExecution p =>
      obtain ⟨m, m', -, -, rfl⟩ := onRows_ok hbody
      exact h
    | acquireWorkspaceLease c =>
      obtain ⟨m, e, leases, -, -, -, hleases, rfl⟩ := acquireWorkspaceLease_ok hbody
      exact leasesFor_stands hleases h
    | call key c =>
      obtain ⟨m, m', -, -, rfl⟩ := onRows_ok hbody
      exact h

theorem after_leased {ops : List Op} (asks : Machine.Along (next host) (Asks named) {} ops) :
    (after host ops).Leased named :=
  Machine.invariant_along (fun _ _ h asks => next_leased h asks) leased_initial asks

theorem lease_stands {path : String} {lease : WorkspaceLease} (L : ExecutionLedger)
    (ops : List Op) (h : L.leases.get? path = some lease) :
    (Machine.run (next host) L ops).leases.get? path = some lease :=
  Machine.invariant (I := fun L : ExecutionLedger => L.leases.get? path = some lease)
    (fun _ _ h => next_lease h) h ops

/-- Every lease is acquired with the capsule that the digest of its execution names: both callers
load it from the durable plan. -/
def AsksDurably (host : Host) : ExecutionLedger → Op → Prop :=
  Asks fun sha c => host.capsuleOf sha = some c

end ExecutionLedger

/-! ### A run -/

def capsuleSha256 : Sha256 := ⟨"aaaaaaaaaaaaaaaaaaaaaaaaaaaaaaaaaaaaaaaaaaaaaaaaaaaaaaaaaaaaaaaa", by decide⟩

def protectedSha256 : Sha256 := ⟨"bbbbbbbbbbbbbbbbbbbbbbbbbbbbbbbbbbbbbbbbbbbbbbbbbbbbbbbbbbbbbbbb", by decide⟩

def baseSha : GitSha := ⟨"cccccccccccccccccccccccccccccccccccccccc", by decide⟩

def sampleCapsule : ExecutionCapsule where
  runId := "run"
  milestoneId := "milestone"
  repositoryRoot := "/repository"
  workspaceMode := .currentCheckout
  workspacePath := "/repository"
  branch := "main"
  baseSha := baseSha
  lane := "lane"
  model := "model"
  reasoningEffort := "high"

def sampleHost : Host where
  claimTokenSha256 token := token
  resultMembers result := result.summary
  actionSha256 _ action := action.prompt
  receiptProof token action challenge _ := token ++ action ++ challenge
  capsuleOf sha := if sha = capsuleSha256 then some sampleCapsule else none

def leasedRun : List Op :=
  [.createMilestone sampleCapsule.key,
    .planExecution ⟨sampleCapsule, "/state/capsule.json", capsuleSha256, protectedSha256⟩,
    .acquireWorkspaceLease sampleCapsule]

namespace ExecutionLedger

theorem leasedRun_durable :
    Machine.Along (next sampleHost) (AsksDurably sampleHost) {} leasedRun := by
  refine ⟨?_, ?_, ?_, trivial⟩
  · intro c h
    cases h
  · intro c h
    cases h
  · intro c h e he
    obtain rfl := Op.acquireWorkspaceLease.inj h
    have planned : ((after sampleHost (leasedRun.take 2)).execution? sampleCapsule.key).map
        (·.capsuleSha256) = some capsuleSha256 := by decide
    have he : (after sampleHost (leasedRun.take 2)).execution? sampleCapsule.key = some e := he
    rw [he] at planned
    have sha : e.capsuleSha256 = capsuleSha256 := Option.some.inj planned
    rw [sha]
    rfl

end ExecutionLedger

end CodexFlow.Executions
