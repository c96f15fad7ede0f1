import CodexFlow.Executions.Marks

/-!
# Crossing the external boundary

A call of the SDK is made at most once for an execution, and only while its marker is committed:
within one request the marker is written before the call and taken back only before it, and between
requests a marker that is there keeps every later request from the call.
-/

namespace CodexFlow.Executions

open Checked Scripted

variable {host : Host} {key : ExecutionKey} {e : Execution} {call : SdkCall} {w w' w₀ : World}

/-! ### Commands -/

namespace Controller

variable {c : ExecutionCapsule} {op : Op}

theorem observes_check : Observes check w fun _ => True :=
  observes_of_reads <| reads_next.bind fun _ => reads_ite reads_pure reads_fail

theorem observes_require {holds : Prop} [Decidable holds] {failure : ControllerFailure} :
    Observes (require holds failure) w fun _ => holds := by
  unfold require
  split_ifs with h
  · exact observes_pure h
  · exact observes_fail

theorem mapError_eq_ok {α : Type} {x : Checked α} {a : α} :
    x.mapError ControllerFailure.ledger = .ok a ↔ x = .ok a := by
  cases x <;> simp [Except.mapError]

theorem observes_read {α : Type} {query : ExecutionLedger → Checked α} :
    Observes (read query) w fun a => query w.ledger = .ok a := by
  refine observes_world.bind fun _ same => ?_
  subst same
  exact observes_lift fun a h => mapError_eq_ok.mp h

theorem observes_getMilestone :
    Observes (getMilestone key) w fun m => w.ledger.milestones.get? key = some m :=
  observes_read.mono fun _ _ h => ⟨h.1, fun m hm => ExecutionLedger.getMilestone_eq_ok.mp (h.2 m hm)⟩

theorem observes_getExecution :
    Observes (getExecution key) w fun e => w.ledger.execution? key = some e :=
  observes_getMilestone.bind fun m hm => observes_lift fun _ he =>
    ExecutionLedger.execution?_eq_some.mpr
      ⟨m, hm, MilestoneRows.getExecution_eq_ok.mp (mapError_eq_ok.mp he)⟩

theorem observes_getIntegrity : Observes (getIntegrity key) w fun i =>
    ∃ m, w.ledger.milestones.get? key = some m ∧ m.integrity = some i :=
  observes_getMilestone.bind fun m hm => observes_lift fun _ hi =>
    ⟨m, hm, MilestoneRows.getIntegrity_eq_ok.mp (mapError_eq_ok.mp hi)⟩

theorem observes_getAppNative : Observes (getAppNative key) w fun a =>
    ∃ m, w.ledger.milestones.get? key = some m ∧ m.appNative = some a :=
  observes_getMilestone.bind fun m hm => observes_lift fun _ ha =>
    ⟨m, hm, MilestoneRows.getAppNative_eq_ok.mp (mapError_eq_ok.mp ha)⟩

theorem observes_loadDurableCapsule : Observes (loadDurableCapsule host key e) w fun c =>
    host.capsuleOf e.capsuleSha256 = some c ∧ c.key = key := by
  refine observes_check.bind fun _ _ => ?_
  cases hc : host.capsuleOf e.capsuleSha256 with
  | none => exact observes_fail
  | some c => exact observes_require.bind fun _ same => observes_pure ⟨rfl, same⟩

theorem observes_authorizeExternalCall : Observes (authorizeExternalCall key c) w fun _ =>
    ∃ m, w.ledger.milestones.get? key = some m ∧ m.integrity.isSome := by
  refine observes_check.bind fun _ _ => observes_getExecution.bind fun e _ =>
    observes_require.bind fun _ _ => observes_world.bind fun _ _ =>
    observes_require.bind fun _ _ => observes_getIntegrity.bind fun i hi =>
    Always.mono observes_check fun _ _ h => ⟨h.1, fun _ _ => ?_⟩
  obtain ⟨m, hm, hi⟩ := hi
  exact ⟨m, hm, by rw [hi]; rfl⟩

theorem always_transact {Q : Except (Option ControllerFailure) Unit → World → Prop}
    (stopped : ∀ e, Q (.error e) w)
    (h : ∀ L', w.ledger.perform host op = .ok L' → Q (.ok ()) { w with ledger := L' }) :
    Always (transact host op) w Q :=
  observes_check.always_bind stopped fun _ _ => observes_read.always_bind stopped
    fun L' hL' => always_update (h L' hL')

end Controller

/-! ### Within a request -/

/-- Two leases of one lane of a run are one lease. -/
def ExecutionLedger.LanesUnique (L : ExecutionLedger) : Prop :=
  ∀ p₁ p₂ l₁ l₂, L.leases.get? p₁ = some l₁ → L.leases.get? p₂ = some l₂ →
    l₁.ownerRunId = l₂.ownerRunId → l₁.lane = l₂.lane → p₁ = p₂

/-- The marker of the call is committed and its answer is not known. -/
def Execution.AtBoundary (e : Execution) : SdkCall → Prop
  | .startThread => e.status = .planned ∧ e.checkpoint = .threadStarting ∧ e.threadId = none
  | .runTurn => e.status = .threadStarted ∧ e.threadId.isSome ∧ e.turnId = none ∧
      e.turnOutput = some turnStartingMarker

/-- The call is made at its marker, by an execution that is bound to its profile. -/
def Crossing.Authorized (x : Crossing) : Prop :=
  ∃ m e, x.rows = some m ∧ m.execution = some e ∧ m.integrity.isSome ∧ e.AtBoundary x.call

/-- What holds between any two commands; under `direct` no milestone shows both routes. -/
structure World.Good (host : Host) (direct : Prop) (w : World) : Prop where
  valid : w.ledger.valid host
  leased : w.ledger.Leased fun sha c => host.capsuleOf sha = some c
  lanes : w.ledger.LanesUnique
  placed : w.ledger.Placed
  authorized : ∀ x ∈ w.crossings, x.Authorized
  profiled : ∀ x ∈ w.crossings, w.ledger.Profiled x.key
  oneRoute : direct → w.ledger.OneRoute
  alone : direct → ∀ x ∈ w.crossings, ∀ m ∈ x.rows, m.appNative = none

/-- Since `w₀`, the call was made only from an unmarked state, once, and is marked now. -/
def World.Held (w₀ w : World) : Prop :=
  ∀ key call, (w.crossed key call = w₀.crossed key call ∧
      (w₀.ledger.Marked key call → w.ledger.Marked key call)) ∨
    (¬ w₀.ledger.Marked key call ∧ w.crossed key call = w₀.crossed key call + 1 ∧
      w.ledger.Marked key call)

/-- The call has not been made since `w₀`, which was unmarked. -/
def World.Fresh (w₀ w : World) (key : ExecutionKey) (call : SdkCall) : Prop :=
  w.crossed key call = w₀.crossed key call ∧ ¬ w₀.ledger.Marked key call

theorem World.Held.refl (w : World) : w.Held w := fun _ _ => .inl ⟨rfl, id⟩

namespace ExecutionLedger

variable {L L' : ExecutionLedger} {op : Op} {c : ExecutionCapsule}

theorem laneOwner_none {runId lane path : String} {lease : WorkspaceLease}
    (h : L.laneOwner runId lane = none) (hlease : L.leases.get? path = some lease) :
    ¬ (lease.ownerRunId = runId ∧ lease.lane = lane) := by
  have absent := List.find?_eq_none.mp (Option.map_eq_none_iff.mp h) (path, lease)
    (Table.get?_eq_some.mp hlease)
  simpa using absent

theorem lanesUnique_initial : ({} : ExecutionLedger).LanesUnique := by
  intro p₁ p₂ l₁ l₂ h₁
  cases (Table.get?_empty p₁).symm.trans h₁

theorem leasesFor_lanes {leases : Table String WorkspaceLease} (lanes : L.LanesUnique)
    (h : L.leasesFor c = .ok leases) : ({ L with leases } : ExecutionLedger).LanesUnique := by
  unfold leasesFor at h
  dsimp only at h
  split at h
  · rename_i free
    have free := Option.or_eq_none_iff.mp (Option.orElse_eq_or.symm.trans free)
    obtain rfl := pure_eq_ok.mp h
    have fresh : ∀ p l, p ≠ c.workspacePath →
        (L.leases.insert c.workspacePath c.lease).get? p = some l →
        L.leases.get? p = some l := fun p l hp hl => (Table.get?_insert_ne _ hp _).symm.trans hl
    have self := Table.get?_insert_self free.2 c.lease
    intro p₁ p₂ l₁ l₂ h₁ h₂ owner lane
    by_cases hp₁ : p₁ = c.workspacePath
    · by_cases hp₂ : p₂ = c.workspacePath
      · exact hp₁.trans hp₂.symm
      · subst hp₁
        obtain rfl := Option.some.inj (self.symm.trans h₁)
        exact absurd ⟨owner.symm, lane.symm⟩ (laneOwner_none free.1 (fresh p₂ l₂ hp₂ h₂))
    · by_cases hp₂ : p₂ = c.workspacePath
      · subst hp₂
        obtain rfl := Option.some.inj (self.symm.trans h₂)
        exact absurd ⟨owner, lane⟩ (laneOwner_none free.1 (fresh p₁ l₁ hp₁ h₁))
      · exact lanes p₁ p₂ l₁ l₂ (fresh p₁ l₁ hp₁ h₁) (fresh p₂ l₂ hp₂ h₂) owner lane
  · simp only [steps_ok] at h
    obtain ⟨-, -, -, rfl⟩ := h
    exact lanes

theorem body_lanes (lanes : L.LanesUnique) (h : L.body host op = .ok L') : L'.LanesUnique := by
  cases op with
  | createMilestone key =>
    obtain rfl := pure_eq_ok.mp h
    exact lanes
  | planExecution p =>
    obtain ⟨m, m', -, -, rfl⟩ := onRows_ok h
    exact lanes
  | acquireWorkspaceLease c =>
    obtain ⟨m, e, leases, -, -, -, hleases, rfl⟩ := acquireWorkspaceLease_ok h
    exact leasesFor_lanes lanes hleases
  | call key c =>
    obtain ⟨m, m', -, -, rfl⟩ := onRows_ok h
    exact lanes

end ExecutionLedger

namespace World

variable {direct : Prop} {op : Op} {L' : ExecutionLedger}

theorem good_initial : Good host direct {} where
  valid := rfl
  leased := ExecutionLedger.leased_initial
  lanes := ExecutionLedger.lanesUnique_initial
  placed := by
    intro key m hm
    cases (Table.get?_empty key).symm.trans hm
  authorized := by simp
  profiled := by simp
  oneRoute := by
    intro _ key m hm
    cases (Table.get?_empty key).symm.trans hm
  alone := by simp

theorem Good.transact (good : Good host direct w)
    (asks : ExecutionLedger.Asks (fun sha c => host.capsuleOf sha = some c) w.ledger op)
    (places : w.ledger.Places op) (keeps : direct → w.ledger.Keeps op)
    (h : w.ledger.perform host op = .ok L') : Good host direct { w with ledger := L' } := by
  obtain ⟨valid, hbody, valid'⟩ := ExecutionLedger.perform_ok h
  exact {
    valid := valid'
    leased := ExecutionLedger.body_leased valid good.leased asks hbody
    lanes := ExecutionLedger.body_lanes good.lanes hbody
    placed := ExecutionLedger.body_placed good.placed places hbody
    authorized := good.authorized
    profiled := fun x hx => ExecutionLedger.body_profiled (good.profiled x hx) hbody
    oneRoute := fun d => ExecutionLedger.body_oneRoute valid (good.oneRoute d) (keeps d) hbody
    alone := good.alone }

def crossing (w : World) (key : ExecutionKey) (call : SdkCall) : World :=
  { w with crossings := w.crossings ++ [⟨key, call, w.ledger.milestones.get? key⟩] }

theorem Good.crossing (good : Good host direct w) {m : MilestoneRows}
    (hm : w.ledger.milestones.get? key = some m) (he : m.execution = some e)
    (profile : m.integrity.isSome) (boundary : e.AtBoundary call) :
    Good host direct (w.crossing key call) where
  valid := good.valid
  leased := good.leased
  lanes := good.lanes
  placed := good.placed
  authorized := by
    intro x hx
    obtain old | new := List.mem_append.mp hx
    · exact good.authorized x old
    · obtain rfl := List.mem_singleton.mp new
      exact ⟨m, e, hm, he, profile, boundary⟩
  profiled := by
    intro x hx
    obtain old | new := List.mem_append.mp hx
    · exact good.profiled x old
    · obtain rfl := List.mem_singleton.mp new
      exact ⟨m, hm, profile⟩
  oneRoute := good.oneRoute
  alone := by
    intro d x hx m' hm'
    obtain old | new := List.mem_append.mp hx
    · exact good.alone d x old m' hm'
    · obtain rfl := List.mem_singleton.mp new
      obtain rfl := Option.some.inj (hm.symm.trans hm')
      exact (good.oneRoute d key m hm).exclusive profile

theorem crossed_crossing (w : World) (key k : ExecutionKey) (call call' : SdkCall) :
    (w.crossing key call).crossed k call' =
      w.crossed k call' + if key = k ∧ call = call' then 1 else 0 := by
  unfold crossed crossing
  rw [List.countP_append, List.countP_singleton]
  simp

theorem Held.transact (held : w₀.Held w)
    (clears : ∀ k call, op.clears = some (k, call) → w₀.Fresh w k call)
    (h : w.ledger.perform host op = .ok L') : w₀.Held { w with ledger := L' } := by
  obtain ⟨-, hbody, -⟩ := ExecutionLedger.perform_ok h
  intro k call
  by_cases cleared : op.clears = some (k, call)
  · obtain ⟨same, unmarked⟩ := clears k call cleared
    exact .inl ⟨same, fun marked => absurd marked unmarked⟩
  · have keeps := ExecutionLedger.body_marked hbody cleared
    obtain ⟨same, marked⟩ | ⟨unmarked, once, marked⟩ := held k call
    · exact .inl ⟨same, fun old => keeps (marked old)⟩
    · exact .inr ⟨unmarked, once, keeps marked⟩

theorem Held.crossing (held : w₀.Held w) (fresh : w₀.Fresh w key call)
    (marked : w.ledger.Marked key call) : w₀.Held (w.crossing key call) := by
  intro k call'
  rw [crossed_crossing]
  by_cases here : key = k ∧ call = call'
  · obtain ⟨rfl, rfl⟩ := here
    rw [if_pos ⟨rfl, rfl⟩, fresh.1]
    exact .inr ⟨fresh.2, rfl, marked⟩
  · rw [if_neg here]
    exact held k call'

theorem Fresh.crossing {k : ExecutionKey} {call' : SdkCall} (fresh : w₀.Fresh w k call')
    (other : call ≠ call') : w₀.Fresh (w.crossing key call) k call' := by
  refine ⟨?_, fresh.2⟩
  rw [crossed_crossing, if_neg fun both => other both.2]
  exact fresh.1

/-- A request that began in `w₀` stands in `w`. -/
structure Within (host : Host) (direct : Prop) (w₀ w : World) : Prop where
  held : w₀.Held w
  good : w.Good host direct

theorem Within.transact (h : Within host direct w₀ w) (done : w.ledger.perform host op = .ok L')
    (asks : ExecutionLedger.Asks (fun sha c => host.capsuleOf sha = some c) w.ledger op)
    (places : w.ledger.Places op) (keeps : direct → w.ledger.Keeps op)
    (clears : ∀ k call, op.clears = some (k, call) → w₀.Fresh w k call) :
    Within host direct w₀ { w with ledger := L' } :=
  ⟨h.held.transact clears done, h.good.transact asks places keeps done⟩

end World

end CodexFlow.Executions
