import CodexFlow.Executions.Boundary

/-!
# Requests at the boundary

Every public call of the controller, whatever its script, keeps what holds between two commands and
makes an SDK call only as `World.Held` says. The parts of `start` and `resume` are taken in the
order of the source; the state that a part leaves is what the next one needs.
-/

namespace CodexFlow.Executions

open Checked Scripted

variable {host : Host} {direct : Prop} {key : ExecutionKey} {e : Execution} {c : ExecutionCapsule}
  {w w' w₀ : World} {α β : Type} {I : World → Prop} {P : α → Prop} {op : Op} {env : Surroundings}

/-! ### Safe computations -/

/-- However the computation ends, it ends in a world of which `I` holds. -/
def Safe (I : World → Prop) (x : Controller α) (w : World) : Prop := Always x w fun _ w' => I w'

/-- Likewise, and the computation does not return. -/
def Raises (I : World → Prop) (x : Controller α) (w : World) : Prop :=
  Always x w fun a w' => I w' ∧ ∀ b, a ≠ .ok b

theorem safe_pure {a : α} (hw : I w) : Safe I (pure a) w := always_pure hw

theorem safe_fail {failure : ControllerFailure} (hw : I w) :
    Safe I (fail failure : Controller α) w := always_fail hw

theorem safe_observes {x : Controller α} (hx : Observes x w P) (hw : I w) : Safe I x w :=
  Always.mono hx fun _ _ h => h.1 ▸ hw

theorem Safe.observe {x : Controller α} {f : α → Controller β} (hx : Observes x w P) (hw : I w)
    (h : ∀ a, P a → Safe I (f a) w) : Safe I (x >>= f) w :=
  hx.always_bind (fun _ => hw) h

theorem Safe.bind {x : Controller α} {f : α → Controller β}
    (hx : Always x w fun a w' => I w' ∧ ∀ b, a = .ok b → Safe I (f b) w') : Safe I (x >>= f) w := by
  refine always_bind (Always.mono hx fun a w' h => ?_)
  cases a with
  | ok a => exact h.2 a rfl
  | error e => exact h.1

theorem safe_transact (hw : I w)
    (h : ∀ L', w.ledger.perform host op = .ok L' → I { w with ledger := L' }) :
    Safe I (Controller.transact host op) w :=
  Controller.always_transact (fun _ => hw) h

theorem Safe.transact {f : Unit → Controller β} (hw : I w)
    (h : ∀ L', w.ledger.perform host op = .ok L' → Safe I (f ()) { w with ledger := L' }) :
    Safe I (Controller.transact host op >>= f) w :=
  always_bind (Controller.always_transact (fun _ => hw) h)

theorem raises_transact_fail {failure : ControllerFailure} (hw : I w)
    (h : ∀ L', w.ledger.perform host op = .ok L' → I { w with ledger := L' }) :
    Raises I (do
      Controller.transact host op
      (fail failure : Controller Unit)) w :=
  always_bind (Controller.always_transact (fun _ => ⟨hw, nofun⟩)
    fun L' hL' => always_fail ⟨h L' hL', nofun⟩)

theorem Safe.rescue {x : Controller α} {handler : ControllerFailure → Controller α}
    {f : α → Controller β} (hx : Observes x w P) (hw : I w)
    (raises : ∀ failure, Raises I (handler failure) w) (h : ∀ a, P a → Safe I (f a) w) :
    Safe I (rescue x handler >>= f) w := by
  refine Safe.bind (hx.always_rescue (fun a ha => ⟨hw, fun b same => ?_⟩) ⟨hw, nofun⟩
    fun failure => Always.mono (raises failure) fun a w' h => ⟨h.1, fun b same => absurd same (h.2 b)⟩)
  obtain rfl := Except.ok.inj same
  exact h a ha

/-! ### Transactions of a request -/

theorem asks_call {L : ExecutionLedger} {named : Sha256 → ExecutionCapsule → Prop} {call : Call} :
    ExecutionLedger.Asks named L (.call key call) := nofun

namespace World.Within

variable {L' : ExecutionLedger} {rows : Call}

theorem call (h : Within host direct w₀ w)
    (done : w.ledger.perform host (.call key rows) = .ok L') (clears : rows.clears = none)
    (places : ∀ m, w.ledger.milestones.get? key = some m → m.Places rows)
    (keeps : direct → ∀ m, w.ledger.milestones.get? key = some m → m.Keeps rows) :
    Within host direct w₀ { w with ledger := L' } := by
  refine h.transact done asks_call places keeps fun k sdk cleared => ?_
  have none_ : (Op.call key rows).clears = none := by
    show rows.clears.map (key, ·) = none
    rw [clears]
    rfl
  rw [none_] at cleared
  cases cleared

/-- A call that needs no more than its own checks. -/
theorem plain (h : Within host direct w₀ w)
    (done : w.ledger.perform host (.call key rows) = .ok L') (clears : rows.clears = none)
    (free : ∀ m : MilestoneRows, m.Places rows ∧ m.Keeps rows) :
    Within host direct w₀ { w with ledger := L' } :=
  h.call done clears (fun m _ => (free m).1) fun _ m _ => (free m).2

/-- A call that takes back the marker of an SDK call that the request has not made. -/
theorem reject {sdk : SdkCall} (h : Within host direct w₀ w)
    (done : w.ledger.perform host (.call key rows) = .ok L') (clears : rows.clears = some sdk)
    (free : ∀ m : MilestoneRows, m.Places rows ∧ m.Keeps rows) (fresh : w₀.Fresh w key sdk) :
    Within host direct w₀ { w with ledger := L' } := by
  refine h.transact done asks_call (fun m _ => (free m).1) (fun _ m _ => (free m).2)
    fun k sdk' cleared => ?_
  have some_ : (Op.call key rows).clears = some (key, sdk) := by
    show rows.clears.map (key, ·) = some (key, sdk)
    rw [clears]
    rfl
  obtain ⟨rfl, rfl⟩ := Prod.mk.inj (Option.some.inj (some_.symm.trans cleared))
  exact fresh

end World.Within

open World Controller

theorem perform_call_rows {call : Call} {L L' : ExecutionLedger}
    (done : L.perform host (.call key call) = .ok L') :
    ∃ m m', L.milestones.get? key = some m ∧ m.call host L.leases key call = .ok m' ∧
      L' = L.put key m' ∧ L'.milestones.get? key = some m' ∧ m'.valid host L'.leases key := by
  obtain ⟨-, hbody, valid⟩ := ExecutionLedger.perform_ok done
  obtain ⟨m, m', hm, hcall, rfl⟩ := ExecutionLedger.onRows_ok hbody
  have self : (L.put key m').milestones.get? key = some m' := Table.get?_set_self hm m'
  exact ⟨m, m', hm, hcall, rfl, self, ExecutionLedger.valid_iff.mp valid key m' self⟩

theorem planned_valid {leases : Table String WorkspaceLease} {m : MilestoneRows}
    (h : m.valid host leases key) (he : m.execution = some e) (planned : e.status = .planned) :
    e.threadId = none := by
  simp only [MilestoneRows.valid, he, MilestoneRows.executionValid, MilestoneRows.statusValid,
    planned, MilestoneRows.plannedValid, Bool.and_eq_true, Option.isNone_iff_eq_none] at h
  exact h.1.1.2.2

/-! ### The turn -/

theorem safe_finishExecution {state : ControllerStateOutcome} {o : Observations}
    (h : Within host direct w₀ w) :
    Safe (Within host direct w₀) (finishExecution host key state o) w := by
  refine Safe.observe observes_check h fun _ _ => Safe.observe observes_getExecution h fun e _ =>
    Safe.observe observes_getIntegrity h fun i _ => Safe.transact h fun L' done => ?_
  exact safe_observes observes_check (h.plain done rfl fun _ => ⟨trivial, trivial⟩)

theorem cross_spec {sdk : SdkCall} :
    Always (cross key sdk) w fun _ w' => w' = w.crossing key sdk :=
  always_bind (always_update (Always.mono observes_check fun _ _ h => h.1))

theorem safe_callTurn (h : Within host direct w₀ w) (he : w.ledger.execution? key = some e)
    (turn : e.turnId = none) (unmarked : e.turnOutput ≠ some turnStartingMarker)
    (fresh : w₀.Fresh w key .runTurn ∨ w.ledger.Marked key .runTurn) :
    Safe (Within host direct w₀) (callTurn host key c env) w := by
  refine Safe.observe observes_authorizeExternalCall h fun _ _ =>
    Safe.observe observes_check h fun _ _ => Safe.transact h fun L₁ git => ?_
  have h₁ := h.plain git rfl fun _ => ⟨trivial, trivial⟩
  obtain ⟨m, m₁, hm, hgit, -, hm₁, -⟩ := perform_call_rows git
  obtain ⟨same, e', i, he', thread, hi, -⟩ := MilestoneRows.recordGitAuthorityBefore_ok hgit
  subst same
  obtain rfl : e = e' := by
    obtain ⟨m', hm', hexec⟩ := ExecutionLedger.execution?_eq_some.mp he
    obtain rfl := Option.some.inj (hm.symm.trans hm')
    exact Option.some.inj (hexec.symm.trans he')
  have fresh : w₀.Fresh w key .runTurn := by
    refine fresh.resolve_right fun marked => ?_
    obtain turn' | marked := ((ExecutionLedger.marked_iff he).mp marked).2
      (MilestoneRows.started_of_hasThread thread)
    · rw [turn] at turn'
      cases turn'
    · exact unmarked marked
  refine Safe.transact h₁ fun L₂ starting => ?_
  have h₂ := h₁.plain starting rfl fun _ => ⟨trivial, trivial⟩
  obtain ⟨m', m₂, hm', hstarting, -, hm₂, -⟩ := perform_call_rows starting
  obtain rfl := Option.some.inj (hm₁.symm.trans hm')
  have boundary : ∃ e₂, m₂.execution = some e₂ ∧ e₂.AtBoundary .runTurn := by
    obtain ⟨e', he'', -, ⟨marked, -⟩ | ⟨-, -, i', -, rfl⟩⟩ :=
      MilestoneRows.recordTurnStarting_ok hstarting
    · obtain rfl := Option.some.inj (he'.symm.trans he'')
      obtain turn' | marked := marked
      · rw [turn] at turn'
        cases turn'
      · exact absurd marked unmarked
    · obtain rfl := Option.some.inj (he'.symm.trans he'')
      have started := MilestoneRows.started_of_hasThread thread
      simp only [MilestoneRows.hasThread, Bool.and_eq_true] at thread
      exact ⟨_, rfl, started, thread.2, turn, rfl⟩
  obtain ⟨e₂, he₂, boundary⟩ := boundary
  refine Safe.observe observes_check h₂ fun _ _ => Safe.rescue observes_authorizeExternalCall h₂
    (fun failure => raises_transact_fail h₂ fun L' done =>
      h₂.reject done rfl (fun _ => ⟨trivial, trivial⟩) fresh) fun _ authorized => ?_
  obtain ⟨m', hm', profile⟩ := authorized
  obtain rfl := Option.some.inj (hm₂.symm.trans hm')
  have marked : ExecutionLedger.Marked L₂ key .runTurn := by
    refine ⟨e₂, ExecutionLedger.execution?_eq_some.mpr ⟨m₂, hm₂, he₂⟩, ?_, fun _ => .inr ?_⟩
    · rw [boundary.1]
      decide
    · exact boundary.2.2.2
  have h₃ : Within host direct w₀ (World.crossing { w with ledger := L₂ } key .runTurn) :=
    ⟨h₂.held.crossing fresh marked, h₂.good.crossing hm₂ he₂ profile boundary⟩
  refine Safe.observe observes_check h₂ fun _ _ => Safe.bind (cross_spec.mono ?_)
  rintro a _ rfl
  refine ⟨h₃, fun _ _ => Safe.transact h₃ fun L₄ recorded => ?_⟩
  exact safe_observes observes_check (h₃.plain recorded rfl fun _ => ⟨trivial, trivial⟩)

theorem safe_executeTurnAndFinish (h : Within host direct w₀ w)
    (fresh : w₀.Fresh w key .runTurn ∨ w.ledger.Marked key .runTurn) :
    Safe (Within host direct w₀) (executeTurnAndFinish host key c env) w := by
  refine Safe.observe observes_getExecution h fun e he =>
    Safe.observe observes_require h fun _ _ => Safe.observe observes_require h fun _ certain =>
    Safe.observe observes_getIntegrity h fun i _ => ?_
  split_ifs with turn
  · exact safe_finishExecution h
  · rw [Option.not_isSome_iff_eq_none] at turn
    have unmarked : e.turnOutput ≠ some turnStartingMarker := fun marked => certain ⟨turn, marked⟩
    refine Safe.bind (Always.mono (safe_callTurn h he turn unmarked fresh) fun a w' h' => ?_)
    exact ⟨h', fun _ _ => safe_finishExecution h'⟩

/-! ### Start -/

theorem raises_startUncertain (h : I w)
    (kept : ∀ L', w.ledger.perform host (.call key .recordPreIdentityUncertainty) = .ok L' →
      I { w with ledger := L' }) : Raises I (startUncertain host key) w :=
  raises_transact_fail h kept

/-- A request that may still call the thread's turn. -/
def TurnAhead (host : Host) (direct : Prop) (w₀ : World) (key : ExecutionKey) (w : World) : Prop :=
  Within host direct w₀ w ∧ w₀.Fresh w key .runTurn

theorem TurnAhead.plain {rows : Call} {L' : ExecutionLedger} (h : TurnAhead host direct w₀ key w)
    (done : w.ledger.perform host (.call key rows) = .ok L') (clears : rows.clears = none)
    (free : ∀ m : MilestoneRows, m.Places rows ∧ m.Keeps rows) :
    TurnAhead host direct w₀ key { w with ledger := L' } :=
  ⟨h.1.plain done clears free, h.2⟩

theorem callThreadStart_spec {threadId : String} (h : TurnAhead host direct w₀ key w)
    (fresh : w₀.Fresh w key .startThread)
    (bound : ∃ m, w.ledger.milestones.get? key = some m ∧ m.integrity.isSome) :
    Safe (TurnAhead host direct w₀ key) (callThreadStart host key c threadId) w := by
  refine Safe.transact h fun L₁ claimed => ?_
  have h₁ := h.plain claimed rfl fun _ => ⟨trivial, trivial⟩
  obtain ⟨m₀, m₁, hm₀, hclaim, -, hm₁, -⟩ := perform_call_rows claimed
  have claimed : m₁.executor = true ∧ m₁.integrity.isSome := by
    obtain ⟨m, hm, profile⟩ := bound
    obtain rfl := Option.some.inj (hm₀.symm.trans hm)
    obtain ⟨rfl, there⟩ | ⟨-, -, rfl⟩ := MilestoneRows.claimExecutor_ok hclaim
    · exact ⟨there, profile⟩
    · exact ⟨rfl, profile⟩
  refine Safe.transact h₁ fun L₂ starting => ?_
  have h₂ : TurnAhead host direct w₀ key { w with ledger := L₂ } :=
    ⟨h₁.1.call starting rfl (fun m hm => Option.some.inj (hm₁.symm.trans hm) ▸ claimed)
      fun _ _ _ => trivial, h₁.2⟩
  obtain ⟨m, m₂, -, hstarting, -, hm₂, valid⟩ := perform_call_rows starting
  have boundary : ∃ e₂, m₂.execution = some e₂ ∧ e₂.AtBoundary .startThread := by
    obtain ⟨e, he, planned, ⟨marked, rfl⟩ | ⟨-, rfl⟩⟩ := MilestoneRows.recordThreadStarting_ok hstarting
    · exact ⟨e, he, planned, marked, planned_valid valid he planned⟩
    · exact ⟨_, rfl, planned, rfl, planned_valid valid rfl planned⟩
  obtain ⟨e₂, he₂, boundary⟩ := boundary
  have reject : ∀ failure, Raises (TurnAhead host direct w₀ key) (rejectThreadStart host key failure)
      { w with ledger := L₂ } := fun failure => raises_transact_fail h₂ fun L' done =>
    ⟨h₂.1.reject done rfl (fun _ => ⟨trivial, trivial⟩) fresh, h₂.2⟩
  have uncertain : Raises (TurnAhead host direct w₀ key) (startUncertain host key)
      { w with ledger := L₂ } := raises_startUncertain h₂ fun L' done =>
    h₂.plain done rfl fun _ => ⟨trivial, trivial⟩
  refine Safe.rescue observes_check h₂ (fun _ => uncertain) fun _ _ =>
    Safe.rescue (observes_check.bind fun _ _ => observes_authorizeExternalCall) h₂ reject
      fun _ authorized => Safe.rescue observes_check h₂ reject fun _ _ => ?_
  obtain ⟨m', hm', profile⟩ := authorized
  obtain rfl := Option.some.inj (hm₂.symm.trans hm')
  have marked : ExecutionLedger.Marked L₂ key .startThread :=
    ⟨e₂, ExecutionLedger.execution?_eq_some.mpr ⟨m₂, hm₂, he₂⟩, fun _ => boundary.2.1⟩
  have h₃ : TurnAhead host direct w₀ key (World.crossing { w with ledger := L₂ } key .startThread) :=
    ⟨⟨h₂.1.held.crossing fresh marked, h₂.1.good.crossing hm₂ he₂ profile boundary⟩,
      h₂.2.crossing nofun⟩
  refine Safe.bind (always_rescue (cross_spec.mono ?_))
  rintro a _ rfl
  have identity : Safe (TurnAhead host direct w₀ key)
      (Controller.transact host (.call key (.recordThreadIdentity threadId)))
      (World.crossing { w with ledger := L₂ } key .startThread) :=
    safe_transact h₃ fun L' done => h₃.plain done rfl fun _ => ⟨trivial, trivial⟩
  match a with
  | .ok _ => exact ⟨h₃, fun _ _ => identity⟩
  | .error (some _) =>
    refine Always.mono (raises_startUncertain h₃ fun L' done => h₃.plain done rfl fun _ => ⟨trivial, trivial⟩)
      fun a w' h' => ⟨h'.1, fun b same => absurd same (h'.2 b)⟩
  | .error none => exact ⟨h₃, nofun⟩

/-- A planned execution before its thread start is marked. -/
structure Startable (host : Host) (direct : Prop) (w₀ : World) (key : ExecutionKey) (sha : Sha256)
    (w : World) : Prop where
  within : Within host direct w₀ w
  thread : w₀.Fresh w key .startThread
  turn : w₀.Fresh w key .runTurn
  capsule : ∀ e, w.ledger.execution? key = some e → e.capsuleSha256 = sha
  route : direct → ∀ m, w.ledger.milestones.get? key = some m →
    m.integrity.isSome ∨ m.appNative = none

theorem perform_lease_rows {L L' : ExecutionLedger}
    (done : L.perform host (.acquireWorkspaceLease c) = .ok L') :
    ∃ m e, L.milestones.get? c.key = some m ∧ m.execution = some e ∧
      L'.milestones.get? c.key = some { m with execution := some e.leased } := by
  obtain ⟨-, hbody, -⟩ := ExecutionLedger.perform_ok done
  obtain ⟨m, e, leases, hm, he, -, -, rfl⟩ := ExecutionLedger.acquireWorkspaceLease_ok hbody
  exact ⟨m, e, hm, he, Table.get?_set_self hm _⟩

theorem Within.lease {L' : ExecutionLedger} (h : Within host direct w₀ w)
    (durable : ∀ e, w.ledger.execution? c.key = some e → host.capsuleOf e.capsuleSha256 = some c)
    (done : w.ledger.perform host (.acquireWorkspaceLease c) = .ok L') :
    Within host direct w₀ { w with ledger := L' } := by
  refine h.transact done (fun c' same e he => ?_) trivial (fun _ => trivial)
    fun _ _ cleared => nomatch cleared
  obtain rfl := Op.acquireWorkspaceLease.inj same
  exact durable e he

theorem Startable.lease {L' : ExecutionLedger} {sha : Sha256}
    (h : Startable host direct w₀ c.key sha w) (hc : host.capsuleOf sha = some c)
    (done : w.ledger.perform host (.acquireWorkspaceLease c) = .ok L') :
    Startable host direct w₀ c.key sha { w with ledger := L' } := by
  obtain ⟨m, e, hm, he, hm'⟩ := perform_lease_rows done
  have hexec := ExecutionLedger.execution?_eq_some.mpr ⟨m, hm, he⟩
  refine ⟨Within.lease h.within (fun e' he' => ?_) done, h.thread, h.turn, fun e' he' => ?_,
    fun d m' hm'' => ?_⟩
  · rw [h.capsule e' he']
    exact hc
  · obtain ⟨m'', hm'', hexec'⟩ := ExecutionLedger.execution?_eq_some.mp he'
    obtain rfl := Option.some.inj (hm'.symm.trans hm'')
    obtain rfl := Option.some.inj hexec'
    rw [(ExecutionLedger.execution_leased e).2.1]
    exact h.capsule e hexec
  · obtain rfl := Option.some.inj (hm'.symm.trans hm'')
    exact h.route d m hm

theorem safe_startThread (hw : w.Good host direct) (he : w.ledger.execution? c.key = some e)
    (hc : host.capsuleOf e.capsuleSha256 = some c) (planned : e.status = .planned)
    (unmarked : e.checkpoint ≠ .threadStarting) :
    Safe (Within host direct w) (startThread host c.key c e env) w := by
  have h : Within host direct w w := ⟨.refl w, hw⟩
  have not_marked : ∀ call, ¬ w.ledger.Marked c.key call := fun call marked =>
    MilestoneRows.not_marked_of_planned planned unmarked ((ExecutionLedger.marked_iff he).mp marked)
  have startable : (direct → ∀ m, w.ledger.milestones.get? c.key = some m →
      m.integrity.isSome ∨ m.appNative = none) →
      Startable host direct w c.key e.capsuleSha256 w := fun route =>
    ⟨h, ⟨rfl, not_marked _⟩, ⟨rfl, not_marked _⟩, fun e' he' => by
      rw [Option.some.inj (he'.symm.trans he)], route⟩
  refine Safe.observe observes_check h fun _ _ => Safe.bind ?_
  have bound : Always (bindBaseline host c.key c e env) w fun a w' => Within host direct w w' ∧
      ∀ native, a = .ok native → Startable host direct w c.key e.capsuleSha256 w' := by
    unfold bindBaseline
    refine always_ite (fun baseline => ?_) fun baseline => ?_
    · refine observes_getIntegrity.always_bind (fun _ => ⟨h, nofun⟩) fun i hi => ?_
      refine observes_authorizeExternalCall.always_bind (fun _ => ⟨h, nofun⟩) fun _ _ => ?_
      refine always_pure ⟨h, fun _ _ => startable fun _ m hm => .inl ?_⟩
      obtain ⟨m', hm', hi⟩ := hi
      obtain rfl := Option.some.inj (hm.symm.trans hm')
      rw [hi]
      rfl
    · have ready : Startable host direct w c.key e.capsuleSha256 w := startable fun d m hm => .inr <| by
        obtain ⟨m', hm', hexec⟩ := ExecutionLedger.execution?_eq_some.mp he
        obtain rfl := Option.some.inj (hm.symm.trans hm')
        refine Option.not_isSome_iff_eq_none.mp fun dispatch => ?_
        have past := (hw.oneRoute d c.key m hm).prepared e hexec planned dispatch
        simp only [List.mem_cons, List.not_mem_nil, or_false] at past
        exact past.elim baseline unmarked
      refine observes_check.always_bind (fun _ => ⟨h, nofun⟩) fun _ _ => ?_
      refine always_bind (always_transact (fun _ => ⟨h, nofun⟩) fun L' done => ?_)
      have ready' := ready.lease hc done
      refine observes_check.always_bind (fun _ => ⟨ready'.within, nofun⟩) fun _ _ => ?_
      exact always_pure ⟨ready'.within, fun _ _ => ready'⟩
  refine bound.mono fun a w₁ h₁ => ⟨h₁.1, fun native same => ?_⟩
  have ready := h₁.2 native same
  refine Safe.observe observes_check ready.within fun _ _ => Safe.transact ready.within fun L₂ done => ?_
  have ready₂ := ready.lease hc done
  refine Safe.observe observes_check ready₂.within fun _ _ =>
    Safe.transact ready₂.within fun L₃ done => ?_
  have h₃ := ready₂.within.call done rfl (fun _ _ => trivial) ready₂.route
  refine Safe.observe observes_check h₃ fun _ _ => Safe.observe observes_authorizeExternalCall h₃
    fun _ bound => Safe.observe observes_check h₃ fun _ _ => Safe.bind ?_
  refine Always.mono (callThreadStart_spec ⟨h₃, ready₂.turn⟩ ready₂.thread bound) fun a w' h' => ?_
  exact ⟨h'.1, fun _ _ => Safe.observe observes_check h'.1 fun _ _ =>
    safe_executeTurnAndFinish h'.1 (.inl h'.2)⟩

theorem safe_finishTerminal (h : Within host direct w₀ w) :
    Safe (Within host direct w₀) (finishTerminal host key e) w := by
  refine Safe.observe observes_getMilestone h fun m _ => always_ite (fun _ => ?_) fun _ => ?_
  · refine Safe.transact h fun L' done => ?_
    exact safe_observes observes_check (h.plain done rfl fun _ => ⟨rfl, trivial⟩)
  · exact Safe.observe observes_require h fun _ _ => safe_observes observes_check h

theorem safe_start (hw : w.Good host direct) : Safe (Within host direct w) (start host key env) w := by
  have h : Within host direct w w := ⟨.refl w, hw⟩
  refine Safe.observe observes_getExecution h fun e he =>
    Safe.observe observes_loadDurableCapsule h fun c hc => ?_
  obtain ⟨hc, rfl⟩ := hc
  cases status : e.status with
  | planned =>
    refine always_ite (fun _ => ?_) fun unmarked => safe_startThread hw he hc status unmarked
    refine Always.mono (raises_transact_fail h fun L' done => ?_) fun _ _ h' => h'.1
    exact h.plain done rfl fun _ => ⟨trivial, trivial⟩
  | threadStarted => exact safe_fail h
  | completed => exact safe_finishTerminal h
  | failed => exact safe_finishTerminal h
  | cancelled => exact safe_pure h
  | uncertainPreIdentity => exact safe_pure h

/-! ### Resume -/

theorem safe_resumeThread (hw : w.Good host direct) :
    Safe (Within host direct w) (resumeThread host key e env) w := by
  have h : Within host direct w w := ⟨.refl w, hw⟩
  refine Safe.observe observes_loadDurableCapsule h fun c _ =>
    Safe.observe observes_check h fun _ _ => Safe.observe observes_getIntegrity h fun _ _ =>
    Safe.observe observes_check h fun _ _ => Safe.bind ?_
  have rebound : Always (rescue (transact host (.call key (rebindNative env.native)))
      fun failure => fail (unsafeResume failure)) w fun _ w' => Within host direct w w' ∧
        (w.Fresh w' key .runTurn ∨ w'.ledger.Marked key .runTurn) := by
    have ahead : w.Fresh w key .runTurn ∨ w.ledger.Marked key .runTurn := by
      by_cases marked : w.ledger.Marked key .runTurn
      · exact .inr marked
      · exact .inl ⟨rfl, marked⟩
    refine always_rescue (always_transact (fun error => ?_) fun L' done => ⟨?_, ?_⟩)
    · match error with
      | some _ => exact always_fail ⟨h, ahead⟩
      | none => exact ⟨h, ahead⟩
    · exact h.plain done rfl fun _ => ⟨trivial, trivial⟩
    · obtain ⟨-, hbody, -⟩ := ExecutionLedger.perform_ok done
      exact ahead.imp (fun fresh => fresh) (ExecutionLedger.body_marked hbody nofun)
  refine rebound.mono fun a w' h' => ⟨h'.1, fun _ _ => ?_⟩
  obtain ⟨h', ahead⟩ := h'
  refine Safe.observe observes_check h' fun _ _ => always_ite (fun _ => ?_) fun _ =>
    always_ite (fun _ => safe_fail h') fun _ => ?_
  · exact safe_executeTurnAndFinish h' ahead
  · exact Safe.observe observes_check h' fun _ _ =>
      Safe.observe observes_authorizeExternalCall h' fun _ _ => Safe.observe observes_check h' fun _ _ =>
      Safe.observe observes_authorizeExternalCall h' fun _ _ => Safe.observe observes_check h' fun _ _ =>
      safe_executeTurnAndFinish h' ahead

theorem safe_resume (hw : w.Good host direct) :
    Safe (Within host direct w) (resume host key env) w := by
  have h : Within host direct w w := ⟨.refl w, hw⟩
  refine Safe.observe observes_getExecution h fun e _ => ?_
  have thread : Safe (Within host direct w) (do
      require e.threadId.isSome
        (.controllerError "execution has no durable SDK identity; use start")
      resumeThread host key e env) w :=
    Safe.observe observes_require h fun _ _ => safe_resumeThread hw
  cases e.status with
  | planned => exact thread
  | threadStarted => exact thread
  | completed => exact safe_finishTerminal h
  | failed => exact safe_finishTerminal h
  | cancelled => exact safe_pure h
  | uncertainPreIdentity => exact safe_fail h

/-! ### The other calls -/

theorem safe_plan {p : ExecutionPlan} (hw : w.Good host direct) :
    Safe (Within host direct w) (plan host p) w := by
  have h : Within host direct w w := ⟨.refl w, hw⟩
  refine Safe.observe observes_check h fun _ _ => Safe.observe observes_world h fun w' same => ?_
  subst same
  cases w'.ledger.execution? p.capsule.key with
  | some e =>
    exact Safe.observe observes_require h fun _ _ => safe_observes observes_check h
  | none =>
    refine Safe.transact h fun L₁ created => ?_
    have h₁ := h.transact created nofun trivial (fun _ => trivial) fun _ _ cleared => nomatch cleared
    refine Safe.observe observes_check h₁ fun _ _ => safe_transact h₁ fun L₂ planned => ?_
    exact h₁.transact planned nofun trivial (fun _ => trivial) fun _ _ cleared => nomatch cleared

theorem safe_cancel {queueRefuses : Bool} (hw : w.Good host direct) :
    Safe (Within host direct w) (cancel host key queueRefuses) w := by
  have h : Within host direct w w := ⟨.refl w, hw⟩
  refine Safe.observe observes_getExecution h fun e _ => always_ite (fun _ => safe_pure h) fun _ => ?_
  exact safe_transact h fun L' done => h.plain done rfl fun _ => ⟨trivial, trivial⟩

/-- A prepare keeps one route on a milestone that no profile is bound to. -/
theorem safe_prepareAppNative {capture : AppNativeCapture} (hw : w.Good host direct)
    (unbound : direct → ∀ m, w.ledger.milestones.get? key = some m → m.integrity = none) :
    Safe (Within host direct w) (prepareAppNative host key capture) w := by
  have h : Within host direct w w := ⟨.refl w, hw⟩
  refine Safe.observe observes_getMilestone h fun m _ => Safe.observe observes_getExecution h
    fun e he => always_ite (fun _ => safe_pure h) fun _ => Safe.observe observes_require h fun _ _ =>
    Safe.observe observes_loadDurableCapsule h fun c hc => ?_
  obtain ⟨hc, rfl⟩ := hc
  refine Safe.observe observes_check h fun _ _ => Safe.observe observes_require h fun _ _ =>
    Safe.observe observes_check h fun _ _ => Safe.transact h fun L₁ leased => ?_
  have h₁ := Within.lease h (fun e' he' => by rwa [Option.some.inj (he'.symm.trans he)]) leased
  refine Safe.observe observes_check h₁ fun _ _ => safe_transact h₁ fun L₂ prepared => ?_
  refine h₁.call prepared rfl (fun _ _ => trivial) fun d m' hm' => ?_
  obtain ⟨m, _, hm, -, hm''⟩ := perform_lease_rows leased
  obtain rfl := Option.some.inj (hm''.symm.trans hm')
  exact unbound d m hm

theorem safe_completeAppNative {claimToken : String} {identity : HostIdentity}
    {state : ControllerStateOutcome} {o : Observations} {result : ModelFacingResult}
    (hw : w.Good host direct) : Safe (Within host direct w)
      (completeAppNative host key claimToken identity state o result) w := by
  have h : Within host direct w w := ⟨.refl w, hw⟩
  refine Safe.observe observes_getAppNative h fun a _ => Safe.observe observes_require h fun _ _ =>
    Safe.observe observes_require h fun _ _ => Safe.observe observes_require h fun _ _ => ?_
  cases a.result with
  | some durable => exact safe_observes observes_require h
  | none =>
    refine Safe.observe observes_getExecution h fun e _ =>
      Safe.observe observes_loadDurableCapsule h fun _ _ => Safe.observe observes_check h fun _ _ => ?_
    cases a.finish e state o result with
    | none => exact safe_fail h
    | some f =>
      refine Safe.transact h fun L' done => ?_
      exact safe_observes observes_check (h.plain done rfl fun _ => ⟨trivial, trivial⟩)

/-! ### Runs -/

/-- The request prepares no App-native dispatch for an execution that is bound to a profile. -/
def World.Direct (w : World) (step : Request × List Bool) : Prop :=
  ∀ key capture, step.1 = .prepareAppNative key capture →
    ∀ m, w.ledger.milestones.get? key = some m → m.integrity = none

theorem safe_perform (hw : w.Good host direct) (step : Request × List Bool)
    (single : direct → w.Direct step) : Safe (Within host direct w) (step.1.perform host) w := by
  obtain ⟨request, script⟩ := step
  cases request with
  | plan p => exact safe_plan hw
  | start key env => exact safe_start hw
  | resume key env => exact safe_resume hw
  | cancel key queueRefuses => exact safe_cancel hw
  | prepareAppNative key capture =>
    exact safe_prepareAppNative hw fun d m hm => single d key capture rfl m hm
  | bindAppNative key claimToken receipt =>
    have h : Within host direct w w := ⟨.refl w, hw⟩
    exact safe_transact h fun L' done => h.plain done rfl fun _ => ⟨trivial, trivial⟩
  | completeAppNative key claimToken identity state o result => exact safe_completeAppNative hw

namespace World

theorem next_within (hw : w.Good host direct) (step : Request × List Bool)
    (single : direct → w.Direct step) : Within host direct w (w.next host step) :=
  (safe_perform hw step single).run step.2

/-- The crossings and the markers of a run: an SDK call that was made is marked, and is made
once. -/
def Marks (w : World) : Prop :=
  ∀ key call, w.crossed key call ≤ 1 ∧ (w.crossed key call = 1 → w.ledger.Marked key call)

theorem Held.marks (held : w.Held w') (marks : w.Marks) : w'.Marks := by
  intro key call
  obtain ⟨once, marked⟩ := marks key call
  obtain ⟨same, kept⟩ | ⟨unmarked, more, now⟩ := held key call
  · rw [same]
    exact ⟨once, fun made => kept (marked made)⟩
  · have none_ : w.crossed key call = 0 := by
      by_contra some_
      exact unmarked (marked (by omega))
    rw [more, none_]
    exact ⟨le_refl _, fun _ => now⟩

theorem marks_initial : ({} : World).Marks := fun _ _ => ⟨Nat.zero_le _, nofun⟩

end World

end CodexFlow.Executions
