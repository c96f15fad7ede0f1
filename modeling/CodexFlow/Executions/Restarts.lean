import CodexFlow.Executions.Requests

/-!
# After an interruption

What a later request finds at a marker, and without one. At a committed marker no request makes the
SDK call again: a start or a resume refuses, and says so. Once a rejected authorization has taken
the marker back, some environment lets a start or a resume make the call.
-/

namespace CodexFlow.Executions

open Checked Scripted Controller World

variable {host : Host} {direct : Prop} {key : ExecutionKey} {e : Execution} {c : ExecutionCapsule}
  {i : ExecutionIntegrity} {m : MilestoneRows} {w w' : World} {α : Type} {op : Op}
  {env : Surroundings} {L L' : ExecutionLedger}

/-! ### Courses of the commands -/

theorem comes_check : Comes check w () w := Comes.bind (a := true) comes_next comes_pure

theorem comes_require {holds : Prop} [Decidable holds] {failure : ControllerFailure} (h : holds) :
    Comes (require holds failure) w () w := by
  unfold require
  rw [if_pos h]
  exact comes_pure

theorem comes_lift {x : Checked α} {a : α} (h : x = .ok a) :
    Comes (lift (x.mapError .ledger) : Controller α) w a w := by
  subst h
  exact comes_pure

theorem comes_read {query : ExecutionLedger → Checked α} {a : α} (h : query w.ledger = .ok a) :
    Comes (read query) w a w := comes_world.bind (comes_lift h)

theorem comes_getMilestone (hm : w.ledger.milestones.get? key = some m) :
    Comes (getMilestone key) w m w := comes_read (ExecutionLedger.getMilestone_eq_ok.mpr hm)

theorem comes_getExecution (hm : w.ledger.milestones.get? key = some m)
    (he : m.execution = some e) : Comes (getExecution key) w e w :=
  (comes_getMilestone hm).bind (comes_lift (MilestoneRows.getExecution_eq_ok.mpr he))

theorem comes_getIntegrity (hm : w.ledger.milestones.get? key = some m)
    (hi : m.integrity = some i) : Comes (getIntegrity key) w i w :=
  (comes_getMilestone hm).bind (comes_lift (MilestoneRows.getIntegrity_eq_ok.mpr hi))

theorem comes_transact (h : w.ledger.perform host op = .ok L') :
    Comes (transact host op) w () { w with ledger := L' } :=
  comes_check.bind ((comes_read h).bind comes_update)

theorem stops_cross {call : SdkCall} : Stops (cross key call) w (w.crossing key call) :=
  comes_update.stops (Stops.bind stops_next)

/-! ### An execution with its lease -/

/-- The rows of an execution that works in its workspace, with the capsule of its lease. -/
structure Working (host : Host) (L : ExecutionLedger) (key : ExecutionKey) (m : MilestoneRows)
    (e : Execution) (c : ExecutionCapsule) : Prop where
  row : L.milestones.get? key = some m
  execution : m.execution = some e
  capsule : host.capsuleOf e.capsuleSha256 = some c
  key : c.key = key
  path : e.workspacePath = c.workspacePath
  lease : L.leases.get? c.workspacePath = some c.lease

theorem World.Good.working (good : w.Good host direct) (hm : w.ledger.milestones.get? key = some m)
    (he : m.execution = some e) (holds : e.holdsWorkspace) :
    ∃ c, Working host w.ledger key m e c := by
  obtain ⟨c, hkey, hc, hlease⟩ := good.leased.held key e
    (ExecutionLedger.execution?_eq_some.mpr ⟨m, hm, he⟩) holds
  have path : c.workspacePath = e.workspacePath := good.leased.keyed _ _ hlease
  exact ⟨c, hm, he, hc, hkey, path.symm, path ▸ hlease⟩

theorem comes_loadDurableCapsule (working : Working host w.ledger key m e c) :
    Comes (loadDurableCapsule host key e) w c w := by
  refine comes_check.bind ?_
  rw [working.capsule]
  exact (comes_require working.key).bind comes_pure

theorem comes_authorizeExternalCall (working : Working host w.ledger key m e c)
    (hi : m.integrity = some i) : Comes (authorizeExternalCall key c) w () w :=
  comes_check.bind <| (comes_getExecution working.row working.execution).bind <|
    (comes_require working.path).bind <| comes_world.bind <|
    (comes_require working.lease).bind <| (comes_getIntegrity working.row hi).bind comes_check

theorem Working.put {m' : MilestoneRows} {e' : Execution} (working : Working host L key m e c)
    (he' : m'.execution = some e') (sha : e'.capsuleSha256 = e.capsuleSha256)
    (path : e'.workspacePath = e.workspacePath) : Working host (L.put key m') key m' e' c where
  row := Table.get?_set_self working.row m'
  execution := he'
  capsule := sha ▸ working.capsule
  key := working.key
  path := path.trans working.path
  lease := working.lease

namespace ExecutionLedger

theorem laneOwner_of_lease {path : String} {lease : WorkspaceLease} (lanes : L.LanesUnique)
    (h : L.leases.get? path = some lease) :
    L.laneOwner lease.ownerRunId lease.lane = some lease := by
  cases owner : L.laneOwner lease.ownerRunId lease.lane with
  | none => exact absurd ⟨rfl, rfl⟩ (laneOwner_none owner h)
  | some other =>
    unfold laneOwner at owner
    obtain ⟨entry, found, rfl⟩ := Option.map_eq_some_iff.mp owner
    have there := Table.get?_eq_some.mpr (List.mem_of_find?_eq_some found)
    have same : entry.2.ownerRunId = lease.ownerRunId ∧ entry.2.lane = lease.lane := by
      simpa using List.find?_some found
    obtain rfl := lanes entry.1 path entry.2 lease there h same.1 same.2
    exact there.symm.trans h

/-- An execution that holds its workspace is given the same lease again. -/
theorem acquire_again (valid : L.valid host) (lanes : L.LanesUnique)
    (leased : L.Leased fun sha c => host.capsuleOf sha = some c)
    (working : Working host L key m e c) (holds : e.holdsWorkspace) :
    L.perform host (.acquireWorkspaceLease c) = .ok L := by
  obtain ⟨active, past⟩ := Execution.holdsWorkspace_iff.mp holds
  obtain rfl := working.key
  have free : ¬ L.occupied c.key c.workspacePath := by
    intro occupied
    obtain ⟨entry, hentry, other⟩ := List.any_eq_true.mp occupied
    simp only [Bool.and_eq_true, bne_iff_ne, ne_eq] at other
    obtain ⟨e', he', facts⟩ := (Option.any_eq_true ..).mp other.2
    simp only [Bool.and_eq_true, decide_eq_true_eq] at facts
    have there : L.execution? entry.1 = some e' :=
      execution?_eq_some.mpr ⟨entry.2, Table.get?_eq_some.mpr hentry, he'⟩
    have self : L.execution? c.key = some e :=
      execution?_eq_some.mpr ⟨m, working.row, working.execution⟩
    exact other.1 (leased.exclusive entry.1 c.key e' e there self facts.2 holds
      (facts.1.trans working.path.symm))
  have leases : L.leasesFor c = .ok L.leases := by
    have owner : L.laneOwner c.runId c.lane = some c.lease :=
      laneOwner_of_lease lanes working.lease
    unfold leasesFor
    rw [owner, working.lease]
    show (do
      ensure _ _
      ensure _ _
      ensure _ _
      pure L.leases) = _
    rw [ensure_of, ok_bind, ensure_of rfl, ok_bind, ensure_of free, ok_bind]
    · rfl
    · rintro a ⟨⟩ b ⟨⟩
      rfl
  have same : e.leased = e := by
    unfold Execution.leased
    rw [if_neg fun both => past both.2]
  have rows : { m with execution := some e } = m := by
    rw [← working.execution]
  have hbody : L.body host (.acquireWorkspaceLease c) = .ok L := by
    show L.acquireWorkspaceLease c = _
    unfold acquireWorkspaceLease
    rw [getMilestone_eq_ok.mpr working.row, ok_bind,
      MilestoneRows.openExecution_eq_ok.mpr ⟨working.execution, active⟩, ok_bind,
      ensure_of working.path, ok_bind, leases, ok_bind, same, rows]
    show Except.ok { L with milestones := L.milestones.set c.key m } = _
    rw [Table.set_self working.row]
  unfold perform
  rw [ensure_of valid, ok_bind, hbody, ok_bind, ensure_of valid, ok_bind]
  rfl

/-- A call that returns the rows it reads is committed. -/
theorem perform_same {call : Call} (valid : L.valid host) (hm : L.milestones.get? key = some m)
    (h : m.call host L.leases key call = .ok m) : L.perform host (.call key call) = .ok L := by
  have done := perform_call valid hm h (valid_iff.mp valid key m hm)
  rw [done]
  show Except.ok { L with milestones := L.milestones.set key m } = _
  rw [Table.set_self hm]

end ExecutionLedger

/-! ### A start after a rejection -/

theorem errorCode_of_success : (0 : ℤ) = 0 → (none : Option ValidationFailureCode) = none :=
  fun _ => rfl

theorem errorCode_of_timeout : false = true → (none : Option ValidationFailureCode) ∈
    [none, some .timeout, some .integrityFailure] :=
  fun h => absurd h Bool.false_ne_true

/-- A digest, a thread and a turn that no check of the ledger looks at before the SDK call. -/
def idleTurn (digest : Sha256) : Turn where
  turn := ⟨"", "", none, []⟩
  state := .unchanged
  observations :=
    { validation :=
        { argv := []
          exitCode := 0
          stdoutSha256 := digest
          stderrSha256 := digest
          timedOut := false
          durationSeconds := 0
          errorCode := none
          success := errorCode_of_success
          timeout := errorCode_of_timeout }
      protectedAfter := none
      scope := .raised
      gitAfter := none
      capture := none }

/-- Surroundings that are as the durable profile says. -/
def ExecutionIntegrity.surroundings (i : ExecutionIntegrity) : Surroundings where
  native :=
    { nativeProfileSha256 := i.nativeProfileSha256
      nativeCompatibilitySha256 := i.nativeCompatibilitySha256
      effectivePermission := i.effectivePermission
      baselineHead := i.baselineHead
      baseline := i.baseline
      gitBefore := i.gitBefore }
  threadId := ""
  gitBefore := i.gitBefore
  turn := idleTurn i.gitBefore

theorem planned_rows_valid {leases : Table String WorkspaceLease} {m' : MilestoneRows}
    {checkpoint : ControllerCheckpoint} (h : m.valid host leases key) (he : m.execution = some e)
    (planned : e.status = .planned) (he' : m'.execution = some { e with checkpoint })
    (alone : m'.appNative = none) (integrity : m'.integrity = m.integrity)
    (events : m'.events = m.events)
    (among : checkpoint ∈ [.capsulePlanned, .workspaceLeased, .workspaceBaselineDurable,
      .threadStarting]) : m'.valid host leases key := by
  simp only [MilestoneRows.valid, he, he', MilestoneRows.executionValid, MilestoneRows.statusValid,
    planned, MilestoneRows.plannedValid, MilestoneRows.begunValid, MilestoneRows.eventsValid, alone,
    integrity, events, Option.all_none, Bool.and_eq_true, Bool.true_and] at h ⊢
  obtain ⟨⟨⟨-, ⟨-, thread⟩⟩, numbered⟩, profile⟩ := h
  refine ⟨⟨⟨rfl, by simpa using among, thread⟩, numbered⟩, ?_⟩
  unfold MilestoneRows.integrityValid at profile ⊢
  rw [planned] at profile
  exact profile

def MilestoneRows.claimed (m : MilestoneRows) : MilestoneRows :=
  { m with executor := true, state := .starting }

theorem claimExecutor_of_placed (placed : m.Placed) (he : m.execution = some e)
    (planned : e.status = .planned) : m.claimExecutor = .ok m.claimed := by
  unfold MilestoneRows.claimExecutor MilestoneRows.claimed
  have place := (placed fun e' he' => by rwa [Option.some.inj (he'.symm.trans he)]).1
  obtain ⟨free, unclaimed, -⟩ | ⟨starting, claimed⟩ := place
  · rw [if_neg (by rw [unclaimed]; decide), ensure_of free, ok_bind]
    rfl
  · rw [if_pos claimed, ← starting, ← claimed]
    rfl

def MilestoneRows.threadMarked (m : MilestoneRows) (e : Execution) : MilestoneRows :=
  { m.claimed with execution := some { e with checkpoint := .threadStarting } }

theorem comes_bindBaseline (working : Working host w.ledger key m e c) (hi : m.integrity = some i)
    (baseline : e.checkpoint = .workspaceBaselineDurable) :
    Comes (bindBaseline host key c e i.surroundings) w i.surroundings.native w := by
  unfold bindBaseline
  rw [if_pos baseline]
  exact (comes_getIntegrity working.row hi).bind
    ((comes_authorizeExternalCall working hi).bind comes_pure)

/-- A planned execution at its durable baseline can be started, up to the SDK call. -/
theorem stops_start (good : w.Good host direct) (hm : w.ledger.milestones.get? key = some m)
    (he : m.execution = some e) (hi : m.integrity = some i) (alone : m.appNative = none)
    (planned : e.status = .planned) (baseline : e.checkpoint = .workspaceBaselineDurable) :
    ∃ w', Stops (start host key i.surroundings) w w' ∧
      w'.crossed key .startThread = w.crossed key .startThread + 1 := by
  have past : e.checkpoint ≠ .capsulePlanned := by
    rw [baseline]
    decide
  have active : ¬ e.status.isTerminal := by
    rw [planned]
    decide
  have holds := MilestoneRows.holds_of_planned planned past
  obtain ⟨c, working⟩ := good.working hm he holds
  have again := ExecutionLedger.acquire_again good.valid good.lanes good.leased working holds
  have valid := ExecutionLedger.valid_iff.mp good.valid key m hm
  have awaits : MilestoneRows.awaitsRoute e := by
    simp [MilestoneRows.awaitsRoute, planned, baseline]
  have opened : m.openExecution key = .ok e :=
    MilestoneRows.openExecution_eq_ok.mpr ⟨he, active⟩
  have profile : m.call host w.ledger.leases key (.recordNativeProfile i.surroundings.native) =
      .ok m := by
    show m.recordNativeProfile key _ = _
    unfold MilestoneRows.recordNativeProfile
    rw [opened, ok_bind, ensure_of awaits, ok_bind, hi]
    have follows : i.follows i.surroundings.native := by
      simp [ExecutionIntegrity.follows, ExecutionIntegrity.surroundings]
    dsimp only
    rw [ensure_of follows, ok_bind]
    rfl
  have bound := ExecutionLedger.perform_same good.valid hm profile
  have claimed : m.call host w.ledger.leases key .claimExecutor = .ok m.claimed :=
    claimExecutor_of_placed (good.placed key m hm) he planned
  have claimed_valid : m.claimed.valid host w.ledger.leases key :=
    planned_rows_valid valid he planned he alone rfl rfl (by rw [baseline]; decide)
  have claim := ExecutionLedger.perform_call good.valid hm claimed claimed_valid
  have working₁ : Working host (w.ledger.put key m.claimed) key m.claimed e c :=
    working.put he rfl rfl
  have marked : m.claimed.call host w.ledger.leases key .recordThreadStarting =
      .ok (m.threadMarked e) := by
    show m.claimed.recordThreadStarting key = _
    unfold MilestoneRows.recordThreadStarting
    rw [MilestoneRows.openExecution_eq_ok.mpr ⟨working₁.execution, active⟩, ok_bind,
      ensure_of planned, ok_bind, if_neg (by rw [baseline]; decide), ensure_of baseline, ok_bind]
    rfl
  have mark := ExecutionLedger.perform_call (ExecutionLedger.valid_put good.valid claimed_valid)
    working₁.row marked (planned_rows_valid claimed_valid he planned rfl alone rfl rfl (by decide))
  have working₂ : Working host ((w.ledger.put key m.claimed).put key (m.threadMarked e)) key
      (m.threadMarked e) { e with checkpoint := .threadStarting } c := working₁.put rfl rfl rfl
  generalize (w.ledger.put key m.claimed).put key (m.threadMarked e) = L₂ at mark working₂
  have authorized : Comes (authorizeExternalCall key c) { w with ledger := L₂ } () _ :=
    comes_authorizeExternalCall working₂ hi
  have start_ : Stops (callThreadStart host key c i.surroundings.threadId) w
      (World.crossing { w with ledger := L₂ } key .startThread) :=
    (comes_transact claim).stops <| (comes_transact mark).stops <| comes_check.rescue.stops <|
      (comes_check.bind authorized).rescue.stops <| comes_check.rescue.stops <|
      Stops.bind stops_cross.rescue
  have begins : Stops (startThread host key c e i.surroundings) w
      (World.crossing { w with ledger := L₂ } key .startThread) :=
    comes_check.stops <| (comes_bindBaseline working hi baseline).stops <|
      comes_check.stops <| (comes_transact again).stops <| comes_check.stops <|
      (comes_transact bound).stops <| comes_check.stops <|
      (comes_authorizeExternalCall working hi).stops <| comes_check.stops <| Stops.bind start_
  refine ⟨World.crossing { w with ledger := L₂ } key .startThread,
    (comes_getExecution hm he).stops ((comes_loadDurableCapsule working).stops ?_), ?_⟩
  · rw [planned]
    dsimp only
    rwa [if_neg (by rw [baseline]; decide)]
  · rw [crossed_crossing, if_pos ⟨rfl, rfl⟩]
    rfl

/-! ### A resume after a rejection -/

theorem NativePermissionAuthority.meet_self (a : NativePermissionAuthority) : a.meet a = some a := by
  obtain ⟨mode, sandbox, approval, retained⟩ := a
  have narrow : sandbox.narrower sandbox = sandbox := ite_self _
  cases mode <;> simp [meet, meetApproval, narrow]

theorem turnMarked_valid {leases : Table String WorkspaceLease} (h : m.valid host leases key)
    (he : m.execution = some e) (hi : m.integrity = some i) (started : e.status = .threadStarted)
    (turn : e.turnId = none) :
    MilestoneRows.valid host leases key { m with
      execution := some { e with turnOutput := some turnStartingMarker }
      integrity := some { i with turnStarted := true } } := by
  simp only [MilestoneRows.valid, he, MilestoneRows.executionValid, MilestoneRows.statusValid,
    started, MilestoneRows.startedValid, MilestoneRows.begunValid, MilestoneRows.eventsValid, turn,
    hi, Bool.and_eq_true, Option.all_some, MilestoneRows.integrityValid] at h ⊢
  obtain ⟨⟨⟨⟨app, begun⟩, rest⟩, events⟩, -⟩ := h
  exact ⟨⟨⟨⟨app, begun⟩, rest⟩, events⟩, by simp⟩

def MilestoneRows.turnMarked (m : MilestoneRows) (e : Execution) (i : ExecutionIntegrity) :
    MilestoneRows :=
  { m with
    execution := some { e with turnOutput := some turnStartingMarker }
    integrity := some { i with turnStarted := true } }

/-- An execution with a thread and no marked turn can be resumed, up to the SDK call. -/
theorem stops_resume (good : w.Good host direct) (hm : w.ledger.milestones.get? key = some m)
    (he : m.execution = some e) (hi : m.integrity = some i) (started : e.status = .threadStarted)
    (turn : e.turnId = none) (unmarked : e.turnOutput ≠ some turnStartingMarker) :
    ∃ w', Stops (resume host key i.surroundings) w w' ∧
      w'.crossed key .runTurn = w.crossed key .runTurn + 1 := by
  have valid := ExecutionLedger.valid_iff.mp good.valid key m hm
  have thread := (ExecutionLedger.started_valid valid he started).1
  have hasThread := ExecutionLedger.hasThread_of thread started
  have active : ¬ e.status.isTerminal := by
    rw [started]
    decide
  have holds := (good.leased.advanced key m hm).holds_of_started he started
  obtain ⟨c, working⟩ := good.working hm he holds
  have opened : m.openExecution key = .ok e :=
    MilestoneRows.openExecution_eq_ok.mpr ⟨he, active⟩
  have fetched : m.getIntegrity key = .ok i := MilestoneRows.getIntegrity_eq_ok.mpr hi
  have rows : { m with integrity := some i } = m := by
    rw [← hi]
  have rebound : m.call host w.ledger.leases key (rebindNative i.surroundings.native) = .ok m := by
    show m.rebindNativeProfileForResume key i.nativeProfileSha256 i.nativeCompatibilitySha256
      i.effectivePermission = _
    unfold MilestoneRows.rebindNativeProfileForResume
    rw [opened, ok_bind, ensure_of hasThread, ok_bind, fetched, ok_bind, ensure_of rfl, ok_bind,
      NativePermissionAuthority.meet_self]
    exact congrArg Except.ok rows
  have authority : m.call host w.ledger.leases key (.recordGitAuthorityBefore i.gitBefore) =
      .ok m := by
    show m.recordGitAuthorityBefore key i.gitBefore = _
    unfold MilestoneRows.recordGitAuthorityBefore
    rw [opened, ok_bind, ensure_of hasThread, ok_bind, fetched, ok_bind, ensure_of rfl, ok_bind]
    rfl
  have marked : m.call host w.ledger.leases key .recordTurnStarting = .ok (m.turnMarked e i) := by
    show m.recordTurnStarting key = _
    unfold MilestoneRows.recordTurnStarting
    have open_ : ¬ (e.turnId.isSome ∨ e.turnOutput = some turnStartingMarker) := by
      rw [turn, not_or]
      exact ⟨nofun, unmarked⟩
    rw [opened, ok_bind, ensure_of hasThread, ok_bind, if_neg open_, fetched, ok_bind]
    rfl
  have rebind := ExecutionLedger.perform_same good.valid hm rebound
  have git := ExecutionLedger.perform_same good.valid hm authority
  have mark := ExecutionLedger.perform_call good.valid hm marked
    (turnMarked_valid valid he hi started turn)
  have working' : Working host (w.ledger.put key (m.turnMarked e i)) key (m.turnMarked e i)
      { e with turnOutput := some turnStartingMarker } c := working.put rfl rfl rfl
  have authorize := comes_authorizeExternalCall (w := w) working hi
  generalize w.ledger.put key (m.turnMarked e i) = L' at mark working'
  have authorized : Comes (authorizeExternalCall key c) { w with ledger := L' } () _ :=
    comes_authorizeExternalCall working' rfl
  have turn_ : Stops (callTurn host key c i.surroundings) w
      (World.crossing { w with ledger := L' } key .runTurn) :=
    authorize.stops <| comes_check.stops <| (comes_transact git).stops <|
      (comes_transact mark).stops <| comes_check.stops <| authorized.rescue.stops <|
      comes_check.stops <| Stops.bind stops_cross
  have certain : ¬ (e.turnId = none ∧ e.turnOutput = some turnStartingMarker) :=
    fun both => unmarked both.2
  have absent : ¬ e.turnId.isSome := by
    rw [turn]
    decide
  have executes : Stops (executeTurnAndFinish host key c i.surroundings) w
      (World.crossing { w with ledger := L' } key .runTurn) := by
    refine (comes_getExecution hm he).stops <| (comes_require thread).stops <|
      (comes_require certain).stops <| (comes_getIntegrity hm hi).stops ?_
    rw [if_neg absent]
    exact Stops.bind turn_
  refine ⟨World.crossing { w with ledger := L' } key .runTurn,
    (comes_getExecution hm he).stops ?_, ?_⟩
  · rw [started]
    refine (comes_require thread).stops <| (comes_loadDurableCapsule working).stops <|
      comes_check.stops <| (comes_getIntegrity hm hi).stops <| comes_check.stops <|
      (comes_transact rebind).rescue.stops <| comes_check.stops ?_
    rw [if_neg absent, if_neg unmarked]
    exact comes_check.stops <| authorize.stops <| comes_check.stops <| authorize.stops <|
      comes_check.stops executes
  · rw [crossed_crossing, if_pos ⟨rfl, rfl⟩]
    rfl

/-! ### Refusals at a marker -/

/-- The process dies, or code outside the ledger raises. -/
def Interrupted {α : Type} (a : Except (Option ControllerFailure) α) : Prop :=
  a = .error none ∨ a = .error (some .raised)

/-- The request makes no SDK call, and ends with the failure unless it is interrupted. -/
def Refuses (x : Controller Unit) (w : World) (failure : ControllerFailure) : Prop :=
  Always x w fun a w' => w'.crossings = w.crossings ∧ (Interrupted a ∨ a = .error (some failure))

variable {β : Type} {Q : Except (Option ControllerFailure) β → World → Prop}
  {failure : ControllerFailure}

theorem returns_lift {x : Checked α} {a : α} (h : x = .ok a) :
    Returns (lift (x.mapError .ledger) : Controller α) w a := by
  subst h
  exact returns_pure

theorem returns_read {query : ExecutionLedger → Checked α} {a : α} (h : query w.ledger = .ok a) :
    Returns (read query) w a := returns_world.bind (returns_lift h)

theorem returns_getMilestone (hm : w.ledger.milestones.get? key = some m) :
    Returns (getMilestone key) w m := returns_read (ExecutionLedger.getMilestone_eq_ok.mpr hm)

theorem returns_getExecution (hm : w.ledger.milestones.get? key = some m)
    (he : m.execution = some e) : Returns (getExecution key) w e :=
  (returns_getMilestone hm).bind (returns_lift (MilestoneRows.getExecution_eq_ok.mpr he))

theorem returns_getIntegrity (hm : w.ledger.milestones.get? key = some m)
    (hi : m.integrity = some i) : Returns (getIntegrity key) w i :=
  (returns_getMilestone hm).bind (returns_lift (MilestoneRows.getIntegrity_eq_ok.mpr hi))

theorem returns_require {holds : Prop} [Decidable holds] (h : holds) :
    Returns (require holds failure) w () := by
  unfold require
  rw [if_pos h]
  exact returns_pure

theorem always_check {Q : Except (Option ControllerFailure) Unit → World → Prop}
    (interrupted : ∀ a, Interrupted a → Q a w) (h : Q (.ok ()) w) : Always check w Q := by
  refine always_bind (always_next (interrupted _ (.inl rfl)) fun event => ?_)
  cases event with
  | true => exact always_pure h
  | false => exact always_fail (interrupted _ (.inr rfl))

theorem always_check_bind {f : Unit → Controller β}
    (interrupted : ∀ a, Interrupted a → Q a w) (h : Always (f ()) w Q) :
    Always (check >>= f) w Q := by
  refine always_bind (always_check (fun a stopped => ?_) h)
  obtain rfl | rfl := stopped
  · exact interrupted _ (.inl rfl)
  · exact interrupted _ (.inr rfl)

theorem always_load_bind {f : ExecutionCapsule → Controller β}
    (working : Working host w.ledger key m e c)
    (interrupted : ∀ a, Interrupted a → Q a w) (h : Always (f c) w Q) :
    Always (loadDurableCapsule host key e >>= f) w Q := by
  refine always_bind (always_check_bind (fun a stopped => ?_) ?_)
  · obtain rfl | rfl := stopped
    · exact interrupted _ (.inl rfl)
    · exact interrupted _ (.inr rfl)
  · rw [working.capsule]
    exact (returns_require working.key).always_bind (always_pure h)

theorem always_transact_bind {f : Unit → Controller β}
    (done : w.ledger.perform host op = .ok L')
    (interrupted : ∀ a, Interrupted a → Q a w) (h : Always (f ()) { w with ledger := L' } Q) :
    Always (transact host op >>= f) w Q := by
  refine always_bind (always_check_bind (fun a stopped => ?_)
    ((returns_read done).always_bind (always_update h)))
  obtain rfl | rfl := stopped
  · exact interrupted _ (.inl rfl)
  · exact interrupted _ (.inr rfl)

theorem uncertain_rows_valid {leases : Table String WorkspaceLease}
    (h : m.valid host leases key) (he : m.execution = some e) (planned : e.status = .planned)
    (starting : m.state = .starting) (bound : m.integrity.isSome)
    (owns : ownsWorkspace leases key.runId e.workspacePath) :
    MilestoneRows.valid host leases key
      { m with execution := some { e with status := .uncertainPreIdentity } } := by
  simp only [MilestoneRows.valid, he, MilestoneRows.executionValid, MilestoneRows.statusValid,
    planned, MilestoneRows.plannedValid, MilestoneRows.uncertainValid, MilestoneRows.begunValid,
    Bool.and_eq_true] at h ⊢
  obtain ⟨⟨⟨⟨app, -⟩, ⟨-, thread⟩⟩, events⟩, profile⟩ := h
  refine ⟨⟨⟨⟨app, ?_⟩, thread, decide_eq_true starting⟩, events⟩, ?_⟩
  · rw [bound, owns]
    rfl
  · unfold MilestoneRows.integrityValid at profile ⊢
    rw [planned] at profile
    exact profile

/-- A start at a marked thread start records that its identity is uncertain, and says so. -/
theorem start_at_threadStart (good : w.Good host direct)
    (hm : w.ledger.milestones.get? key = some m) (he : m.execution = some e)
    (boundary : e.AtBoundary .startThread) :
    Always (start host key env) w fun a w' => w'.crossings = w.crossings ∧ (Interrupted a ∨
      (a = .error (some (.uncertainPreIdentity
          "prior SDK start crossed the durable external-call boundary")) ∧
        ∃ e', w'.ledger.execution? key = some e' ∧ e'.status = .uncertainPreIdentity)) := by
  obtain ⟨planned, marked, thread⟩ := boundary
  have past : e.checkpoint ≠ .capsulePlanned := by
    rw [marked]
    decide
  have active : ¬ e.status.isTerminal := by
    rw [planned]
    decide
  obtain ⟨c, working⟩ := good.working hm he (MilestoneRows.holds_of_planned planned past)
  have valid := ExecutionLedger.valid_iff.mp good.valid key m hm
  obtain ⟨place, bound⟩ := good.placed key m hm fun e' he' => by
    rwa [Option.some.inj (he'.symm.trans he)]
  have starting : m.state = .starting := by
    obtain ⟨-, -, unmarked⟩ | ⟨starting, -⟩ := place
    · exact absurd marked (unmarked e he)
    · exact starting
  have uncertain : m.call host w.ledger.leases key .recordPreIdentityUncertainty =
      .ok { m with execution := some { e with status := .uncertainPreIdentity } } := by
    show m.recordPreIdentityUncertainty key = _
    unfold MilestoneRows.recordPreIdentityUncertainty
    rw [MilestoneRows.openExecution_eq_ok.mpr ⟨he, active⟩, ok_bind,
      ensure_of (MilestoneRows.atThreadStart_iff.mpr ⟨planned, marked, thread⟩), ok_bind]
    rfl
  have owns : ownsWorkspace w.ledger.leases key.runId e.workspacePath := by
    unfold ownsWorkspace
    rw [working.path, working.lease]
    exact decide_eq_true (congrArg ExecutionKey.runId working.key)
  have row := uncertain_rows_valid valid he planned starting (bound e he marked) owns
  have done := ExecutionLedger.perform_call good.valid hm uncertain row
  have interrupted : ∀ a : Except (Option ControllerFailure) Unit, Interrupted a →
      w.crossings = w.crossings ∧ (Interrupted a ∨ (a = .error (some (.uncertainPreIdentity
          "prior SDK start crossed the durable external-call boundary")) ∧
        ∃ e', w.ledger.execution? key = some e' ∧ e'.status = .uncertainPreIdentity)) :=
    fun a stopped => ⟨rfl, .inl stopped⟩
  refine (returns_getExecution hm he).always_bind (always_load_bind working interrupted ?_)
  rw [planned]
  dsimp only
  rw [if_pos marked]
  exact always_transact_bind done interrupted
    (always_fail ⟨rfl, .inr ⟨rfl, _, ExecutionLedger.execution?_put_self hm, rfl⟩⟩)

theorem resume_at_threadStart (hm : w.ledger.milestones.get? key = some m)
    (he : m.execution = some e) (boundary : e.AtBoundary .startThread) :
    Refuses (resume host key env) w
      (.controllerError "execution has no durable SDK identity; use start") := by
  refine (returns_getExecution hm he).always_bind ?_
  rw [boundary.1]
  have absent : ¬ e.threadId.isSome := by
    rw [boundary.2.2]
    decide
  refine always_bind (Scripted.Always.mono (Q := fun a w' => w' = w ∧ a = .error (some
    (.controllerError "execution has no durable SDK identity; use start"))) ?_ ?_)
  · unfold require
    rw [if_neg absent]
    exact always_fail ⟨rfl, rfl⟩
  · rintro _ _ ⟨rfl, rfl⟩
    exact ⟨rfl, .inr rfl⟩

/-- An execution whose thread identity is uncertain is never resumed; a start returns it. -/
theorem resume_uncertain (hm : w.ledger.milestones.get? key = some m) (he : m.execution = some e)
    (uncertain : e.status = .uncertainPreIdentity) : Refuses (resume host key env) w
      (.uncertainPreIdentity "execution has uncertain pre-identity transport state") := by
  refine (returns_getExecution hm he).always_bind ?_
  rw [uncertain]
  exact always_fail ⟨rfl, .inr rfl⟩

theorem start_uncertain (good : w.Good host direct) (hm : w.ledger.milestones.get? key = some m)
    (he : m.execution = some e) (uncertain : e.status = .uncertainPreIdentity) :
    Always (start host key env) w fun a w' => w' = w ∧ (Interrupted a ∨ a = .ok ()) := by
  have past := good.leased.advanced key m hm e he (.inl (by rw [uncertain]; decide))
  have holds : e.holdsWorkspace :=
    Execution.holdsWorkspace_iff.mpr ⟨by rw [uncertain]; decide, past⟩
  obtain ⟨c, working⟩ := good.working hm he holds
  refine (returns_getExecution hm he).always_bind
    (always_load_bind working (fun a stopped => ⟨rfl, .inl stopped⟩) ?_)
  rw [uncertain]
  exact always_pure ⟨rfl, .inr rfl⟩

theorem start_at_turn (good : w.Good host direct) (hm : w.ledger.milestones.get? key = some m)
    (he : m.execution = some e) (started : e.status = .threadStarted) :
    Refuses (start host key env) w
      (.resumeRequired "execution already has a durable SDK identity; use resume") := by
  obtain ⟨c, working⟩ := good.working hm he
    ((good.leased.advanced key m hm).holds_of_started he started)
  refine (returns_getExecution hm he).always_bind
    (always_load_bind working (fun a stopped => ⟨rfl, .inl stopped⟩) ?_)
  rw [started]
  exact always_fail ⟨rfl, .inr rfl⟩

/-- A resume at a marked turn says that the turn is uncertain, once its profile is bound again. -/
theorem resume_at_turn (good : w.Good host direct) (hm : w.ledger.milestones.get? key = some m)
    (he : m.execution = some e) (hi : m.integrity = some i) (boundary : e.AtBoundary .runTurn)
    (compatible : env.native.nativeCompatibilitySha256 = i.nativeCompatibilitySha256)
    (permitted : (i.effectivePermission.meet env.native.effectivePermission).isSome) :
    Refuses (resume host key env) w (.uncertainTurn
      "SDK turn crossed the external-call boundary without a durable response") := by
  obtain ⟨started, thread, turn, marked⟩ := boundary
  obtain ⟨effective, hmeet⟩ := Option.isSome_iff_exists.mp permitted
  obtain ⟨c, working⟩ := good.working hm he
    ((good.leased.advanced key m hm).holds_of_started he started)
  have active : ¬ e.status.isTerminal := by
    rw [started]
    decide
  have interrupted : ∀ a : Except (Option ControllerFailure) Unit, Interrupted a →
      w.crossings = w.crossings ∧ (Interrupted a ∨ a = .error (some (.uncertainTurn
        "SDK turn crossed the external-call boundary without a durable response"))) :=
    fun a stopped => ⟨rfl, .inl stopped⟩
  have rebound : m.call host w.ledger.leases key (rebindNative env.native) =
      .ok { m with integrity := some { i with
        nativeProfileSha256 := env.native.nativeProfileSha256
        effectivePermission := effective } } := by
    show m.rebindNativeProfileForResume key env.native.nativeProfileSha256
      env.native.nativeCompatibilitySha256 env.native.effectivePermission = _
    unfold MilestoneRows.rebindNativeProfileForResume
    rw [MilestoneRows.openExecution_eq_ok.mpr ⟨he, active⟩, ok_bind,
      ensure_of (ExecutionLedger.hasThread_of thread started), ok_bind,
      MilestoneRows.getIntegrity_eq_ok.mpr hi, ok_bind, ensure_of compatible.symm, ok_bind, hmeet]
    rfl
  have done := ExecutionLedger.perform_call good.valid hm rebound
    (ExecutionLedger.rebound_valid (ExecutionLedger.valid_iff.mp good.valid key m hm) he hi rfl rfl)
  refine (returns_getExecution hm he).always_bind ?_
  rw [started]
  refine (returns_require thread).always_bind (always_load_bind working interrupted ?_)
  refine always_check_bind interrupted ((returns_getIntegrity hm hi).always_bind ?_)
  refine always_check_bind interrupted (always_bind (always_rescue ?_))
  refine always_check_bind (fun a stopped => ?_) ((returns_read done).always_bind (always_update ?_))
  · obtain rfl | rfl := stopped
    · exact interrupted _ (.inl rfl)
    · exact always_fail (interrupted _ (.inr rfl))
  · refine always_check_bind (fun a stopped => ⟨rfl, .inl stopped⟩) ?_
    rw [if_neg (by rw [turn]; decide), if_pos marked]
    exact always_fail ⟨rfl, .inr rfl⟩

end CodexFlow.Executions
