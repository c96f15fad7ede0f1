import CodexFlow.Executions.Outcomes

/-!
# The verdict and a crash

Once the worker's turn has returned, the controller records the turn and then its verdict, and may
die before either write. A resume past the durable turn observes the workspace again, but not the
controller's own files: their comparison is known only to the process that ran the turn. So a crash
between the two writes loses that one check, and no other.
-/

namespace CodexFlow.Executions

open Checked

/-! ### The two writes -/

/-- What the worker did during its turn, as the controller sees it afterwards. -/
structure Turn where
  turn : TurnObservation
  /-- The comparison of the controller's files, made before the turn is recorded. -/
  state : ControllerStateOutcome
  observations : Observations
deriving DecidableEq

/-- Where the process dies once `run_turn` has returned. -/
inductive CrashPoint where
  | beforeTurn
  | beforeTerminal
  /-- After the terminal write, or not at all. -/
  | afterTerminal
deriving DecidableEq

namespace ExecutionLedger

variable (host : Host) (L : ExecutionLedger) (key : ExecutionKey)

/-- `_execute_turn_and_finish` from the return of `run_turn` on. -/
def afterTurn (t : Turn) (crash : CrashPoint) : ExecutionLedger :=
  if crash = .beforeTurn then L
  else match L.perform host (.call key (.recordTurn t.turn)) with
    | .error _ => L
    | .ok L' =>
      if crash = .beforeTerminal then L' else L'.finishTurn host key t.state t.observations

/-- One call of `_resume`: what its process meets. -/
structure Resume where
  /-- The checks before the native profile is bound again return. -/
  clean : Bool
  profile : Sha256
  compatibility : Sha256
  candidate : NativePermissionAuthority
  /-- What the validation command comes to this time. -/
  validation : ValidationObservation
  /-- The process dies before its terminal write. -/
  crash : Bool
deriving DecidableEq

/-- `_resume` of an execution whose turn was called. The workspace is as the worker left it, and no
comparison of the controller's files is made. -/
def resume (o : Observations) (r : Resume) : ExecutionLedger :=
  match L.execution? key with
  | none => L
  | some e =>
    if e.status ≠ .threadStarted ∨ ¬ r.clean then L
    else match L.perform host
        (.call key (.rebindNativeProfileForResume r.profile r.compatibility r.candidate)) with
      | .error _ => L
      | .ok L' =>
        -- without a durable turn the marker raises `UncertainTurn`
        if e.turnId = none ∨ r.crash then L'
        else L'.finishTurn host key .unchanged { o with validation := r.validation }

def resumes (o : Observations) (attempts : List Resume) : ExecutionLedger :=
  attempts.foldl (fun L r => L.resume host key o r) L

end ExecutionLedger

/-! ### The attempt that reaches its verdict -/

/-- The authority that a resume binds; `none` is refused. -/
def ExecutionIntegrity.rebound (i : ExecutionIntegrity) (r : ExecutionLedger.Resume) :
    Option ExecutionIntegrity :=
  if i.nativeCompatibilitySha256 = r.compatibility then
    (i.effectivePermission.meet r.candidate).map fun effective =>
      { i with nativeProfileSha256 := r.profile, effectivePermission := effective }
  else none

/-- The first attempt that lives up to its terminal write. -/
def ExecutionIntegrity.reaching (i : ExecutionIntegrity) :
    List ExecutionLedger.Resume → Option ExecutionLedger.Resume
  | [] => none
  | r :: rest =>
    match if r.clean then i.rebound r else none with
    | none => i.reaching rest
    | some i' => if r.crash then i'.reaching rest else some r

/-- The ledger takes the observation: it is of the execution's thread, with its events numbered. -/
def TurnObservation.accepted (t : TurnObservation) (e : Execution) : Bool :=
  e.threadId = some t.threadId && t.rows.map (·.sequence) = List.range t.rows.length

namespace ExecutionLedger

variable {host : Host} {L L' : ExecutionLedger} {key : ExecutionKey} {m m' : MilestoneRows}
  {e : Execution} {i : ExecutionIntegrity} {o : Observations} {r : Resume}
  {attempts : List Resume}

/-- The turn of the direct route is called and has not been recorded. -/
structure TurnCalled (host : Host) (L : ExecutionLedger) (key : ExecutionKey) (m : MilestoneRows)
    (e : Execution) (i : ExecutionIntegrity) : Prop where
  valid : L.valid host
  row : L.milestones.get? key = some m
  execution : m.execution = some e
  integrity : m.integrity = some i
  direct : m.appNative = none
  started : e.status = .threadStarted
  fresh : e.turnId = none
  marked : e.turnOutput = some turnStartingMarker

theorem perform_call_ok {c : Call} (hm : L.milestones.get? key = some m)
    (h : L.perform host (.call key c) = .ok L') :
    ∃ m', m.call host L.leases key c = .ok m' ∧ L' = L.put key m' ∧ L'.valid host := by
  obtain ⟨-, hbody, valid⟩ := perform_ok h
  obtain ⟨m₀, m', hm₀, hcall, rfl⟩ := onRows_ok hbody
  obtain rfl := Option.some.inj (hm₀.symm.trans hm)
  exact ⟨m', hcall, rfl, valid⟩

/-! ### A resume -/

theorem rebound_valid {leases : Table String WorkspaceLease} {i' : ExecutionIntegrity}
    (h : m.valid host leases key) (he : m.execution = some e) (hi : m.integrity = some i)
    (terminal : i'.terminal = i.terminal) (turn : i'.turnStarted = i.turnStarted) :
    MilestoneRows.valid host leases key { m with integrity := some i' } := by
  simp only [MilestoneRows.valid, he, MilestoneRows.executionValid, MilestoneRows.begunValid, hi,
    Option.all_some, MilestoneRows.integrityValid] at h ⊢
  rw [terminal, turn]
  exact h

theorem rebound_some {i' : ExecutionIntegrity} (h : i.rebound r = some i') :
    i.nativeCompatibilitySha256 = r.compatibility ∧
      ∃ effective, i.effectivePermission.meet r.candidate = some effective ∧
        i' = { i with nativeProfileSha256 := r.profile, effectivePermission := effective } := by
  unfold ExecutionIntegrity.rebound at h
  split_ifs at h with same
  obtain ⟨effective, hmeet, rfl⟩ := Option.map_eq_some_iff.mp h
  exact ⟨same, effective, hmeet, rfl⟩

theorem hasThread_of (thread : e.threadId.isSome) (started : e.status = .threadStarted) :
    MilestoneRows.hasThread e := by
  simp [MilestoneRows.hasThread, thread, started]

/-- The call of the ledger that binds the profile again. -/
abbrev rebind (r : Resume) : Call :=
  .rebindNativeProfileForResume r.profile r.compatibility r.candidate

theorem perform_rebind {i' : ExecutionIntegrity} (ready : TurnDurable host L key m e i)
    (h : i.rebound r = some i') :
    L.perform host (.call key (rebind r)) =
      .ok (L.put key { m with integrity := some i' }) := by
  have valid := valid_iff.mp ready.valid key m ready.row
  have thread := (started_valid valid ready.execution ready.started).1
  have active : ¬ e.status.isTerminal := by
    rw [ready.started]
    decide
  obtain ⟨same, effective, hmeet, rfl⟩ := rebound_some h
  refine perform_call ready.valid ready.row ?_
    (rebound_valid valid ready.execution ready.integrity rfl rfl)
  show m.rebindNativeProfileForResume key r.profile r.compatibility r.candidate = _
  unfold MilestoneRows.rebindNativeProfileForResume
  rw [MilestoneRows.openExecution_eq_ok.mpr ⟨ready.execution, active⟩, ok_bind,
    ensure_of (hasThread_of thread ready.started), ok_bind,
    MilestoneRows.getIntegrity_eq_ok.mpr ready.integrity, ok_bind, ensure_of same, ok_bind, hmeet]
  rfl

theorem perform_rebind_none (hm : L.milestones.get? key = some m)
    (hi : m.integrity = some i) (h : i.rebound r = none) :
    ∃ error, L.perform host (.call key (rebind r)) = .error error := by
  cases hperform : L.perform host (.call key (rebind r)) with
  | error error => exact ⟨error, rfl⟩
  | ok L' =>
    obtain ⟨m', hcall, -, -⟩ := perform_call_ok hm hperform
    change m.rebindNativeProfileForResume key r.profile r.compatibility r.candidate = _ at hcall
    simp only [MilestoneRows.rebindNativeProfileForResume, checks_ok,
      MilestoneRows.getIntegrity_eq_ok] at hcall
    obtain ⟨_, -, -, i', hi', same, hmeet⟩ := hcall
    obtain rfl := Option.some.inj (hi'.symm.trans hi)
    unfold ExecutionIntegrity.rebound at h
    rw [if_pos same, Option.map_eq_none_iff] at h
    rw [h] at hmeet
    cases hmeet

/-- A resume of a durable turn that the rebind stops leaves the ledger as it is. -/
theorem resume_stopped (ready : TurnDurable host L key m e i)
    (h : (if r.clean then i.rebound r else none) = none) : L.resume host key o r = L := by
  have he : L.execution? key = some e := execution?_eq_some.mpr ⟨m, ready.row, ready.execution⟩
  unfold resume
  rw [he]
  dsimp only
  by_cases stopped : e.status ≠ .threadStarted ∨ ¬ r.clean
  · exact if_pos stopped
  · rw [if_neg stopped]
    rw [not_or, not_not, not_not] at stopped
    rw [if_pos stopped.2] at h
    obtain ⟨error, hperform⟩ : ∃ error, L.perform host (.call key (rebind r)) = .error error :=
      perform_rebind_none ready.row ready.integrity h
    rw [hperform]

theorem resume_bound {i' : ExecutionIntegrity} (ready : TurnDurable host L key m e i)
    (h : (if r.clean then i.rebound r else none) = some i') :
    L.resume host key o r =
      if r.crash then L.put key { m with integrity := some i' }
      else (L.put key { m with integrity := some i' }).finishTurn host key .unchanged
        { o with validation := r.validation } := by
  have he : L.execution? key = some e := execution?_eq_some.mpr ⟨m, ready.row, ready.execution⟩
  split_ifs at h with clean
  have entered : ¬ (e.status ≠ .threadStarted ∨ ¬ r.clean) := by
    rw [not_or, not_not, not_not]
    exact ⟨ready.started, clean⟩
  have turn : e.turnId ≠ none := Option.isSome_iff_ne_none.mp ready.turn
  unfold resume
  rw [he]
  dsimp only
  rw [if_neg entered, perform_rebind ready h]
  simp only [turn, false_or]

theorem TurnDurable.rebound {i' : ExecutionIntegrity} (ready : TurnDurable host L key m e i)
    (h : (if r.clean then i.rebound r else none) = some i') :
    TurnDurable host (L.put key { m with integrity := some i' }) key
      { m with integrity := some i' } e i' ∧ i'.gitBefore = i.gitBefore := by
  split_ifs at h
  obtain ⟨-, effective, -, rfl⟩ := rebound_some h
  have valid := valid_iff.mp ready.valid key m ready.row
  have row : MilestoneRows.valid host L.leases key { m with
      integrity := some { i with
        nativeProfileSha256 := r.profile, effectivePermission := effective } } :=
    rebound_valid valid ready.execution ready.integrity rfl rfl
  exact ⟨⟨valid_put ready.valid row, Table.get?_set_self ready.row _, ready.execution, rfl,
    ready.direct, ready.started, ready.turn⟩, rfl⟩

theorem resumes_idle (he : L.execution? key = some e) (idle : e.status ≠ .threadStarted) :
    L.resumes host key o attempts = L := by
  induction attempts with
  | nil => rfl
  | cons r rest ih =>
    have same : L.resume host key o r = L := by
      unfold resume
      rw [he]
      exact if_pos (.inl idle)
    show (L.resume host key o r).resumes host key o rest = L
    rw [same]
    exact ih

theorem not_completed_of_started (hm : L.milestones.get? key = some m) (he : m.execution = some e)
    (started : e.status = .threadStarted) : ¬ L.completed key := by
  simp [completed, hm, he, started]

/-- The resumes of a durable turn complete the execution when the one that reaches its terminal
write finds a workspace that every check accepts. -/
theorem resumes_completed (ready : TurnDurable host L key m e i) :
    (L.resumes host key o attempts).completed key ↔
      ∃ r, i.reaching attempts = some r ∧
        ({ o with validation := r.validation } : Observations).accepts e.protectedBefore
          i.gitBefore .unchanged ∧
        ¬ (e.turnOutput.getD .empty).outcomeFailed := by
  induction attempts generalizing L m i with
  | nil =>
    have open_ := not_completed_of_started ready.row ready.execution ready.started
    exact ⟨fun h => absurd h open_, fun ⟨r, h, _⟩ => by cases h⟩
  | cons r rest ih =>
    show ((L.resume host key o r).resumes host key o rest).completed key ↔ _
    cases h : if r.clean then i.rebound r else none with
    | none =>
      rw [resume_stopped ready h, ih ready]
      simp only [ExecutionIntegrity.reaching, h]
    | some i' =>
      obtain ⟨ready', sameGit⟩ := ready.rebound h
      rw [resume_bound ready h]
      simp only [ExecutionIntegrity.reaching, h]
      cases crash : r.crash with
      | true =>
        simp only [if_true]
        rw [ih ready', sameGit]
      | false =>
        simp only [Bool.false_eq_true, if_false, Option.some.injEq, exists_eq_left']
        have ended : ∃ e', ((L.put key { m with integrity := some i' }).finishTurn host key
            .unchanged { o with validation := r.validation }).execution? key = some e' ∧
              e'.status ≠ .threadStarted := by
          rw [finishTurn_eq ready', execution?_put_self ready'.row]
          refine ⟨_, rfl, ?_⟩
          unfold Execution.ended
          dsimp only
          split_ifs <;> decide
        obtain ⟨e', he', idle⟩ := ended
        rw [resumes_idle he' idle, finishTurn_completed ready', finish_completes, sameGit]

/-! ### A turn that is not durable -/

theorem resumes_marked (hm : L.milestones.get? key = some m) (he : m.execution = some e)
    (started : e.status = .threadStarted) (fresh : e.turnId = none) :
    ¬ (L.resumes host key o attempts).completed key := by
  induction attempts generalizing L m with
  | nil => exact not_completed_of_started hm he started
  | cons r rest ih =>
    show ¬ ((L.resume host key o r).resumes host key o rest).completed key
    have hexec : L.execution? key = some e := execution?_eq_some.mpr ⟨m, hm, he⟩
    unfold resume
    rw [hexec]
    dsimp only
    by_cases stopped : e.status ≠ .threadStarted ∨ ¬ r.clean
    · rw [if_pos stopped]
      exact ih hm he
    · rw [if_neg stopped]
      cases hperform : L.perform host (.call key (rebind r)) with
      | error error => exact ih hm he
      | ok L' =>
        obtain ⟨m', hcall, rfl, -⟩ := perform_call_ok hm hperform
        obtain ⟨_, i', effective, -, -, -, rfl⟩ := MilestoneRows.rebindNativeProfileForResume_ok hcall
        dsimp only
        rw [if_pos (.inl fresh)]
        exact ih (Table.get?_set_self hm _) he

/-! ### The turn's own process -/

def turnRows (m : MilestoneRows) (e : Execution) (t : TurnObservation) : MilestoneRows :=
  { m with
    events := t.rows
    execution := some { e with
      checkpoint := .turnDurable, turnId := some t.turnId, turnOutput := some t.output } }

theorem TurnCalled.turnStarted (called : TurnCalled host L key m e i) : i.turnStarted := by
  obtain ⟨-, -, -, -, -, -, integrity⟩ := started_valid
    (valid_iff.mp called.valid key m called.row) called.execution called.started
  rw [called.integrity, Option.all_some] at integrity
  simp only [MilestoneRows.integrityValid, Bool.and_eq_true, called.marked] at integrity
  simpa using integrity.2

theorem turnRows_valid {t : TurnObservation} (called : TurnCalled host L key m e i)
    (accepted : t.accepted e) : (turnRows m e t).valid host L.leases key := by
  obtain ⟨thread, running, -, -, owns, -, -⟩ := started_valid
    (valid_iff.mp called.valid key m called.row) called.execution called.started
  have started := called.turnStarted
  simp only [TurnObservation.accepted, Bool.and_eq_true, decide_eq_true_eq] at accepted
  simp [MilestoneRows.valid, turnRows, MilestoneRows.executionValid, MilestoneRows.begunValid,
    MilestoneRows.statusValid, MilestoneRows.startedValid, MilestoneRows.eventsValid,
    MilestoneRows.integrityValid, called.direct, called.integrity, called.started, thread, running,
    owns, started, accepted.2]

theorem perform_recordTurn {t : TurnObservation} (called : TurnCalled host L key m e i)
    (accepted : t.accepted e) :
    L.perform host (.call key (.recordTurn t)) = .ok (L.put key (turnRows m e t)) ∧
      TurnDurable host (L.put key (turnRows m e t)) key (turnRows m e t)
        { e with
          checkpoint := .turnDurable, turnId := some t.turnId, turnOutput := some t.output } i := by
  have row := turnRows_valid called accepted
  have thread := (started_valid (valid_iff.mp called.valid key m called.row) called.execution
    called.started).1
  have active : ¬ e.status.isTerminal := by
    rw [called.started]
    decide
  simp only [TurnObservation.accepted, Bool.and_eq_true, decide_eq_true_eq] at accepted
  refine ⟨perform_call called.valid called.row ?_ row, valid_put called.valid row,
    Table.get?_set_self called.row _, rfl, called.integrity, called.direct, called.started, rfl⟩
  show m.recordTurn key t = _
  unfold MilestoneRows.recordTurn
  rw [MilestoneRows.openExecution_eq_ok.mpr ⟨called.execution, active⟩, ok_bind,
    ensure_of (hasThread_of thread called.started), ok_bind, ensure_of accepted.1, ok_bind,
    MilestoneRows.getIntegrity_eq_ok.mpr called.integrity, ok_bind, called.fresh]
  dsimp only
  rw [ensure_of ⟨called.turnStarted, called.marked⟩]
  rfl

theorem perform_recordTurn_refused {t : TurnObservation} (called : TurnCalled host L key m e i)
    (refused : ¬ t.accepted e) : ∃ error, L.perform host (.call key (.recordTurn t)) = .error error := by
  cases hperform : L.perform host (.call key (.recordTurn t)) with
  | error error => exact ⟨error, rfl⟩
  | ok L' =>
    obtain ⟨m', hcall, rfl, valid⟩ := perform_call_ok called.row hperform
    obtain ⟨e₀, i₀, he, -, -, thread, -, rest⟩ := MilestoneRows.recordTurn_ok hcall
    obtain rfl := Option.some.inj (he.symm.trans called.execution)
    obtain ⟨turn, -, -⟩ | ⟨-, -, rfl⟩ := rest
    · rw [called.fresh] at turn
      cases turn
    · have row := valid_iff.mp valid key _ (Table.get?_set_self called.row _)
      have events := (started_valid row rfl called.started).2.2.2.2.2.1
      refine absurd ?_ refused
      simp only [TurnObservation.accepted, thread, Bool.and_eq_true, decide_eq_true_eq, true_and]
      simpa [MilestoneRows.eventsValid] using events

/-! ### The law of the verdict -/

/-- The run without a crash ends failed, and an integrity check is among the reasons. -/
def FailsIntegrity (host : Host) (L : ExecutionLedger) (key : ExecutionKey) (e : Execution)
    (i : ExecutionIntegrity) (t : Turn) : Prop :=
  (∃ e', (L.afterTurn host key t .afterTerminal).execution? key = some e' ∧ e'.status = .failed) ∧
    ¬ t.observations.intact e.protectedBefore i.gitBefore t.state

/-- What fails for integrity without a crash is not completed by resumes after one. -/
def VerdictSurvives (host : Host) (L : ExecutionLedger) (key : ExecutionKey) (e : Execution)
    (i : ExecutionIntegrity) (t : Turn) (crash : CrashPoint) (attempts : List Resume) : Prop :=
  FailsIntegrity host L key e i t →
    ¬ ((L.afterTurn host key t crash).resumes host key t.observations attempts).completed key

/-- The controller's own files changed during an otherwise acceptable turn, and the crash let the
process die between its two writes, before a resume that reached its own. -/
def Forgotten (e : Execution) (i : ExecutionIntegrity) (t : Turn) (crash : CrashPoint)
    (attempts : List Resume) : Prop :=
  crash = .beforeTerminal ∧ t.turn.accepted e ∧ t.state ≠ .unchanged ∧
    ¬ t.turn.output.outcomeFailed ∧
    ∃ r, i.reaching attempts = some r ∧
      ({ t.observations with validation := r.validation } : Observations).accepts e.protectedBefore
        i.gitBefore .unchanged

theorem afterTurn_refused {t : Turn} {crash : CrashPoint} (called : TurnCalled host L key m e i)
    (refused : ¬ t.turn.accepted e) : L.afterTurn host key t crash = L := by
  obtain ⟨error, hperform⟩ := perform_recordTurn_refused called refused
  unfold afterTurn
  rw [hperform]
  exact ite_self _

/-- The run without a crash ends failed when some check does. -/
theorem failsIntegrity_of {t : Turn} (called : TurnCalled host L key m e i)
    (accepted : t.turn.accepted e)
    (broken : ¬ t.observations.intact e.protectedBefore i.gitBefore t.state) :
    FailsIntegrity host L key e i t := by
  obtain ⟨hperform, ready⟩ := perform_recordTurn called accepted
  refine ⟨?_, broken⟩
  have open_ : (finish { e with
      checkpoint := .turnDurable, turnId := some t.turn.turnId
      turnOutput := some t.turn.output } i t.state t.observations).completes = false := by
    refine Bool.eq_false_iff.mpr fun completes => broken ?_
    exact (Observations.accepts_iff.mp (finish_completes.mp completes).1).2.1
  unfold afterTurn
  rw [hperform]
  simp only [reduceCtorEq, if_false]
  rw [finishTurn_eq ready, execution?_put_self ready.row]
  refine ⟨_, rfl, ?_⟩
  unfold Execution.ended
  rw [open_]
  rfl

/-- The verdict of a run survives its crashes and resumes, but for a change of the controller's own
files that only the dead process had seen. -/
theorem verdict_survives_iff {t : Turn} {crash : CrashPoint}
    (called : TurnCalled host L key m e i) :
    VerdictSurvives host L key e i t crash attempts ↔ ¬ Forgotten e i t crash attempts := by
  have he : L.execution? key = some e := execution?_eq_some.mpr ⟨m, called.row, called.execution⟩
  by_cases accepted : t.turn.accepted e
  · obtain ⟨hperform, ready⟩ := perform_recordTurn called accepted
    cases crash with
    | beforeTurn =>
      constructor
      · rintro - ⟨other, -⟩
        cases other
      · rintro - -
        exact resumes_marked called.row called.execution called.started called.fresh
    | afterTerminal =>
      constructor
      · rintro - ⟨other, -⟩
        cases other
      · rintro - ⟨⟨e', he', failed⟩, -⟩
        rw [resumes_idle he' (by rw [failed]; decide)]
        obtain ⟨m', hm', hexec⟩ := execution?_eq_some.mp he'
        simp [completed, hm', hexec, failed]
    | beforeTerminal =>
      have hafter : L.afterTurn host key t .beforeTerminal = L.put key (turnRows m e t.turn) := by
        unfold afterTurn
        rw [hperform]
        rfl
      unfold VerdictSurvives
      rw [hafter, resumes_completed ready]
      constructor
      · rintro survives ⟨-, -, mutated, fine, r, reaches, accepts⟩
        refine survives (failsIntegrity_of called accepted ?_) ⟨r, reaches, accepts, fine⟩
        exact fun intact => mutated intact.2.2.1
      · rintro kept ⟨-, broken⟩ ⟨r, reaches, accepts, fine⟩
        refine kept ⟨rfl, accepted, fun unchanged => broken ?_, fine, r, reaches, accepts⟩
        rw [unchanged]
        exact (Observations.accepts_iff.mp accepts).2.1
  · constructor
    · rintro - ⟨-, accepted', -⟩
      exact accepted accepted'
    · rintro - ⟨⟨e', he', failed⟩, -⟩
      rw [afterTurn_refused called accepted] at he'
      obtain rfl := Option.some.inj (he.symm.trans he')
      rw [called.started] at failed
      cases failed

/-! ### A forgotten change -/

/-- The direct route up to its call of `run_turn`. -/
def calledRun : List Op :=
  leasedRun ++ ([.recordNativeProfile sampleProfile, .claimExecutor, .recordThreadStarting,
    .recordThreadIdentity "thread", .recordGitAuthorityBefore gitSha256, .recordTurnStarting] :
      List Call).map (.call sampleCapsule.key)

theorem calledRun_called : ∃ m e i, TurnCalled sampleHost (after sampleHost calledRun)
    sampleCapsule.key m e i ∧ e.protectedBefore = protectedSha256 ∧ i.gitBefore = gitSha256 := by
  generalize hL : after sampleHost calledRun = L
  have valid : L.valid sampleHost := by
    subst hL
    decide
  have rows : (L.milestones.get? sampleCapsule.key).any fun m =>
      m.execution.any (fun e => e.status = .threadStarted && e.turnId = none &&
        e.turnOutput = some turnStartingMarker && e.protectedBefore = protectedSha256) &&
      m.integrity.any (·.gitBefore = gitSha256) && m.appNative.isNone := by
    subst hL
    decide
  obtain ⟨m, hm, facts⟩ := (Option.any_eq_true ..).mp rows
  simp only [Bool.and_eq_true, Option.any_eq_true, decide_eq_true_eq, Option.isNone_iff_eq_none]
    at facts
  obtain ⟨⟨⟨e, he, ⟨⟨started, fresh⟩, marked⟩, sameProtected⟩, i, hi, sameGit⟩, none_⟩ := facts
  exact ⟨m, e, i, ⟨valid, hm, he, hi, none_, started, fresh, marked⟩, sameProtected, sameGit⟩

/-- A worker that changed the controller's own files and nothing else. -/
def mutatingTurn : Turn where
  turn := ⟨"thread", "turn", some ((sampleResult .completed).toJson sampleHost), []⟩
  state := .mutated
  observations := acceptingObservations

def sampleResume : Resume where
  clean := true
  profile := capsuleSha256
  compatibility := capsuleSha256
  candidate := sampleProfile.effectivePermission
  validation := passedValidation
  crash := false

theorem beforeTurn_survives : ∃ m e i,
    TurnCalled sampleHost (after sampleHost calledRun) sampleCapsule.key m e i ∧
      VerdictSurvives sampleHost (after sampleHost calledRun) sampleCapsule.key e i mutatingTurn
        .beforeTurn [sampleResume] := by
  obtain ⟨m, e, i, called, -, -⟩ := calledRun_called
  refine ⟨m, e, i, called, (verdict_survives_iff called).mpr ?_⟩
  rintro ⟨other, -⟩
  cases other

/-- The run ends failed for the controller's own files; after a crash between the two writes the
resume completes it. -/
theorem mutation_forgotten : ∃ m e i,
    TurnCalled sampleHost (after sampleHost calledRun) sampleCapsule.key m e i ∧
      ¬ VerdictSurvives sampleHost (after sampleHost calledRun) sampleCapsule.key e i mutatingTurn
        .beforeTerminal [sampleResume] := by
  obtain ⟨m, e, i, called, -, -⟩ := calledRun_called
  have fails : (((after sampleHost calledRun).afterTurn sampleHost sampleCapsule.key mutatingTurn
      .afterTerminal).execution? sampleCapsule.key).map (·.status) = some .failed := by
    decide +kernel
  have completes : (((after sampleHost calledRun).afterTurn sampleHost sampleCapsule.key
      mutatingTurn .beforeTerminal).resumes sampleHost sampleCapsule.key acceptingObservations
        [sampleResume]).completed sampleCapsule.key = true := by
    decide +kernel
  obtain ⟨e', he', failed⟩ := Option.map_eq_some_iff.mp fails
  refine ⟨m, e, i, called, fun survives => survives ⟨⟨e', he', failed⟩, ?_⟩ completes⟩
  rintro ⟨-, -, unchanged, -⟩
  cases unchanged

end ExecutionLedger

end CodexFlow.Executions
