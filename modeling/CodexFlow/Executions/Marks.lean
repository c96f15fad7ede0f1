import CodexFlow.Executions.Controller

/-!
# The markers of the external calls

A starting marker is committed before its SDK call, and every later row shows it: only the two
rejections of an authorization take a marker back. The two routes of an execution leave different
rows, and no call but a prepare of an execution that is bound to a profile brings them together.
-/

namespace CodexFlow.Executions

open Checked

variable {host : Host} {leases : Table String WorkspaceLease} {key : ExecutionKey}
  {m m' : MilestoneRows} {e e' : Execution} {call : SdkCall}

/-! ### The rows of one milestone -/

/-- The marker of the call is committed, or the execution is past it. -/
def Execution.Marked (e : Execution) : SdkCall → Prop
  | .startThread => e.status = .planned → e.checkpoint = .threadStarting
  | .runTurn => e.status ≠ .planned ∧
      (e.status = .threadStarted → e.turnId.isSome ∨ e.turnOutput = some turnStartingMarker)

/-- The marker that a ledger call takes back. -/
def Call.clears : Call → Option SdkCall
  | .rejectThreadStartAuthorization => some .startThread
  | .rejectTurnAuthorization => some .runTurn
  | _ => none

namespace MilestoneRows

def Marked (m : MilestoneRows) (call : SdkCall) : Prop := ∃ e, m.execution = some e ∧ e.Marked call

theorem marked_iff (he : m.execution = some e) : m.Marked call ↔ e.Marked call := by
  constructor
  · rintro ⟨_, he', marked⟩
    obtain rfl := Option.some.inj (he.symm.trans he')
    exact marked
  · exact fun marked => ⟨e, he, marked⟩

theorem Marked.of_same (marked : m.Marked call) (same : m'.execution = m.execution) :
    m'.Marked call := by
  obtain ⟨e, he, marked⟩ := marked
  exact ⟨e, same.trans he, marked⟩

theorem Marked.of_write (marked : m.Marked call) (he : m.execution = some e)
    (he' : m'.execution = some e') (keeps : e.Marked call → e'.Marked call) : m'.Marked call :=
  ⟨e', he', keeps ((marked_iff he).mp marked)⟩

/-- A row that is neither planned nor active shows both markers. -/
theorem marked_of_settled (settled : e.status ≠ .planned) (idle : e.status ≠ .threadStarted) :
    e.Marked call := by
  cases call with
  | startThread => exact fun planned => absurd planned settled
  | runTurn => exact ⟨settled, fun started => absurd started idle⟩

theorem not_marked_of_planned (planned : e.status = .planned)
    (unmarked : e.checkpoint ≠ .threadStarting) : ¬ e.Marked call := by
  cases call with
  | startThread => exact fun marked => unmarked (marked planned)
  | runTurn => exact fun marked => marked.1 planned

theorem marked_startThread_of_started (started : e.status = .threadStarted) :
    e.Marked .startThread := fun planned => by
  rw [started] at planned
  cases planned

theorem ended_not_planned {completes : Bool} {result : JsonObject}
    {validation : ValidationObservation} {protectedAfter : Sha256} :
    (e.ended completes result validation protectedAfter).status ≠ .planned := by
  unfold Execution.ended
  cases completes <;> nofun

theorem ended_marked {completes : Bool} {result : JsonObject} {validation : ValidationObservation}
    {protectedAfter : Sha256} : (e.ended completes result validation protectedAfter).Marked call := by
  unfold Execution.ended
  cases completes <;> exact marked_of_settled nofun nofun

/-- Only a rejection takes a marker back. -/
theorem call_marked {c : Call} (h : m.call host leases key c = .ok m')
    (keeps : c.clears ≠ some call) (marked : m.Marked call) : m'.Marked call := by
  cases c with
  | recordNativeProfile p =>
    obtain ⟨e, he, awaits, ⟨rfl, -⟩ | ⟨-, rfl⟩⟩ := recordNativeProfile_ok h
    · exact marked
    · simp only [awaitsRoute, Bool.and_eq_true, decide_eq_true_eq] at awaits
      refine absurd ((marked_iff he).mp marked) (not_marked_of_planned awaits.1 fun starting => ?_)
      exact absurd awaits.2 (by rw [starting]; decide)
  | rebindNativeProfileForResume profile compatibility candidate =>
    obtain ⟨e, i, effective, -, -, -, rfl⟩ := rebindNativeProfileForResume_ok h
    exact marked.of_same rfl
  | claimExecutor =>
    obtain ⟨rfl, -⟩ | ⟨-, -, rfl⟩ := claimExecutor_ok h
    · exact marked
    · exact marked.of_same rfl
  | recordThreadStarting =>
    obtain ⟨e, he, planned, ⟨-, rfl⟩ | ⟨baseline, rfl⟩⟩ := recordThreadStarting_ok h
    · exact marked
    · refine absurd ((marked_iff he).mp marked) (not_marked_of_planned planned ?_)
      rw [baseline]
      decide
  | recordPreIdentityUncertainty =>
    obtain ⟨e, he, -, rfl⟩ := recordPreIdentityUncertainty_ok h
    exact marked.of_write he rfl fun _ => marked_of_settled (by rintro ⟨⟩) (by rintro ⟨⟩)
  | rejectThreadStartAuthorization =>
    obtain ⟨e, he, start, rfl⟩ := rejectThreadStartAuthorization_ok h
    cases call with
    | startThread => exact absurd rfl keeps
    | runTurn =>
      exact absurd (atThreadStart_iff.mp start).1 ((marked_iff he).mp marked).1
  | recordThreadIdentity threadId =>
    obtain ⟨e, he, ⟨-, rfl⟩ | ⟨-, planned, -, -, rfl⟩⟩ := recordThreadIdentity_ok h
    · exact marked
    · cases call with
      | startThread => exact marked.of_write he rfl fun _ => marked_startThread_of_started rfl
      | runTurn => exact absurd planned ((marked_iff he).mp marked).1
  | recordGitAuthorityBefore authority =>
    obtain ⟨rfl, -⟩ := recordGitAuthorityBefore_ok h
    exact marked
  | recordTurnStarting =>
    obtain ⟨e, he, thread, ⟨-, rfl⟩ | ⟨-, -, i, -, rfl⟩⟩ := recordTurnStarting_ok h
    · exact marked
    · refine marked.of_write he rfl fun old => ?_
      cases call with
      | startThread => exact old
      | runTurn => exact ⟨old.1, fun _ => .inr rfl⟩
  | rejectTurnAuthorization =>
    obtain ⟨e, i, he, -, thread, -, -, -, rfl⟩ := rejectTurnAuthorization_ok h
    cases call with
    | startThread =>
      exact marked.of_write he rfl fun _ => marked_startThread_of_started (started_of_hasThread thread)
    | runTurn => exact absurd rfl keeps
  | recordTurn o =>
    obtain ⟨e, i, he, -, thread, -, -, ⟨-, -, rfl⟩ | ⟨-, -, rfl⟩⟩ := recordTurn_ok h
    · exact marked
    · refine marked.of_write he rfl fun old => ?_
      cases call with
      | startThread => exact marked_startThread_of_started (started_of_hasThread thread)
      | runTurn => exact ⟨old.1, fun _ => .inl rfl⟩
  | recordTerminalExecution f =>
    obtain ⟨e, i, he, -, -, -, -, -, rfl⟩ := recordTerminalExecution_ok h
    exact marked.of_write he rfl fun _ => ended_marked
  | prepareAppNative p =>
    obtain ⟨e, he, -, -, ⟨rfl, -⟩ | ⟨-, awaits, -, -, rfl⟩⟩ := prepareAppNative_ok h
    · exact marked
    · simp only [awaitsRoute, Bool.and_eq_true, decide_eq_true_eq] at awaits
      refine absurd ((marked_iff he).mp marked) (not_marked_of_planned awaits.1 fun starting => ?_)
      exact absurd awaits.2 (by rw [starting]; decide)
  | bindAppNative claimToken receipt =>
    obtain ⟨a, -, -, ⟨rfl, -⟩ | ⟨-, -, e, he, planned, -, rfl⟩⟩ := bindAppNative_ok h
    · exact marked
    · cases call with
      | startThread => exact marked.of_write he rfl fun _ => marked_startThread_of_started rfl
      | runTurn => exact absurd planned ((marked_iff he).mp marked).1
  | recordAppNativeResult claimToken identity f =>
    obtain ⟨a, e, -, he, -, -, ⟨rfl, -⟩ | ⟨-, -, -, -, rfl⟩⟩ := recordAppNativeResult_ok h
    · exact marked
    · exact marked.of_write he rfl fun _ => ended_marked
  | cancelExecution queueRefuses =>
    obtain ⟨e, he, -, ⟨rfl, -⟩ | ⟨-, rfl⟩⟩ := cancelExecution_ok h
    · exact marked
    · exact marked.of_write he rfl fun _ => marked_of_settled (by rintro ⟨⟩) (by rintro ⟨⟩)
  | transition target expected =>
    obtain ⟨-, -, -, rfl⟩ := transition_ok h
    exact marked.of_same rfl

/-! ### One route -/

/-- The rows show one route: an execution bound to a profile has no App-native dispatch, and a
dispatch that waits for its host stands at the baseline. -/
structure OneRoute (m : MilestoneRows) : Prop where
  exclusive : m.integrity.isSome → m.appNative = none
  prepared : ∀ e, m.execution = some e → e.status = .planned → m.appNative.isSome →
    e.checkpoint ∈ [.workspaceBaselineDurable, .threadStarting]

/-- The call does not bring the second route to the rows. -/
def Keeps (m : MilestoneRows) : Call → Prop
  | .recordNativeProfile _ => m.integrity.isSome ∨ m.appNative = none
  | .prepareAppNative _ => m.integrity = none
  | _ => True

theorem OneRoute.blank : OneRoute {} := by
  refine ⟨fun profile => ?_, fun e he => ?_⟩
  · cases profile
  · cases he

/-- A call that keeps both routes and their checkpoint. -/
theorem OneRoute.of_write (one : m.OneRoute) (integrity : m'.integrity.isSome → m.integrity.isSome)
    (app : m'.appNative.isSome → m.appNative.isSome)
    (planned : ∀ e', m'.execution = some e' → e'.status = .planned →
      e'.checkpoint ∈ [.workspaceBaselineDurable, .threadStarting] ∨ m.execution = some e') :
    m'.OneRoute := by
  refine ⟨fun profile => ?_, fun e' he' status dispatch => ?_⟩
  · have none_ := one.exclusive (integrity profile)
    refine Option.not_isSome_iff_eq_none.mp fun dispatch => ?_
    have some_ := app dispatch
    rw [none_] at some_
    cases some_
  · obtain past | same := planned e' he' status
    · exact past
    · exact one.prepared e' same status (app dispatch)

theorem call_oneRoute {c : Call} (one : m.OneRoute) (keeps : m.Keeps c)
    (h : m.call host leases key c = .ok m') : m'.OneRoute := by
  cases c with
  | recordNativeProfile p =>
    obtain ⟨e, he, -, ⟨rfl, -⟩ | ⟨none_, rfl⟩⟩ := recordNativeProfile_ok h
    · exact one
    · obtain profile | free := keeps
      · rw [none_] at profile
        cases profile
      · refine ⟨fun _ => free, fun e' _ _ dispatch => ?_⟩
        change m.appNative.isSome at dispatch
        rw [free] at dispatch
        cases dispatch
  | rebindNativeProfileForResume profile compatibility candidate =>
    obtain ⟨e, i, effective, -, -, hi, rfl⟩ := rebindNativeProfileForResume_ok h
    exact one.of_write (fun _ => by rw [hi]; rfl) id fun e' he' _ => .inr he'
  | claimExecutor =>
    obtain ⟨rfl, -⟩ | ⟨-, -, rfl⟩ := claimExecutor_ok h
    · exact one
    · exact one.of_write id id fun e' he' _ => .inr he'
  | recordThreadStarting =>
    obtain ⟨e, he, -, ⟨-, rfl⟩ | ⟨-, rfl⟩⟩ := recordThreadStarting_ok h
    · exact one
    · refine one.of_write id id fun e' he' _ => .inl ?_
      obtain rfl := Option.some.inj he'
      exact List.mem_cons_of_mem _ (List.mem_singleton.mpr rfl)
  | recordPreIdentityUncertainty =>
    obtain ⟨e, he, -, rfl⟩ := recordPreIdentityUncertainty_ok h
    refine one.of_write id id fun e' he' planned => ?_
    obtain rfl := Option.some.inj he'
    cases planned
  | rejectThreadStartAuthorization =>
    obtain ⟨e, he, -, rfl⟩ := rejectThreadStartAuthorization_ok h
    refine one.of_write id id fun e' he' _ => .inl ?_
    obtain rfl := Option.some.inj he'
    exact List.mem_cons_self
  | recordThreadIdentity threadId =>
    obtain ⟨e, he, ⟨-, rfl⟩ | ⟨-, -, -, -, rfl⟩⟩ := recordThreadIdentity_ok h
    · exact one
    · refine one.of_write id id fun e' he' planned => ?_
      obtain rfl := Option.some.inj he'
      cases planned
  | recordGitAuthorityBefore authority =>
    obtain ⟨rfl, -⟩ := recordGitAuthorityBefore_ok h
    exact one
  | recordTurnStarting =>
    obtain ⟨e, he, thread, ⟨-, rfl⟩ | ⟨-, -, i, hi, rfl⟩⟩ := recordTurnStarting_ok h
    · exact one
    · refine one.of_write (fun _ => by rw [hi]; rfl) id fun e' he' planned => ?_
      obtain rfl := Option.some.inj he'
      rw [started_of_hasThread thread] at planned
      cases planned
  | rejectTurnAuthorization =>
    obtain ⟨e, i, he, hi, thread, -, -, -, rfl⟩ := rejectTurnAuthorization_ok h
    refine one.of_write (fun _ => by rw [hi]; rfl) id fun e' he' planned => ?_
    obtain rfl := Option.some.inj he'
    rw [started_of_hasThread thread] at planned
    cases planned
  | recordTurn o =>
    obtain ⟨e, i, he, -, thread, -, -, ⟨-, -, rfl⟩ | ⟨-, -, rfl⟩⟩ := recordTurn_ok h
    · exact one
    · refine one.of_write id id fun e' he' planned => ?_
      obtain rfl := Option.some.inj he'
      rw [started_of_hasThread thread] at planned
      cases planned
  | recordTerminalExecution f =>
    obtain ⟨e, i, he, hi, -, -, -, -, rfl⟩ := recordTerminalExecution_ok h
    refine one.of_write (fun _ => by rw [hi]; rfl) id fun e' he' planned => ?_
    obtain rfl := Option.some.inj he'
    exact absurd planned ended_not_planned
  | prepareAppNative p =>
    obtain ⟨e, he, -, -, ⟨rfl, -⟩ | ⟨-, -, -, -, rfl⟩⟩ := prepareAppNative_ok h
    · exact one
    · refine ⟨fun profile => ?_, fun e' he' _ _ => ?_⟩
      · change m.integrity.isSome at profile
        rw [keeps] at profile
        cases profile
      · obtain rfl := Option.some.inj he'
        exact List.mem_cons_self
  | bindAppNative claimToken receipt =>
    obtain ⟨a, ha, -, ⟨rfl, -⟩ | ⟨-, -, e, he, -, -, rfl⟩⟩ := bindAppNative_ok h
    · exact one
    · refine one.of_write id (fun _ => by rw [ha]; rfl) fun e' he' planned => ?_
      obtain rfl := Option.some.inj he'
      cases planned
  | recordAppNativeResult claimToken identity f =>
    obtain ⟨a, e, ha, he, -, -, ⟨rfl, -⟩ | ⟨-, -, -, -, rfl⟩⟩ := recordAppNativeResult_ok h
    · exact one
    · refine one.of_write id (fun _ => by rw [ha]; rfl) fun e' he' planned => ?_
      obtain rfl := Option.some.inj he'
      exact absurd planned ended_not_planned
  | cancelExecution queueRefuses =>
    obtain ⟨e, he, -, ⟨rfl, -⟩ | ⟨-, rfl⟩⟩ := cancelExecution_ok h
    · exact one
    · refine one.of_write id (fun dispatch => by simpa using dispatch) fun e' he' planned => ?_
      obtain rfl := Option.some.inj he'
      cases planned
  | transition target expected =>
    obtain ⟨-, -, -, rfl⟩ := transition_ok h
    exact one.of_write id id fun e' he' _ => .inr he'

theorem call_profiled {c : Call} (bound : m.integrity.isSome)
    (h : m.call host leases key c = .ok m') : m'.integrity.isSome := by
  cases c with
  | recordNativeProfile p =>
    obtain ⟨e, -, -, ⟨rfl, -⟩ | ⟨-, rfl⟩⟩ := recordNativeProfile_ok h
    · exact bound
    · rfl
  | rebindNativeProfileForResume profile compatibility candidate =>
    obtain ⟨e, i, effective, -, -, -, rfl⟩ := rebindNativeProfileForResume_ok h
    rfl
  | claimExecutor =>
    obtain ⟨rfl, -⟩ | ⟨-, -, rfl⟩ := claimExecutor_ok h <;> exact bound
  | recordThreadStarting =>
    obtain ⟨e, -, -, ⟨-, rfl⟩ | ⟨-, rfl⟩⟩ := recordThreadStarting_ok h <;> exact bound
  | recordPreIdentityUncertainty =>
    obtain ⟨e, -, -, rfl⟩ := recordPreIdentityUncertainty_ok h
    exact bound
  | rejectThreadStartAuthorization =>
    obtain ⟨e, -, -, rfl⟩ := rejectThreadStartAuthorization_ok h
    exact bound
  | recordThreadIdentity threadId =>
    obtain ⟨e, -, ⟨-, rfl⟩ | ⟨-, -, -, -, rfl⟩⟩ := recordThreadIdentity_ok h <;> exact bound
  | recordGitAuthorityBefore authority =>
    obtain ⟨rfl, -⟩ := recordGitAuthorityBefore_ok h
    exact bound
  | recordTurnStarting =>
    obtain ⟨e, -, -, ⟨-, rfl⟩ | ⟨-, -, i, -, rfl⟩⟩ := recordTurnStarting_ok h
    · exact bound
    · rfl
  | rejectTurnAuthorization =>
    obtain ⟨e, i, -, -, -, -, -, -, rfl⟩ := rejectTurnAuthorization_ok h
    rfl
  | recordTurn o =>
    obtain ⟨e, i, -, -, -, -, -, ⟨-, -, rfl⟩ | ⟨-, -, rfl⟩⟩ := recordTurn_ok h <;> exact bound
  | recordTerminalExecution f =>
    obtain ⟨e, i, -, -, -, -, -, -, rfl⟩ := recordTerminalExecution_ok h
    rfl
  | prepareAppNative p =>
    obtain ⟨e, -, -, -, ⟨rfl, -⟩ | ⟨-, -, -, -, rfl⟩⟩ := prepareAppNative_ok h <;> exact bound
  | bindAppNative claimToken receipt =>
    obtain ⟨a, -, -, ⟨rfl, -⟩ | ⟨-, -, e, -, -, -, rfl⟩⟩ := bindAppNative_ok h <;> exact bound
  | recordAppNativeResult claimToken identity f =>
    obtain ⟨a, e, -, -, -, -, ⟨rfl, -⟩ | ⟨-, -, -, -, rfl⟩⟩ := recordAppNativeResult_ok h <;>
      exact bound
  | cancelExecution queueRefuses =>
    obtain ⟨e, -, -, ⟨rfl, -⟩ | ⟨-, rfl⟩⟩ := cancelExecution_ok h <;> exact bound
  | transition target expected =>
    obtain ⟨-, -, -, rfl⟩ := transition_ok h
    exact bound

/-! ### The place of a planned execution -/

/-- Until its thread is known, an execution's milestone is planned with no claim and no marker, or
starting under a claim; and a marked thread start is bound to its profile. -/
def Placed (m : MilestoneRows) : Prop :=
  (∀ e, m.execution = some e → e.status = .planned) →
    ((m.state = .planned ∧ m.executor = false ∧
        ∀ e, m.execution = some e → e.checkpoint ≠ .threadStarting) ∨
      (m.state = .starting ∧ m.executor = true)) ∧
    ∀ e, m.execution = some e → e.checkpoint = .threadStarting → m.integrity.isSome

/-- The call is made where the controller makes it. -/
def Places (m : MilestoneRows) : Call → Prop
  | .recordThreadStarting => m.executor ∧ m.integrity.isSome
  | .transition _ expected => expected = .running
  | _ => True

/-- A call that leaves the milestone's state, its claim and a mark of its thread start. -/
theorem Placed.of_write (placed : m.Placed) (he : m.execution = some e)
    (he' : m'.execution = some e') (state : m'.state = m.state) (claim : m'.executor = m.executor)
    (integrity : m.integrity.isSome → m'.integrity.isSome)
    (planned : e'.status = .planned → e.status = .planned)
    (marks : e'.checkpoint = .threadStarting → e.checkpoint = .threadStarting ∨
      m.executor ∧ m.integrity.isSome) : m'.Placed := by
  intro all
  have only : ∀ e'', m.execution = some e'' → e'' = e := fun e'' h =>
    Option.some.inj (h.symm.trans he)
  have only' : ∀ e'', m'.execution = some e'' → e'' = e' := fun e'' h =>
    Option.some.inj (h.symm.trans he')
  obtain ⟨place, bound⟩ := placed fun e'' h => only e'' h ▸ planned (all e' he')
  refine ⟨place.imp ?_ ?_, fun e'' h marked => ?_⟩
  · rintro ⟨free, unclaimed, unmarked⟩
    refine ⟨state.trans free, claim.trans unclaimed, fun e'' h marked => ?_⟩
    obtain rfl := only' e'' h
    obtain old | ⟨claimed, -⟩ := marks marked
    · exact unmarked e he old
    · rw [unclaimed] at claimed
      cases claimed
  · rintro ⟨starting, claimed⟩
    exact ⟨state.trans starting, claim.trans claimed⟩
  · obtain rfl := only' e'' h
    obtain old | ⟨-, profile⟩ := marks marked
    · exact integrity (bound e he old)
    · exact integrity profile

theorem Placed.of_settled (he' : m'.execution = some e') (settled : e'.status ≠ .planned) :
    m'.Placed := fun planned => absurd (planned e' he') settled

theorem placed_blank : Placed {} :=
  fun _ => ⟨.inl ⟨rfl, rfl, fun _ he => nomatch he⟩, fun _ he => nomatch he⟩

theorem call_placed {c : Call} (placed : m.Placed) (places : m.Places c)
    (h : m.call host leases key c = .ok m') : m'.Placed := by
  cases c with
  | recordNativeProfile p =>
    obtain ⟨e, he, -, ⟨rfl, -⟩ | ⟨-, rfl⟩⟩ := recordNativeProfile_ok h
    · exact placed
    · exact placed.of_write he rfl rfl rfl (fun _ => rfl) id nofun
  | rebindNativeProfileForResume profile compatibility candidate =>
    obtain ⟨e, i, effective, he, thread, -, rfl⟩ := rebindNativeProfileForResume_ok h
    refine .of_settled he ?_
    rw [started_of_hasThread thread]
    decide
  | claimExecutor =>
    obtain ⟨rfl, -⟩ | ⟨-, -, rfl⟩ := claimExecutor_ok h
    · exact placed
    · exact fun planned => ⟨.inr ⟨rfl, rfl⟩, (placed planned).2⟩
  | recordThreadStarting =>
    obtain ⟨e, he, planned, ⟨-, rfl⟩ | ⟨-, rfl⟩⟩ := recordThreadStarting_ok h
    · exact placed
    · exact placed.of_write he rfl rfl rfl id id fun _ => .inr places
  | recordPreIdentityUncertainty =>
    obtain ⟨e, he, -, rfl⟩ := recordPreIdentityUncertainty_ok h
    exact .of_settled rfl nofun
  | rejectThreadStartAuthorization =>
    obtain ⟨e, he, start, rfl⟩ := rejectThreadStartAuthorization_ok h
    exact placed.of_write he rfl rfl rfl id id nofun
  | recordThreadIdentity threadId =>
    obtain ⟨e, he, ⟨-, rfl⟩ | ⟨-, -, -, -, rfl⟩⟩ := recordThreadIdentity_ok h
    · exact placed
    · exact .of_settled rfl nofun
  | recordGitAuthorityBefore authority =>
    obtain ⟨rfl, -⟩ := recordGitAuthorityBefore_ok h
    exact placed
  | recordTurnStarting =>
    obtain ⟨e, he, thread, ⟨-, rfl⟩ | ⟨-, -, i, -, rfl⟩⟩ := recordTurnStarting_ok h
    · exact placed
    · exact .of_settled rfl fun planned => by
        cases (started_of_hasThread thread).symm.trans planned
  | rejectTurnAuthorization =>
    obtain ⟨e, i, he, -, thread, -, -, -, rfl⟩ := rejectTurnAuthorization_ok h
    exact .of_settled rfl fun planned => by
      cases (started_of_hasThread thread).symm.trans planned
  | recordTurn o =>
    obtain ⟨e, i, he, -, thread, -, -, ⟨-, -, rfl⟩ | ⟨-, -, rfl⟩⟩ := recordTurn_ok h
    · exact placed
    · exact .of_settled rfl fun planned => by
        cases (started_of_hasThread thread).symm.trans planned
  | recordTerminalExecution f =>
    obtain ⟨e, i, he, -, -, -, -, -, rfl⟩ := recordTerminalExecution_ok h
    exact .of_settled rfl ended_not_planned
  | prepareAppNative p =>
    obtain ⟨e, he, -, -, ⟨rfl, -⟩ | ⟨-, -, -, -, rfl⟩⟩ := prepareAppNative_ok h
    · exact placed
    · refine fun _ => ⟨.inr ⟨rfl, rfl⟩, fun e' he' marked => ?_⟩
      obtain rfl := Option.some.inj he'
      cases marked
  | bindAppNative claimToken receipt =>
    obtain ⟨a, -, -, ⟨rfl, -⟩ | ⟨-, -, e, he, -, -, rfl⟩⟩ := bindAppNative_ok h
    · exact placed
    · exact .of_settled rfl nofun
  | recordAppNativeResult claimToken identity f =>
    obtain ⟨a, e, -, he, -, -, ⟨rfl, -⟩ | ⟨-, -, -, -, rfl⟩⟩ := recordAppNativeResult_ok h
    · exact placed
    · exact .of_settled rfl ended_not_planned
  | cancelExecution queueRefuses =>
    obtain ⟨e, he, -, ⟨rfl, -⟩ | ⟨-, rfl⟩⟩ := cancelExecution_ok h
    · exact placed
    · exact .of_settled rfl nofun
  | transition target expected =>
    obtain ⟨state, -, -, rfl⟩ := transition_ok h
    obtain rfl : expected = .running := places
    intro planned
    obtain ⟨free, -⟩ | ⟨starting, -⟩ := (placed planned).1
    · cases free.symm.trans state
    · cases starting.symm.trans state

end MilestoneRows

/-! ### The ledger -/

/-- The marker that an operation takes back. -/
def Op.clears : Op → Option (ExecutionKey × SdkCall)
  | .call key c => c.clears.map (key, ·)
  | _ => none

namespace ExecutionLedger

variable {L L' : ExecutionLedger} {op : Op} {k : ExecutionKey} {c : ExecutionCapsule}

def Marked (L : ExecutionLedger) (key : ExecutionKey) (call : SdkCall) : Prop :=
  ∃ e, L.execution? key = some e ∧ e.Marked call

theorem marked_iff (he : L.execution? key = some e) : L.Marked key call ↔ e.Marked call := by
  constructor
  · rintro ⟨_, he', marked⟩
    obtain rfl := Option.some.inj (he.symm.trans he')
    exact marked
  · exact fun marked => ⟨e, he, marked⟩

theorem marked_put_self (hm : L.milestones.get? key = some m) :
    (L.put key m').Marked key call ↔ m'.Marked call := by
  unfold Marked
  rw [execution?_put_self hm]
  rfl

theorem marked_put_ne (hk : k ≠ key) : (L.put key m').Marked k call ↔ L.Marked k call := by
  unfold Marked
  rw [execution?_put_ne hk]

theorem marked_of_get? (hm : L.milestones.get? key = some m) :
    L.Marked key call ↔ m.Marked call := by
  unfold Marked execution?
  rw [hm]
  rfl

theorem leased_eq_of_marked (marked : e.Marked call) : e.leased = e := by
  unfold Execution.leased
  rw [if_neg]
  rintro ⟨planned, unleased⟩
  exact MilestoneRows.not_marked_of_planned planned (by rw [unleased]; decide) marked

/-- Only a rejection takes a marker back. -/
theorem body_marked (h : L.body host op = .ok L') (keeps : op.clears ≠ some (k, call))
    (marked : L.Marked k call) : L'.Marked k call := by
  cases op with
  | createMilestone key =>
    obtain rfl := pure_eq_ok.mp h
    unfold Marked
    rwa [execution?_createMilestone]
  | planExecution p =>
    obtain ⟨m, m', hm, hcall, rfl⟩ := onRows_ok h
    by_cases hk : k = p.capsule.key
    · subst hk
      rw [marked_of_get? hm] at marked
      rw [marked_put_self hm]
      obtain rfl | ⟨none_, -⟩ := MilestoneRows.planExecution_ok hcall
      · exact marked
      · obtain ⟨e, he, -⟩ := marked
        rw [none_] at he
        cases he
    · rwa [marked_put_ne hk]
  | acquireWorkspaceLease c =>
    obtain ⟨m, e, leases, hm, he, -, -, rfl⟩ := acquireWorkspaceLease_ok h
    by_cases hk : k = c.key
    · subst hk
      rw [marked_of_get? hm, MilestoneRows.marked_iff he] at marked
      refine ⟨e, ?_, marked⟩
      rw [leased_eq_of_marked marked]
      exact execution?_put_self (L := { L with leases }) hm
    · exact (marked_put_ne (L := { L with leases }) hk).mpr marked
  | call key c =>
    obtain ⟨m, m', hm, hcall, rfl⟩ := onRows_ok h
    by_cases hk : k = key
    · subst hk
      rw [marked_of_get? hm] at marked
      rw [marked_put_self hm]
      refine MilestoneRows.call_marked hcall (fun cleared => keeps ?_) marked
      show c.clears.map (k, ·) = some (k, call)
      rw [cleared]
      rfl
    · rwa [marked_put_ne hk]

/-! #### Routes -/

def OneRoute (L : ExecutionLedger) : Prop :=
  ∀ key m, L.milestones.get? key = some m → m.OneRoute

/-- The operation does not bring the second route to a milestone. -/
def Keeps (L : ExecutionLedger) : Op → Prop
  | .call key c => ∀ m, L.milestones.get? key = some m → m.Keeps c
  | _ => True

theorem body_oneRoute (valid : L.valid host) (one : L.OneRoute) (keeps : L.Keeps op)
    (h : L.body host op = .ok L') : L'.OneRoute := by
  cases op with
  | createMilestone key =>
    obtain rfl := pure_eq_ok.mp h
    intro k m hm
    obtain old | rfl := get?_createMilestone hm
    · exact one k m old
    · exact .blank
  | planExecution p =>
    obtain ⟨m, m', hm, hcall, rfl⟩ := onRows_ok h
    refine Table.forall_set (fun k m _ hk => one k m hk) ?_
    obtain rfl | ⟨none_, rfl⟩ := MilestoneRows.planExecution_ok hcall
    · exact one _ _ hm
    · refine ⟨fun _ => (blank_of_valid valid hm none_).2, fun e' _ _ dispatch => ?_⟩
      change m.appNative.isSome at dispatch
      rw [(blank_of_valid valid hm none_).2] at dispatch
      cases dispatch
  | acquireWorkspaceLease c =>
    obtain ⟨m, e, leases, hm, he, -, -, rfl⟩ := acquireWorkspaceLease_ok h
    refine Table.forall_set (fun k m _ hk => one k m hk) ?_
    refine ⟨(one _ _ hm).exclusive, fun e' he' planned dispatch => ?_⟩
    obtain rfl := Option.some.inj he'
    rw [(execution_leased e).2.2] at planned
    have past := (one _ _ hm).prepared e he planned dispatch
    have same : e.leased = e := by
      unfold Execution.leased
      rw [if_neg]
      rintro ⟨-, unleased⟩
      rw [unleased] at past
      exact absurd past (by decide)
    rwa [same]
  | call key c =>
    obtain ⟨m, m', hm, hcall, rfl⟩ := onRows_ok h
    exact Table.forall_set (fun k m _ hk => one k m hk)
      (MilestoneRows.call_oneRoute (one _ _ hm) (keeps m hm) hcall)

def Profiled (L : ExecutionLedger) (key : ExecutionKey) : Prop :=
  ∃ m, L.milestones.get? key = some m ∧ m.integrity.isSome

theorem body_profiled (bound : L.Profiled k) (h : L.body host op = .ok L') : L'.Profiled k := by
  obtain ⟨m, hm, profile⟩ := bound
  have put : ∀ {L : ExecutionLedger} {key m₀ m'}, L.milestones.get? k = some m →
      L.milestones.get? key = some m₀ → (m₀.integrity.isSome → m'.integrity.isSome) →
      (L.put key m').Profiled k := by
    intro L key m₀ m' hm hm₀ keeps
    by_cases hk : k = key
    · subst hk
      obtain rfl := Option.some.inj (hm.symm.trans hm₀)
      exact ⟨m', Table.get?_set_self hm m', keeps profile⟩
    · exact ⟨m, (Table.get?_set_ne _ hk m').trans hm, profile⟩
  cases op with
  | createMilestone key =>
    obtain rfl := pure_eq_ok.mp h
    by_cases hk : k = key
    · subst hk
      have there : k ∈ L.milestones.keys := Table.mem_keys_of_get? hm
      refine ⟨m, ?_, profile⟩
      simp only [createMilestone, Table.insert, dif_pos there]
      exact hm
    · exact ⟨m, (Table.get?_insert_ne _ hk _).trans hm, profile⟩
  | planExecution p =>
    obtain ⟨m₀, m', hm₀, hcall, rfl⟩ := onRows_ok h
    refine put hm hm₀ fun bound => ?_
    obtain rfl | ⟨-, rfl⟩ := MilestoneRows.planExecution_ok hcall <;> exact bound
  | acquireWorkspaceLease c =>
    obtain ⟨m₀, e, leases, hm₀, -, -, -, rfl⟩ := acquireWorkspaceLease_ok h
    exact put hm hm₀ id
  | call key c =>
    obtain ⟨m₀, m', hm₀, hcall, rfl⟩ := onRows_ok h
    exact put hm hm₀ fun bound => MilestoneRows.call_profiled bound hcall

/-! #### Places -/

def Placed (L : ExecutionLedger) : Prop := ∀ key m, L.milestones.get? key = some m → m.Placed

def Places (L : ExecutionLedger) : Op → Prop
  | .call key c => ∀ m, L.milestones.get? key = some m → m.Places c
  | _ => True

theorem body_placed (placed : L.Placed) (places : L.Places op) (h : L.body host op = .ok L') :
    L'.Placed := by
  cases op with
  | createMilestone key =>
    obtain rfl := pure_eq_ok.mp h
    intro k m hm
    obtain old | rfl := get?_createMilestone hm
    · exact placed k m old
    · exact MilestoneRows.placed_blank
  | planExecution p =>
    obtain ⟨m, m', hm, hcall, rfl⟩ := onRows_ok h
    refine Table.forall_set (fun k m _ hk => placed k m hk) ?_
    obtain rfl | ⟨none_, rfl⟩ := MilestoneRows.planExecution_ok hcall
    · exact placed _ _ hm
    · intro _
      have unmarked : ∀ e, some p.execution = some e → e.checkpoint ≠ .threadStarting := by
        intro e he
        obtain rfl := Option.some.inj he
        exact nofun
      refine ⟨?_, fun e he marked => absurd marked (unmarked e he)⟩
      obtain ⟨free, unclaimed, -⟩ | starting :=
        (placed _ _ hm fun e he => nomatch none_.symm.trans he).1
      · exact .inl ⟨free, unclaimed, unmarked⟩
      · exact .inr starting
  | acquireWorkspaceLease c =>
    obtain ⟨m, e, leases, hm, he, -, -, rfl⟩ := acquireWorkspaceLease_ok h
    refine Table.forall_set (fun k m _ hk => placed k m hk) ?_
    refine (placed _ _ hm).of_write he rfl rfl rfl id (fun planned => ?_) fun marked => .inl ?_
    · exact (execution_leased e).2.2 ▸ planned
    · unfold Execution.leased at marked
      split_ifs at marked
      exact marked
  | call key c =>
    obtain ⟨m, m', hm, hcall, rfl⟩ := onRows_ok h
    exact Table.forall_set (fun k m _ hk => placed k m hk)
      (MilestoneRows.call_placed (placed _ _ hm) (places m hm) hcall)

end ExecutionLedger

end CodexFlow.Executions
