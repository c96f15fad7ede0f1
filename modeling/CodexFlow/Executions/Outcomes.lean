import CodexFlow.Executions.Finish
import CodexFlow.Executions.Leases

/-!
# Two routes, one result

The direct route completes an execution unless its result says a word of failure; the App-native
route completes it when the result is `completed` with no failed validation. The verdicts differ on
the results in between, and only there.
-/

namespace CodexFlow.Executions

open Checked

variable {host : Host} {key : ExecutionKey} {e : Execution} {i : ExecutionIntegrity}
  {a : AppNativeDispatch} {state : ControllerStateOutcome} {o : Observations}

/-! ### Words -/

theorem failedResult_outcomeFailed (reason : String) : (failedResult reason).outcomeFailed := by
  have failed : (JsonObject.mk (some "failed") "").outcomeFailed := by decide
  exact failed

theorem toJson_outcomeFailed (r : ModelFacingResult) :
    (r.toJson host).outcomeFailed = decide (r.status = .failed) := by
  have words : ∀ status : ModelResultStatus,
      (JsonObject.mk (some status.value) "").outcomeFailed = decide (status = .failed) := by
    intro status
    cases status <;> decide
  exact words r.status

/-! ### Validations -/

namespace ValidationObservation

variable {v : ValidationObservation}

theorem passed_iff : v.passed ↔ v.exitCode = 0 ∧ v.timedOut = false := by
  simp [passed]

theorem not_passed_overruled {code : Option ValidationFailureCode}
    {h : v.timedOut = true → code ∈ [none, some .timeout, some .integrityFailure]} :
    ¬ (v.overruled code h).passed := by
  intro passed
  have zero : (if v.exitCode ≠ 0 then v.exitCode else 125) = 0 := (passed_iff.mp passed).1
  split_ifs at zero with failed
  · exact failed zero
  · cases zero

theorem not_passed_integrityFailed : ¬ v.integrityFailed.passed := not_passed_overruled

theorem not_passed_captureFailed : ¬ v.captureFailed.passed := by
  intro passed
  cases (passed_iff.mp passed).1

end ValidationObservation

theorem turnResult_of_passed {turnOutput : JsonObject} {v : ValidationObservation}
    (passed : v.passed) : (turnResult turnOutput v).outcomeFailed = turnOutput.outcomeFailed := by
  unfold turnResult
  rw [v.success (ValidationObservation.passed_iff.mp passed).1]
  dsimp only
  split_ifs with failed
  · rw [failed]
    exact failedResult_outcomeFailed _
  · rfl

/-! ### The direct route -/

/-- The checks of the workspace accept, before a terminal workspace is captured. -/
def Observations.intact (o : Observations) (protectedBefore gitBefore : Sha256)
    (state : ControllerStateOutcome) : Prop :=
  o.protectedAfter = some protectedBefore ∧ o.scope = .accepted ∧ state = .unchanged ∧
    o.gitAfter = some gitBefore

theorem Observations.accepts_iff {protectedBefore gitBefore : Sha256} :
    o.accepts protectedBefore gitBefore state ↔
      o.validation.passed ∧ o.intact protectedBefore gitBefore state ∧ o.capture.isSome := by
  simp [accepts, intact, and_assoc]

theorem integrityBroken_iff (read : o.protectedAfter.isSome) :
    ¬ integrityBroken e i state o ↔ o.intact e.protectedBefore i.gitBefore state := by
  obtain ⟨digest, hdigest⟩ := Option.isSome_iff_exists.mp read
  cases hgit : o.gitAfter with
  | none => simp [integrityBroken, Observations.intact, hgit]
  | some git =>
    simp [integrityBroken, Observations.intact, protectedAfter, gitAfter, hgit, hdigest, and_assoc]

theorem checkedResult_passes :
    (checkedResult e i state o).1.passed ∧ ¬ (checkedResult e i state o).2.outcomeFailed ↔
      o.validation.passed ∧ o.intact e.protectedBefore i.gitBefore state ∧
        ¬ (e.turnOutput.getD .empty).outcomeFailed := by
  unfold checkedResult
  by_cases read : o.protectedAfter.isNone
  · rw [if_pos read]
    have absent : ¬ o.intact e.protectedBefore i.gitBefore state := by
      rintro ⟨present, -⟩
      rw [present] at read
      cases read
    simp [ValidationObservation.not_passed_integrityFailed, absent]
  · rw [if_neg read]
    have intact : ¬ integrityBroken e i state o ↔ _ :=
      integrityBroken_iff (Option.isSome_iff_ne_none.mpr (by simpa using read))
    by_cases broken : integrityBroken e i state o
    · rw [if_pos broken]
      simp [failedResult_outcomeFailed, ← intact, broken]
    · rw [if_neg broken]
      have holds := intact.mp broken
      simp only [holds, true_and]
      constructor
      · rintro ⟨passed, fine⟩
        exact ⟨passed, turnResult_of_passed passed ▸ fine⟩
      · rintro ⟨passed, fine⟩
        exact ⟨passed, (turnResult_of_passed passed).symm ▸ fine⟩

/-- The direct route completes an execution when every check accepts and the turn's output says no
word of failure. -/
theorem finish_completes :
    (finish e i state o).completes ↔
      o.accepts e.protectedBefore i.gitBefore state ∧
        ¬ (e.turnOutput.getD .empty).outcomeFailed := by
  have checked : _ ∧ ¬ (checkedResult e i state o).2.outcomeFailed ↔ _ := checkedResult_passes
  unfold finish
  generalize checkedResult e i state o = verdict at checked ⊢
  obtain ⟨validation, result⟩ := verdict
  rw [Observations.accepts_iff]
  dsimp only at checked ⊢
  by_cases passes : validation.passed && !result.outcomeFailed
  · rw [if_pos passes]
    have passes' : validation.passed ∧ ¬ result.outcomeFailed := by simpa using passes
    obtain ⟨passed, intact, fine⟩ := checked.mp passes'
    cases capture : o.capture with
    | none =>
      simp [TerminalFacts.completes, ValidationObservation.not_passed_captureFailed]
    | some captured =>
      simp [passed, intact, fine, TerminalFacts.completes, passes]
  · rw [if_neg passes]
    have passes' : ¬ (validation.passed ∧ ¬ result.outcomeFailed) := by simpa using passes
    rw [checked] at passes'
    simp only [TerminalFacts.completes, passes, Bool.false_eq_true, false_iff]
    rintro ⟨⟨passed, intact, -⟩, fine⟩
    exact passes' ⟨passed, intact, fine⟩

theorem finish_terminal (completes : (finish e i state o).completes) :
    (finish e i state o).terminal.isSome := by
  revert completes
  unfold finish
  obtain ⟨validation, result⟩ := checkedResult e i state o
  dsimp only
  by_cases passes : validation.passed && !result.outcomeFailed
  · rw [if_pos passes]
    cases o.capture with
    | none => simp [TerminalFacts.completes, ValidationObservation.not_passed_captureFailed]
    | some captured => exact fun _ => rfl
  · rw [if_neg passes]
    simp only [TerminalFacts.completes, passes, Bool.false_eq_true, false_imp_iff]

/-! ### The App-native route -/

theorem appNative_intact :
    a.intact e state o ↔ o.intact e.protectedBefore a.gitBefore state := by
  simp only [AppNativeDispatch.intact, Observations.intact, Bool.and_eq_true, decide_eq_true_eq]
  tauto

theorem passes_iff {r : ModelFacingResult} {v : ValidationObservation} :
    r.passes v ↔ v.passed ∧ r.status = .completed ∧ r.validations.all (·.passed) := by
  simp only [ModelFacingResult.passes, Bool.and_eq_true, decide_eq_true_eq, and_assoc]

/-- The App-native route completes an execution when every check accepts and the result is
completed with no failed validation. -/
theorem appNative_finish_passes (result : ModelFacingResult) :
    (∃ f, a.finish e state o result = some f ∧ f.passes) ↔
      o.accepts e.protectedBefore a.gitBefore state ∧ result.status = .completed ∧
        result.validations.all (·.passed) := by
  rw [Observations.accepts_iff, ← appNative_intact]
  unfold AppNativeDispatch.finish
  dsimp only
  by_cases intact : a.intact e state o
  · rw [if_pos intact]
    by_cases passes : result.passes o.validation
    · rw [if_pos passes]
      obtain ⟨passed, completed, all⟩ := passes_iff.mp passes
      cases capture : o.capture with
      | none => simp
      | some captured =>
        simp [passed, intact, completed, all, AppNativeFacts.passes, passes]
    · rw [if_neg passes]
      rw [passes_iff] at passes
      constructor
      · rintro ⟨f, hf, h⟩
        obtain rfl := Option.some.inj hf
        exact absurd (passes_iff.mp h) passes
      · rintro ⟨⟨passed, -, -⟩, rest⟩
        exact absurd ⟨passed, rest⟩ passes
  · have fails : ¬ result.passes o.validation.integrityFailed := fun h =>
      ValidationObservation.not_passed_integrityFailed (passes_iff.mp h).1
    rw [if_neg intact, if_neg fails]
    constructor
    · rintro ⟨f, hf, h⟩
      obtain rfl := Option.some.inj hf
      exact absurd h fails
    · rintro ⟨⟨-, h, -⟩, -⟩
      exact absurd h intact

theorem appNative_finish_facts {result : ModelFacingResult} {f : AppNativeFacts}
    (h : a.finish e state o result = some f) :
    f.result = result ∧ (f.passes → f.terminal.isSome) := by
  unfold AppNativeDispatch.finish at h
  dsimp only at h
  generalize (if a.intact e state o then o.validation else o.validation.integrityFailed) =
    validation at h
  by_cases passes : result.passes validation
  · rw [if_pos passes] at h
    obtain ⟨captured, -, rfl⟩ := Option.map_eq_some_iff.mp h
    exact ⟨rfl, fun _ => rfl⟩
  · rw [if_neg passes] at h
    obtain rfl := Option.some.inj h
    exact ⟨rfl, fun h => absurd h passes⟩

/-! ### The ledger -/

namespace ExecutionLedger

variable {L L' : ExecutionLedger} {m m' : MilestoneRows}

def completed (L : ExecutionLedger) (key : ExecutionKey) : Bool :=
  (L.milestones.get? key).any fun m =>
    m.state = .completed && m.execution.any (·.status = .completed)

theorem valid_iff : L.valid host ↔
    ∀ k m, L.milestones.get? k = some m → m.valid host L.leases k := by
  simp only [valid, List.all_eq_true, Table.get?_eq_some, Prod.forall]

theorem valid_put (valid : L.valid host) (row : m'.valid host L.leases key) :
    (L.put key m').valid host :=
  valid_iff.mpr (Table.forall_set (fun k m _ hk => valid_iff.mp valid k m hk) row)

theorem perform_call {c : Call} (valid : L.valid host) (hm : L.milestones.get? key = some m)
    (call : m.call host L.leases key c = .ok m') (row : m'.valid host L.leases key) :
    L.perform host (.call key c) = .ok (L.put key m') := by
  have hget : L.getMilestone key = .ok m := getMilestone_eq_ok.mpr hm
  have hbody : L.body host (.call key c) = .ok (L.put key m') := by
    show L.onRows key (·.call host L.leases key c) = _
    unfold onRows
    rw [hget, ok_bind]
    dsimp only
    rw [call, ok_bind]
    rfl
  unfold perform
  rw [ensure_of valid, ok_bind, hbody, ok_bind, ensure_of (valid_put valid row), ok_bind]
  rfl

theorem next_call {c : Call} (valid : L.valid host) (hm : L.milestones.get? key = some m)
    (call : m.call host L.leases key c = .ok m') (row : m'.valid host L.leases key) :
    L.next host (.call key c) = L.put key m' := by
  unfold next
  rw [perform_call valid hm call row]

theorem completed_put (hm : L.milestones.get? key = some m) :
    (L.put key m').completed key =
      (decide (m'.state = .completed) && m'.execution.any (·.status = .completed)) := by
  unfold completed put
  rw [Table.get?_set_self hm]
  rfl

theorem started_valid {leases : Table String WorkspaceLease} (h : m.valid host leases key)
    (he : m.execution = some e) (started : e.status = .threadStarted) :
    e.threadId.isSome ∧ m.state = .running ∧ m.appNative.all (m.appNativeMatches leases key e) ∧
      (m.integrity.isSome || m.appNative.isSome) ∧ ownsWorkspace leases key.runId e.workspacePath ∧
      m.eventsValid e ∧ m.integrity.all (MilestoneRows.integrityValid e) := by
  simp only [MilestoneRows.valid, he, MilestoneRows.executionValid, MilestoneRows.begunValid,
    MilestoneRows.statusValid, started, MilestoneRows.startedValid, Bool.and_eq_true,
    decide_eq_true_eq, Bool.or_eq_true] at h
  obtain ⟨⟨⟨⟨app, begun⟩, ⟨⟨thread, -⟩, running⟩, -⟩, events⟩, integrity⟩ := h
  obtain listed | ⟨route, owns⟩ := begun
  · exact absurd listed (by decide)
  · exact ⟨thread, running, app, by simpa using route, owns, events, integrity⟩

structure TurnDurable (host : Host) (L : ExecutionLedger) (key : ExecutionKey)
    (m : MilestoneRows) (e : Execution) (i : ExecutionIntegrity) : Prop where
  valid : L.valid host
  row : L.milestones.get? key = some m
  execution : m.execution = some e
  integrity : m.integrity = some i
  direct : m.appNative = none
  started : e.status = .threadStarted
  turn : e.turnId.isSome

structure Bound (host : Host) (L : ExecutionLedger) (key : ExecutionKey) (claimToken : String)
    (identity : HostIdentity) (m : MilestoneRows) (e : Execution) (a : AppNativeDispatch) :
    Prop where
  valid : L.valid host
  row : L.milestones.get? key = some m
  execution : m.execution = some e
  direct : m.integrity = none
  appNative : m.appNative = some a
  started : e.status = .threadStarted
  bound : a.state = .bound
  token : a.action.claimToken = claimToken
  identity : a.identity = some identity
  fresh : a.result = none

/-- The rows of a milestone whose direct route has ended. -/
def endedRows (m : MilestoneRows) (e : Execution) (i : ExecutionIntegrity) (f : TerminalFacts) :
    MilestoneRows :=
  { m with
    state := if f.completes then .completed else .failed
    execution := some (e.ended f.completes f.result f.validation f.protectedAfter)
    integrity := some { i with
      gitAfter := some f.gitAfter
      terminal := if f.completes then f.terminal else none } }

/-- The rows that a terminal write of the direct route leaves are valid. -/
theorem ended_valid {leases : Table String WorkspaceLease} {f : TerminalFacts}
    (h : m.valid host leases key) (he : m.execution = some e) (hi : m.integrity = some i)
    (direct : m.appNative = none) (started : e.status = .threadStarted) (turn : e.turnId.isSome)
    (terminal : f.completes → f.terminal.isSome) :
    (endedRows m e i f).valid host leases key := by
  unfold endedRows
  obtain ⟨thread, -, -, -, owns, events, integrity⟩ := started_valid h he started
  obtain ⟨turnId, hturn⟩ := Option.isSome_iff_exists.mp turn
  have hstarted : i.turnStarted := by
    rw [hi, Option.all_some] at integrity
    simp only [MilestoneRows.integrityValid, Bool.and_eq_true] at integrity
    simpa [hturn] using integrity.1.1.2
  have hevents : m.events.map (·.sequence) = List.range m.events.length := by
    simpa [MilestoneRows.eventsValid, hturn] using events
  cases completes : f.completes with
  | true =>
    have captured := terminal completes
    simp [MilestoneRows.valid, MilestoneRows.executionValid, MilestoneRows.begunValid,
      MilestoneRows.statusValid, MilestoneRows.completedValid, MilestoneRows.eventsValid,
      MilestoneRows.integrityValid, MilestoneRows.postExecutionStates, Execution.ended, direct,
      thread, turn, owns, hevents, hstarted, captured]
  | false =>
    simp [MilestoneRows.valid, MilestoneRows.executionValid, MilestoneRows.begunValid,
      MilestoneRows.statusValid, MilestoneRows.failedValid, MilestoneRows.eventsValid,
      MilestoneRows.integrityValid, Execution.ended, direct, turn, owns, hevents, hstarted]

theorem finishTurn_eq (ready : TurnDurable host L key m e i) :
    L.finishTurn host key state o = L.put key (endedRows m e i (finish e i state o)) := by
  have valid := valid_iff.mp ready.valid key m ready.row
  have running := (started_valid valid ready.execution ready.started).2.1
  have hfinish : L.finishTurn host key state o =
      L.next host (.call key (.recordTerminalExecution (finish e i state o))) := by
    simp only [finishTurn, execution?, ready.row, Option.bind_some, ready.execution,
      ready.integrity]
  have active : ¬ e.status.isTerminal := by
    rw [ready.started]
    decide
  generalize hf : finish e i state o = f at hfinish ⊢
  have terminal : f.completes → f.terminal.isSome := hf ▸ finish_terminal
  have hcall : m.call host L.leases key (.recordTerminalExecution f) =
      .ok (endedRows m e i f) := by
    show m.recordTerminalExecution key f = _
    unfold MilestoneRows.recordTerminalExecution
    rw [ensure_of terminal, ok_bind,
      MilestoneRows.openExecution_eq_ok.mpr ⟨ready.execution, active⟩, ok_bind,
      ensure_of ⟨ready.started, ready.turn⟩, ok_bind,
      MilestoneRows.getIntegrity_eq_ok.mpr ready.integrity, ok_bind, ensure_of running, ok_bind]
    rfl
  have row := ended_valid valid ready.execution ready.integrity ready.direct ready.started
    ready.turn terminal
  rw [hfinish, next_call ready.valid ready.row hcall row]

theorem finishTurn_completed (ready : TurnDurable host L key m e i) :
    (L.finishTurn host key state o).completed key = (finish e i state o).completes := by
  rw [finishTurn_eq ready, completed_put ready.row]
  unfold endedRows
  cases (finish e i state o).completes <;> rfl

/-- The rows that a terminal write of the App-native route leaves are valid. -/
theorem appNativeEnded_valid {leases : Table String WorkspaceLease} {f : AppNativeFacts}
    (h : m.valid host leases key) (he : m.execution = some e) (direct : m.integrity = none)
    (ha : m.appNative = some a) (started : e.status = .threadStarted) :
    MilestoneRows.valid host leases key { m with
      state := if f.passes then .completed else .failed
      appNative := some { a with
        state := if f.passes then .completed else .failed
        result := some f.result
        gitAfter := some f.gitAfter
        terminal := if f.passes then f.terminal else none }
      execution :=
        some (e.ended f.passes (f.result.toJson host) f.validation f.protectedAfter) } := by
  obtain ⟨thread, -, app, -, owns, events, -⟩ := started_valid h he started
  rw [ha, Option.all_some] at app
  simp only [MilestoneRows.appNativeMatches, Bool.and_eq_true, decide_eq_true_eq] at app
  obtain ⟨⟨⟨executor, path⟩, -⟩, identity⟩ := app
  have hevents : e.turnId = none ∨ m.events.map (·.sequence) = List.range m.events.length := by
    simpa [MilestoneRows.eventsValid] using events
  cases passes : f.passes with
  | true =>
    simp [MilestoneRows.valid, MilestoneRows.executionValid, MilestoneRows.begunValid,
      MilestoneRows.appNativeMatches, MilestoneRows.statusValid, MilestoneRows.completedValid,
      MilestoneRows.eventsValid, MilestoneRows.postExecutionStates, Execution.ended, direct,
      thread, owns, hevents, executor, path, identity]
  | false =>
    simp [MilestoneRows.valid, MilestoneRows.executionValid, MilestoneRows.begunValid,
      MilestoneRows.appNativeMatches, MilestoneRows.statusValid, MilestoneRows.failedValid,
      MilestoneRows.eventsValid, Execution.ended, direct, owns, hevents, executor, path, identity]

theorem completeAppNative_completed {claimToken : String} {identity : HostIdentity}
    {r : ModelFacingResult} (ready : Bound host L key claimToken identity m e a) :
    (L.completeAppNative host key claimToken identity state o r).completed key ↔
      ∃ f, a.finish e state o r = some f ∧ f.passes := by
  have valid := valid_iff.mp ready.valid key m ready.row
  obtain ⟨-, running, app, -, -, -, -⟩ := started_valid valid ready.execution ready.started
  have thread : e.threadId = some identity.threadId := by
    rw [ready.appNative, Option.all_some] at app
    simp only [MilestoneRows.appNativeMatches, Bool.and_eq_true, decide_eq_true_eq,
      ready.identity] at app
    exact app.2.symm
  have live : a.state ≠ .cancelled := by
    rw [ready.bound]
    decide
  have hcomplete : L.completeAppNative host key claimToken identity state o r =
      (a.finish e state o r).elim L fun f =>
        L.next host (.call key (.recordAppNativeResult claimToken identity f)) := by
    simp only [completeAppNative, execution?, ready.row, Option.bind_some, ready.execution,
      ready.appNative]
    rw [if_pos ⟨ready.token, live, ready.identity, ready.fresh⟩]
    cases a.finish e state o r <;> rfl
  rw [hcomplete]
  cases hf : a.finish e state o r with
  | none =>
    have open_ : ¬ L.completed key := by
      simp [completed, ready.row, ready.execution, ready.started]
    simp [open_]
  | some f =>
    have terminal := (appNative_finish_facts hf).2
    have hcall : m.call host L.leases key (.recordAppNativeResult claimToken identity f) = .ok
        { m with
          state := if f.passes then .completed else .failed
          appNative := some { a with
            state := if f.passes then .completed else .failed
            result := some f.result
            gitAfter := some f.gitAfter
            terminal := if f.passes then f.terminal else none }
          execution :=
            some (e.ended f.passes (f.result.toJson host) f.validation f.protectedAfter) } := by
      show m.recordAppNativeResult host key claimToken identity f = _
      unfold MilestoneRows.recordAppNativeResult
      have same : host.claimTokenSha256 a.action.claimToken = host.claimTokenSha256 claimToken := by
        rw [ready.token]
      have fresh : ¬ a.result.isSome := by
        rw [ready.fresh]
        decide
      rw [ensure_of terminal, ok_bind, MilestoneRows.getAppNative_eq_ok.mpr ready.appNative,
        ok_bind, ensure_of same, ok_bind, ensure_of ready.identity, ok_bind,
        MilestoneRows.getExecution_eq_ok.mpr ready.execution, ok_bind, if_neg fresh,
        ensure_of ready.bound, ok_bind, ensure_of ⟨ready.started, thread⟩, ok_bind,
        ensure_of running, ok_bind]
      rfl
    have row := appNativeEnded_valid (f := f) valid ready.execution ready.direct ready.appNative
      ready.started
    rw [Option.elim_some, next_call ready.valid ready.row hcall row, completed_put ready.row]
    cases passes : f.passes with
    | true => exact ⟨fun _ => ⟨f, rfl, passes⟩, fun _ => rfl⟩
    | false =>
      refine ⟨(by rintro ⟨⟩), ?_⟩
      rintro ⟨f', hf', passes'⟩
      obtain rfl := Option.some.inj hf'
      rw [passes] at passes'
      cases passes'

/-! ### Agreement -/

/-- `_queue_result_terminal_status` of the result of an executor. -/
def queueResultTerminalStatus (r : ModelFacingResult) : String := r.status.value

/-- The two routes agree on a result: both complete the execution or neither does, and only a
result that the queue calls completed is completed. -/
def RoutesAgree (host : Host) (L L' : ExecutionLedger) (key key' : ExecutionKey)
    (claimToken : String) (identity : HostIdentity) (state : ControllerStateOutcome)
    (o : Observations) (r : ModelFacingResult) : Prop :=
  let direct := (L.finishTurn host key state o).completed key
  let appNative := (L'.completeAppNative host key' claimToken identity state o r).completed key'
  (direct ↔ appNative) ∧ (direct → queueResultTerminalStatus r = "completed") ∧
    (appNative → queueResultTerminalStatus r = "completed")

/-- The result asks for a decision, reports an external blocker, or claims completion over a failed
validation. -/
def contested (r : ModelFacingResult) : Bool :=
  r.status ∈ [.needsDecision, .externalBlocked] ||
    (r.status = .completed && r.validations.any fun v => !v.passed)

/-- The routes agree on exactly the results that are not contested, or that an observation of the
controller fails on both. -/
theorem routesAgree_iff {key' : ExecutionKey} {m' : MilestoneRows} {e' : Execution}
    {claimToken : String} {identity : HostIdentity} {r : ModelFacingResult}
    (direct : TurnDurable host L key m e i) (output : e.turnOutput = some (r.toJson host))
    (appNative : Bound host L' key' claimToken identity m' e' a)
    (sameProtected : e'.protectedBefore = e.protectedBefore) (sameGit : a.gitBefore = i.gitBefore) :
    RoutesAgree host L L' key key' claimToken identity state o r ↔
      ¬ (o.accepts e.protectedBefore i.gitBefore state ∧ contested r) := by
  have completesDirect : (finish e i state o).completes ↔ _ := finish_completes
  rw [output, Option.getD_some, toJson_outcomeFailed] at completesDirect
  have completesAppNative : (∃ f, a.finish e' state o r = some f ∧ f.passes) ↔ _ :=
    appNative_finish_passes r
  rw [sameProtected, sameGit] at completesAppNative
  unfold RoutesAgree
  dsimp only
  rw [finishTurn_completed direct, completeAppNative_completed appNative, completesDirect,
    completesAppNative]
  by_cases accepts : o.accepts e.protectedBefore i.gitBefore state
  · have words : ∀ status : ModelResultStatus,
        status.value = "completed" ↔ status = .completed := by
      intro status
      cases status <;> decide
    simp only [accepts, true_and, queueResultTerminalStatus, words, contested]
    cases hstatus : r.status with
    | completed => simp
    | failed => simp
    | needsDecision => simp
    | externalBlocked => simp
  · simp [accepts]
end ExecutionLedger

/-! ### The same result on both routes -/

def gitSha256 : Sha256 := ⟨"dddddddddddddddddddddddddddddddddddddddddddddddddddddddddddddddd", by decide⟩

def stateSha256 : Sha256 := ⟨"eeeeeeeeeeeeeeeeeeeeeeeeeeeeeeeeeeeeeeeeeeeeeeeeeeeeeeeeeeeeeeee", by decide⟩

def sampleProfile : NativeProfile where
  nativeProfileSha256 := capsuleSha256
  nativeCompatibilitySha256 := capsuleSha256
  effectivePermission := ⟨.inheritNative, .workspaceWrite, .never, nofun⟩
  baselineHead := baseSha
  baseline := []
  gitBefore := gitSha256

/-- The direct route up to its durable turn. -/
def directRun (r : ModelFacingResult) : List Op :=
  leasedRun ++ ([.recordNativeProfile sampleProfile, .claimExecutor, .recordThreadStarting,
    .recordThreadIdentity "thread", .recordGitAuthorityBefore gitSha256, .recordTurnStarting,
    .recordTurn ⟨"thread", "turn", some (r.toJson sampleHost), []⟩] : List Call).map
      (.call sampleCapsule.key)

def samplePreparation : AppNativePreparation where
  action := ⟨"token", "challenge", "model", "high", "/repository", "prompt", "schema"⟩
  baselineHead := baseSha
  baseline := []
  gitBefore := gitSha256
  controllerState := stateSha256

def sampleIdentity : HostIdentity := ⟨"host", "thread"⟩

/-- The App-native route up to its bound thread. -/
def appNativeRun : List Op :=
  leasedRun ++ ([.prepareAppNative samplePreparation, .bindAppNative "token"
    ⟨sampleCapsule.key, "prompt", "challenge", sampleIdentity, "tokenpromptchallenge"⟩] :
      List Call).map (.call sampleCapsule.key)

def passedValidation : ValidationObservation where
  argv := []
  exitCode := 0
  stdoutSha256 := stateSha256
  stderrSha256 := stateSha256
  timedOut := false
  durationSeconds := 1
  errorCode := none
  success := fun _ => rfl
  timeout := nofun

/-- Every check of the workspace accepts. -/
def acceptingObservations : Observations where
  validation := passedValidation
  protectedAfter := some protectedSha256
  scope := .accepted
  gitAfter := some gitSha256
  capture := some (baseSha, [])

def sampleResult (status : ModelResultStatus) : ModelFacingResult where
  schemaVersion := 1
  status := status
  summary := "summary"
  changedSurfaces := []
  validations := []
  durableStatus := "done"
  nextAction := none
  blocker := none
  runtimeArtifactPaths := none

namespace ExecutionLedger

theorem directRun_durable : ∃ m e i, TurnDurable sampleHost
    (after sampleHost (directRun (sampleResult .completed))) sampleCapsule.key m e i ∧
      e.turnOutput = some ((sampleResult .completed).toJson sampleHost) ∧
      e.protectedBefore = protectedSha256 ∧ i.gitBefore = gitSha256 := by
  generalize hL : after sampleHost (directRun (sampleResult .completed)) = L
  have valid : L.valid sampleHost := by
    subst hL
    decide +kernel
  have rows : (L.milestones.get? sampleCapsule.key).any fun m =>
      m.execution.any (fun e => e.status = .threadStarted && e.turnId.isSome &&
        e.turnOutput = some ((sampleResult .completed).toJson sampleHost) &&
        e.protectedBefore = protectedSha256) &&
      m.integrity.any (·.gitBefore = gitSha256) && m.appNative.isNone := by
    subst hL
    decide +kernel
  obtain ⟨m, hm, facts⟩ := (Option.any_eq_true ..).mp rows
  simp only [Bool.and_eq_true, Option.any_eq_true, decide_eq_true_eq, Option.isNone_iff_eq_none]
    at facts
  obtain ⟨⟨⟨e, he, ⟨⟨started, turn⟩, output⟩, sameProtected⟩, i, hi, sameGit⟩, none_⟩ := facts
  exact ⟨m, e, i, ⟨valid, hm, he, hi, none_, started, turn⟩, output, sameProtected, sameGit⟩

theorem appNativeRun_bound : ∃ m e a, Bound sampleHost (after sampleHost appNativeRun)
    sampleCapsule.key "token" sampleIdentity m e a ∧ e.protectedBefore = protectedSha256 ∧
      a.gitBefore = gitSha256 := by
  generalize hL : after sampleHost appNativeRun = L
  have valid : L.valid sampleHost := by
    subst hL
    decide
  have rows : (L.milestones.get? sampleCapsule.key).any fun m =>
      m.execution.any (fun e => e.status = .threadStarted && e.protectedBefore = protectedSha256) &&
      m.integrity.isNone &&
      m.appNative.any fun a => a.state = .bound && a.action.claimToken = "token" &&
        a.identity = some sampleIdentity && a.result.isNone && a.gitBefore = gitSha256 := by
    subst hL
    decide
  obtain ⟨m, hm, facts⟩ := (Option.any_eq_true ..).mp rows
  simp only [Bool.and_eq_true, Option.any_eq_true, decide_eq_true_eq, Option.isNone_iff_eq_none]
    at facts
  obtain ⟨⟨⟨e, he, started, sameProtected⟩, none_⟩, a, ha, ⟨⟨⟨bound, token⟩, identity⟩, fresh⟩,
    sameGit⟩ := facts
  exact ⟨m, e, a, ⟨valid, hm, he, none_, ha, started, bound, token, identity, fresh⟩,
    sameProtected, sameGit⟩

theorem completed_agrees : RoutesAgree sampleHost
    (after sampleHost (directRun (sampleResult .completed))) (after sampleHost appNativeRun)
    sampleCapsule.key sampleCapsule.key "token" sampleIdentity .unchanged acceptingObservations
    (sampleResult .completed) := by
  obtain ⟨m, e, i, direct, output, sameProtected, sameGit⟩ := directRun_durable
  obtain ⟨m', e', a, appNative, sameProtected', sameGit'⟩ := appNativeRun_bound
  refine (routesAgree_iff direct output appNative (sameProtected'.trans sameProtected.symm)
    (sameGit'.trans sameGit.symm)).mpr ?_
  have settled : ¬ contested (sampleResult .completed) := by decide
  exact fun both => settled both.2

/-- A result that asks for a decision is completed by the direct route only. -/
theorem needsDecision_disagrees : ¬ RoutesAgree sampleHost
    (after sampleHost (directRun (sampleResult .needsDecision))) (after sampleHost appNativeRun)
    sampleCapsule.key sampleCapsule.key "token" sampleIdentity .unchanged acceptingObservations
    (sampleResult .needsDecision) := by
  have direct : ((after sampleHost (directRun (sampleResult .needsDecision))).finishTurn sampleHost
      sampleCapsule.key .unchanged acceptingObservations).completed sampleCapsule.key = true := by
    decide +kernel
  have appNative : ((after sampleHost appNativeRun).completeAppNative sampleHost sampleCapsule.key
      "token" sampleIdentity .unchanged acceptingObservations
      (sampleResult .needsDecision)).completed sampleCapsule.key = false := by
    decide
  intro agrees
  rw [agrees.1.mp direct] at appNative
  cases appNative

end ExecutionLedger

end CodexFlow.Executions
