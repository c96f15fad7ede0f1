import CodexFlow.Executions.System

/-!
# What a call can do

One lemma for each call on the rows of a milestone: the checks that it made and the rows that it
leaves. The proofs about runs use these and never unfold a call.
-/

namespace CodexFlow.Executions

open Checked
open Programs (WorkflowState)

variable {host : Host} {leases : Table String WorkspaceLease} {key : ExecutionKey}
  {m m' : MilestoneRows} {e : Execution}

theorem ExecutionLedger.getMilestone_eq_ok {L : ExecutionLedger} :
    L.getMilestone key = .ok m ↔ L.milestones.get? key = some m := by
  unfold getMilestone
  cases L.milestones.get? key with
  | none => simp
  | some m => simp

namespace MilestoneRows

theorem getExecution_eq_ok : m.getExecution key = .ok e ↔ m.execution = some e := by
  unfold getExecution
  cases m.execution with
  | none => simp
  | some e => simp

theorem getIntegrity_eq_ok {i : ExecutionIntegrity} :
    m.getIntegrity key = .ok i ↔ m.integrity = some i := by
  unfold getIntegrity
  cases m.integrity with
  | none => simp
  | some i => simp

theorem getAppNative_eq_ok {a : AppNativeDispatch} :
    m.getAppNative key = .ok a ↔ m.appNative = some a := by
  unfold getAppNative
  cases m.appNative with
  | none => simp
  | some a => simp

theorem openExecution_eq_ok :
    m.openExecution key = .ok e ↔ m.execution = some e ∧ ¬ e.status.isTerminal := by
  simp only [openExecution, Execution.rejectTerminal, steps_ok, getExecution_eq_ok]
  constructor
  · rintro ⟨_, he, active, rfl⟩
    exact ⟨he, active⟩
  · rintro ⟨he, active⟩
    exact ⟨e, he, active, rfl⟩

/-! ### The plan -/

theorem planExecution_ok {p : ExecutionPlan} (h : m.planExecution p = .ok m') :
    m' = m ∨ (m.execution = none ∧ m' = { m with execution := some p.execution }) := by
  unfold planExecution at h
  split at h
  · simp only [steps_ok] at h
    obtain ⟨_, -, -, rfl⟩ := h
    exact .inl rfl
  · rename_i none_
    exact .inr ⟨none_, (pure_eq_ok.mp h).symm⟩

/-! ### The direct SDK route -/

theorem recordNativeProfile_ok {p : NativeProfile}
    (h : m.recordNativeProfile key p = .ok m') :
    ∃ e, m.execution = some e ∧ awaitsRoute e ∧
      ((m' = m ∧ m.integrity.isSome) ∨
        (m.integrity = none ∧
          m' = { m with
            integrity := some p.integrity
            execution := some { e with checkpoint := .workspaceBaselineDurable } })) := by
  simp only [recordNativeProfile, checks_ok, openExecution_eq_ok] at h
  obtain ⟨e, ⟨he, -⟩, awaits, h⟩ := h
  refine ⟨e, he, awaits, ?_⟩
  split at h
  · rename_i i hi
    simp only [steps_ok] at h
    obtain ⟨-, rfl⟩ := h
    exact .inl ⟨rfl, by rw [hi]; rfl⟩
  · rename_i none_
    exact .inr ⟨none_, (pure_eq_ok.mp h).symm⟩

theorem rebindNativeProfileForResume_ok {profile compatibility : Sha256}
    {candidate : NativePermissionAuthority}
    (h : m.rebindNativeProfileForResume key profile compatibility candidate = .ok m') :
    ∃ e i effective, m.execution = some e ∧ hasThread e ∧ m.integrity = some i ∧
      m' = { m with integrity := some { i with
        nativeProfileSha256 := profile, effectivePermission := effective } } := by
  simp only [rebindNativeProfileForResume, checks_ok, openExecution_eq_ok, getIntegrity_eq_ok] at h
  obtain ⟨e, ⟨he, -⟩, thread, i, hi, -, h⟩ := h
  split at h
  · cases h
  · rename_i effective _
    exact ⟨e, i, effective, he, thread, hi, (pure_eq_ok.mp h).symm⟩

theorem claimExecutor_ok (h : m.claimExecutor = .ok m') :
    (m' = m ∧ m.executor) ∨
      (m.state = .planned ∧ ¬ m.executor ∧ m' = { m with executor := true, state := .starting }) := by
  unfold claimExecutor at h
  split_ifs at h with claimed
  · exact .inl ⟨(pure_eq_ok.mp h).symm, claimed⟩
  · simp only [steps_ok] at h
    obtain ⟨planned, rfl⟩ := h
    exact .inr ⟨planned, claimed, rfl⟩

theorem recordThreadStarting_ok (h : m.recordThreadStarting key = .ok m') :
    ∃ e, m.execution = some e ∧ e.status = .planned ∧
      ((e.checkpoint = .threadStarting ∧ m' = m) ∨
        (e.checkpoint = .workspaceBaselineDurable ∧
          m' = { m with execution := some { e with checkpoint := .threadStarting } })) := by
  simp only [recordThreadStarting, checks_ok, openExecution_eq_ok] at h
  obtain ⟨e, ⟨he, -⟩, planned, h⟩ := h
  refine ⟨e, he, planned, ?_⟩
  split_ifs at h with starting
  · exact .inl ⟨starting, (pure_eq_ok.mp h).symm⟩
  · simp only [steps_ok] at h
    exact .inr ⟨h.1, h.2.symm⟩

theorem atThreadStart_iff :
    atThreadStart e ↔ e.status = .planned ∧ e.checkpoint = .threadStarting ∧ e.threadId = none := by
  simp [atThreadStart, and_assoc]

theorem recordPreIdentityUncertainty_ok (h : m.recordPreIdentityUncertainty key = .ok m') :
    ∃ e, m.execution = some e ∧ atThreadStart e ∧
      m' = { m with execution := some { e with status := .uncertainPreIdentity } } := by
  simp only [recordPreIdentityUncertainty, steps_ok, openExecution_eq_ok] at h
  obtain ⟨e, ⟨he, -⟩, start, rfl⟩ := h
  exact ⟨e, he, start, rfl⟩

theorem rejectThreadStartAuthorization_ok (h : m.rejectThreadStartAuthorization key = .ok m') :
    ∃ e, m.execution = some e ∧ atThreadStart e ∧
      m' = { m with execution := some { e with checkpoint := .workspaceBaselineDurable } } := by
  simp only [rejectThreadStartAuthorization, steps_ok, openExecution_eq_ok] at h
  obtain ⟨e, ⟨he, -⟩, start, rfl⟩ := h
  exact ⟨e, he, start, rfl⟩

theorem recordThreadIdentity_ok {threadId : String}
    (h : m.recordThreadIdentity key threadId = .ok m') :
    ∃ e, m.execution = some e ∧
      ((e.threadId = some threadId ∧ m' = m) ∨
        (e.threadId = none ∧ e.status = .planned ∧ e.checkpoint = .threadStarting ∧
          m.state = .starting ∧
          m' = { m with
            state := .running
            execution := some { e with
              status := .threadStarted, checkpoint := .threadIdentityDurable
              threadId := some threadId } })) := by
  simp only [recordThreadIdentity, bind_eq_ok, openExecution_eq_ok] at h
  obtain ⟨e, ⟨he, -⟩, h⟩ := h
  refine ⟨e, he, ?_⟩
  split at h
  · rename_i durable hthread
    simp only [steps_ok] at h
    obtain ⟨rfl, rfl⟩ := h
    exact .inl ⟨hthread, rfl⟩
  · rename_i hthread
    simp only [steps_ok] at h
    obtain ⟨⟨planned, starting⟩, workflow, rfl⟩ := h
    exact .inr ⟨hthread, planned, starting, workflow, rfl⟩

theorem recordGitAuthorityBefore_ok {authority : Sha256}
    (h : m.recordGitAuthorityBefore key authority = .ok m') :
    m' = m ∧ ∃ e i, m.execution = some e ∧ hasThread e ∧ m.integrity = some i ∧
      i.gitBefore = authority := by
  simp only [recordGitAuthorityBefore, steps_ok, openExecution_eq_ok, getIntegrity_eq_ok] at h
  obtain ⟨e, ⟨he, -⟩, thread, i, hi, same, rfl⟩ := h
  exact ⟨rfl, e, i, he, thread, hi, same⟩

theorem recordTurnStarting_ok (h : m.recordTurnStarting key = .ok m') :
    ∃ e, m.execution = some e ∧ hasThread e ∧
      (((e.turnId.isSome ∨ e.turnOutput = some turnStartingMarker) ∧ m' = m) ∨
        (e.turnId = none ∧ e.turnOutput ≠ some turnStartingMarker ∧
          ∃ i, m.integrity = some i ∧
            m' = { m with
              execution := some { e with turnOutput := some turnStartingMarker }
              integrity := some { i with turnStarted := true } })) := by
  simp only [recordTurnStarting, checks_ok, openExecution_eq_ok] at h
  obtain ⟨e, ⟨he, -⟩, thread, h⟩ := h
  refine ⟨e, he, thread, ?_⟩
  split_ifs at h with marked
  · exact .inl ⟨marked, (pure_eq_ok.mp h).symm⟩
  · simp only [bind_eq_ok, getIntegrity_eq_ok, pure_eq_ok] at h
    obtain ⟨i, hi, rfl⟩ := h
    rw [not_or, Option.not_isSome_iff_eq_none] at marked
    exact .inr ⟨marked.1, marked.2, i, hi, rfl⟩

theorem rejectTurnAuthorization_ok (h : m.rejectTurnAuthorization key = .ok m') :
    ∃ e i, m.execution = some e ∧ m.integrity = some i ∧ hasThread e ∧ e.turnId = none ∧
      e.turnOutput = some turnStartingMarker ∧ i.turnStarted ∧
      m' = { m with
        execution := some { e with turnOutput := none }
        integrity := some { i with turnStarted := false } } := by
  simp only [rejectTurnAuthorization, steps_ok, openExecution_eq_ok, getIntegrity_eq_ok] at h
  obtain ⟨e, ⟨he, -⟩, i, hi, ⟨thread, turn, marked, started⟩, rfl⟩ := h
  exact ⟨e, i, he, hi, thread, turn, marked, started, rfl⟩

theorem recordTurn_ok {o : TurnObservation} (h : m.recordTurn key o = .ok m') :
    ∃ e i, m.execution = some e ∧ m.integrity = some i ∧ hasThread e ∧
      e.threadId = some o.threadId ∧ i.turnStarted ∧
      ((e.turnId = some o.turnId ∧ e.turnOutput = some o.output ∧ m' = m) ∨
        (e.turnId = none ∧ e.turnOutput = some turnStartingMarker ∧
          m' = { m with
            events := o.rows
            execution := some { e with
              checkpoint := .turnDurable, turnId := some o.turnId
              turnOutput := some o.output } })) := by
  simp only [recordTurn, checks_ok, openExecution_eq_ok, getIntegrity_eq_ok] at h
  obtain ⟨e, ⟨he, -⟩, thread, same, i, hi, h⟩ := h
  refine ⟨e, i, he, hi, thread, same, ?_⟩
  split at h
  · rename_i durable hturn
    simp only [steps_ok] at h
    obtain ⟨rfl, started, ⟨output, -⟩, rfl⟩ := h
    exact ⟨started, .inl ⟨hturn, output, rfl⟩⟩
  · rename_i hturn
    simp only [steps_ok] at h
    obtain ⟨⟨started, marked⟩, rfl⟩ := h
    exact ⟨started, .inr ⟨hturn, marked, rfl⟩⟩

theorem recordTerminalExecution_ok {f : TerminalFacts}
    (h : m.recordTerminalExecution key f = .ok m') :
    ∃ e i, m.execution = some e ∧ m.integrity = some i ∧ e.status = .threadStarted ∧
      e.turnId.isSome ∧ m.state = .running ∧ (f.completes → f.terminal.isSome) ∧
      m' = { m with
        state := if f.completes then .completed else .failed
        execution := some (e.ended f.completes f.result f.validation f.protectedAfter)
        integrity := some { i with
          gitAfter := some f.gitAfter
          terminal := if f.completes then f.terminal else none } } := by
  simp only [recordTerminalExecution, steps_ok, openExecution_eq_ok, getIntegrity_eq_ok] at h
  obtain ⟨terminal, e, ⟨he, -⟩, ⟨started, turn⟩, i, hi, running, rfl⟩ := h
  exact ⟨e, i, he, hi, started, turn, running, terminal, rfl⟩

/-! ### The App-native route -/

theorem prepareAppNative_ok {p : AppNativePreparation}
    (h : m.prepareAppNative leases key p = .ok m') :
    ∃ e, m.execution = some e ∧ e.workspacePath = p.action.workspacePath ∧
      ownsWorkspace leases key.runId e.workspacePath ∧
      ((m' = m ∧ m.appNative.isSome) ∨
        (m.appNative = none ∧ awaitsRoute e ∧ m.state = .planned ∧ ¬ m.executor ∧
          m' = { m with
            executor := true
            state := .starting
            appNative := some p.dispatch
            execution := some { e with checkpoint := .workspaceBaselineDurable } })) := by
  simp only [prepareAppNative, checks_ok, getExecution_eq_ok] at h
  obtain ⟨e, he, path, -, owns, h⟩ := h
  refine ⟨e, he, path, path ▸ owns, ?_⟩
  split at h
  · rename_i a ha
    simp only [steps_ok] at h
    obtain ⟨-, rfl⟩ := h
    exact .inl ⟨rfl, by rw [ha]; rfl⟩
  · rename_i none_
    simp only [steps_ok] at h
    obtain ⟨_, -, awaits, planned, free, rfl⟩ := h
    exact .inr ⟨none_, awaits, planned, free, rfl⟩

theorem bindAppNative_ok {claimToken : String} {receipt : HostReceipt}
    (h : m.bindAppNative host key claimToken receipt = .ok m') :
    ∃ a, m.appNative = some a ∧ a.state ≠ .cancelled ∧
      ((m' = m ∧ a.identity = some receipt.identity) ∨
        (a.identity = none ∧ a.state = .prepared ∧
          ∃ e, m.execution = some e ∧ e.status = .planned ∧ m.state = .starting ∧
            m' = { m with
              state := .running
              appNative := some { a with state := .bound, identity := some receipt.identity }
              execution := some { e with
                status := .threadStarted, checkpoint := .threadIdentityDurable
                threadId := some receipt.identity.threadId } })) := by
  simp only [bindAppNative, checks_ok, getAppNative_eq_ok] at h
  obtain ⟨a, ha, -, -, -, live, h⟩ := h
  refine ⟨a, ha, live, ?_⟩
  split at h
  · rename_i identity hidentity
    simp only [steps_ok] at h
    obtain ⟨rfl, rfl⟩ := h
    exact .inl ⟨rfl, hidentity⟩
  · rename_i none_
    simp only [steps_ok, getExecution_eq_ok] at h
    obtain ⟨prepared, e, he, planned, starting, rfl⟩ := h
    exact .inr ⟨none_, prepared, e, he, planned, starting, rfl⟩

theorem recordAppNativeResult_ok {claimToken : String} {identity : HostIdentity}
    {f : AppNativeFacts} (h : m.recordAppNativeResult host key claimToken identity f = .ok m') :
    ∃ a e, m.appNative = some a ∧ m.execution = some e ∧ a.identity = some identity ∧
      (f.passes → f.terminal.isSome) ∧
      ((m' = m ∧ a.result = some f.result ∧
          a.state = (if f.passes then .completed else .failed)) ∨
        (a.result = none ∧ a.state = .bound ∧ e.status = .threadStarted ∧ m.state = .running ∧
          m' = { m with
            state := if f.passes then .completed else .failed
            appNative := some { a with
              state := if f.passes then .completed else .failed
              result := some f.result
              gitAfter := some f.gitAfter
              terminal := if f.passes then f.terminal else none }
            execution :=
              some (e.ended f.passes (f.result.toJson host) f.validation f.protectedAfter) })) := by
  simp only [recordAppNativeResult, checks_ok, getAppNative_eq_ok, getExecution_eq_ok] at h
  obtain ⟨terminal, a, ha, -, hidentity, e, he, h⟩ := h
  refine ⟨a, e, ha, he, hidentity, terminal, ?_⟩
  by_cases recorded : a.result.isSome
  · rw [if_pos recorded] at h
    simp only [steps_ok] at h
    obtain ⟨repeats, rfl⟩ := h
    simp only [repeatsResult, Bool.and_eq_true, decide_eq_true_eq] at repeats
    exact .inl ⟨rfl, repeats.1.1.1.1.1, repeats.1.1.2⟩
  · rw [if_neg recorded] at h
    simp only [steps_ok] at h
    obtain ⟨bound, ⟨started, -⟩, running, rfl⟩ := h
    exact .inr ⟨Option.not_isSome_iff_eq_none.mp recorded, bound, started, running, rfl⟩

/-! ### Cancellation and transitions -/

theorem cancelExecution_ok {queueRefuses : Bool} (h : m.cancelExecution key queueRefuses = .ok m') :
    ∃ e, m.execution = some e ∧ ¬ e.status.isTerminal ∧
      ((m' = m ∧ m.state ∈ terminalStates) ∨
        (m.state ∉ terminalStates ∧
          m' = { m with
            state := .cancelled
            execution := some { e with status := .cancelled, checkpoint := .resultDurable }
            appNative := m.appNative.map fun a => { a with state := .cancelled } })) := by
  simp only [cancelExecution, bind_eq_ok, openExecution_eq_ok] at h
  obtain ⟨e, ⟨he, active⟩, h⟩ := h
  refine ⟨e, he, active, ?_⟩
  split_ifs at h with ended
  · exact .inl ⟨(pure_eq_ok.mp h).symm, ended⟩
  · simp only [steps_ok] at h
    exact .inr ⟨ended, h.2.symm⟩

theorem transition_ok {target expected : WorkflowState}
    (h : m.transition target expected = .ok m') :
    m.state = expected ∧ ¬ (m.state = .planned ∧ target = .starting) ∧
      m.state.isTransitionAllowed target ∧ m' = { m with state := target } := by
  simp only [transition, steps_ok] at h
  obtain ⟨same, free, allowed, rfl⟩ := h
  exact ⟨same, free, allowed, rfl⟩

end MilestoneRows

end CodexFlow.Executions
