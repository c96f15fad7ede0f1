import CodexFlow.Ledger.Commands
import CodexFlow.Ledger.Receipts

/-!
# The three entries of a retry

`retry_dispatch`, `apply_recovery_action` and `submit_controller_actions` each release a dispatch
that waits for a human. The first two leave the same tables; the third keeps what was inspected and
the open commands of the retired attempt.
-/

namespace CodexFlow.ControlLedger

open Ledger Checked

structure RetryTables where
  queue : DispatchQueue
  policy : RetryPolicy
  recovery : RecoveryState
  capability : Option AttemptCapability
  liveness : Option WorkerLiveness
  commands : List ControlCommand
deriving DecidableEq

/-- The columns without the instants. -/
def untimedCommand (c : ControlCommand) : ControlCommand :=
  { c with acknowledgedAt := c.acknowledgedAt.map fun _ => 0 }

def tablesOf (r : DispatchRows) (commands : List ControlCommand) : RetryTables where
  queue := { r.queue with availableAt := 0, updatedAt := 0 }
  policy := { r.policy with
    nextEligibleAt := r.policy.nextEligibleAt.map fun _ => 0, updatedAt := 0 }
  recovery := { r.recovery with
    nextEligibleAt := r.recovery.nextEligibleAt.map fun _ => 0, updatedAt := 0 }
  capability := r.capability
  liveness := r.liveness
  commands := commands.map untimedCommand

def retryTables (s : ControlLedger) (dispatchId : DispatchId) : Option RetryTables :=
  (s.ledger.dispatches.get? dispatchId).map fun r => tablesOf r (s.commandsOf dispatchId)

end CodexFlow.ControlLedger

namespace CodexFlow.Ledger

structure DispatchRows.InAttention (r : DispatchRows) : Prop where
  queue : r.queue.state = .humanAttentionRequired
  policy : r.policy.strategy = .humanAttention
  recovery : r.recovery.recoveryState = .humanAttentionRequired

structure RecoveryState.Uninspected (s : RecoveryState) : Prop where
  threadId : s.inspectedThreadId = none
  turnId : s.inspectedTurnId = none
  kind : s.inspectedKind = none

def ControlEnv.sample : ControlEnv := { Env.sample with redactSteerText := id }

end CodexFlow.Ledger

namespace CodexFlow.ControlLedger

open Ledger Checked

variable {env : ControlEnv} {s s' s₁ s₂ s₃ : ControlLedger} {dispatchId : DispatchId}
  {r : DispatchRows} {op : Op} {now now₁ now₂ now₃ : Time}

/-- The retired attempt has left nothing behind. -/
structure Clean (s : ControlLedger) (dispatchId : DispatchId) : Prop where
  inspected : ∀ r, s.ledger.dispatches.get? dispatchId = some r → r.recovery.Uninspected
  commands : ∀ c ∈ s.commandsOf dispatchId, c.state.isOpen = false

theorem call_queue (h : s.call env (.queue op) = .ok s') :
    ∃ L, s.ledger.body env.toEnv op = .ok L ∧
      s' = { ledger := L, commands := s.commands.map fun c =>
        if closes s.ledger L c.dispatchId op then c.close (closedAt L c.dispatchId op) else c } := by
  simp only [call, body, perform, steps_ok] at h
  obtain ⟨-, -, ⟨L, hbody, rfl⟩, -, rfl⟩ := h
  exact ⟨L, hbody, rfl⟩

theorem commandsOf_map (f : ControlCommand → ControlCommand)
    (h : ∀ c, (f c).dispatchId = c.dispatchId) (L : Ledger) :
    commandsOf { ledger := L, commands := s.commands.map f } dispatchId =
      (s.commandsOf dispatchId).map f := by
  unfold commandsOf
  rw [List.filter_map]
  refine congrArg (List.map f) (List.filter_congr fun c _ => ?_)
  rw [Function.comp_apply, h]

theorem close_dispatchId (c : ControlCommand) : (c.close now).dispatchId = c.dispatchId := by
  unfold ControlCommand.close
  split_ifs <;> rfl

theorem close_closed (c : ControlCommand) : (c.close now).state.isOpen = false := by
  unfold ControlCommand.close
  split_ifs with h
  · rfl
  · exact Bool.eq_false_iff.mpr h

theorem close_of_closed {c : ControlCommand} (h : c.state.isOpen = false) : c.close now = c :=
  if_neg (Bool.eq_false_iff.mp h)

theorem untimedCommand_close (c : ControlCommand) :
    untimedCommand (c.close now) = untimedCommand (c.close 0) := by
  unfold ControlCommand.close
  split_ifs <;> rfl

theorem untimedCommand_state (c : ControlCommand) : (untimedCommand c).state = c.state := rfl

/-- The commands of a dispatch after an operation, as `closes` says. -/
theorem commandsOf_call (L : Ledger) :
    commandsOf { ledger := L, commands := s.commands.map fun c =>
        if closes s.ledger L c.dispatchId op then c.close (closedAt L c.dispatchId op) else c }
      dispatchId =
      if closes s.ledger L dispatchId op then
        (s.commandsOf dispatchId).map (·.close (closedAt L dispatchId op))
      else s.commandsOf dispatchId := by
  rw [commandsOf_map _ (fun c => by split_ifs <;> simp [close_dispatchId])]
  have same : ∀ c ∈ s.commandsOf dispatchId, c.dispatchId = dispatchId :=
    fun c mem => of_decide_eq_true (List.mem_filter.mp mem).2
  split_ifs with hcloses
  · refine List.map_congr_left fun c mem => ?_
    rw [same c mem, if_pos hcloses]
  · refine (List.map_congr_left fun c mem => ?_).trans (List.map_id _)
    rw [same c mem, if_neg hcloses]
    rfl

/-! ### What each entry leaves -/

theorem retryTables_call {r' : DispatchRows} (hr : s.ledger.dispatches.get? dispatchId = some r)
    (hbody : s.ledger.body env.toEnv op = .ok
      { s.ledger with dispatches := s.ledger.dispatches.set dispatchId r' })
    (h : s.call env (.queue op) = .ok s') {closed : Bool}
    (hcloses : closes s.ledger { s.ledger with dispatches := s.ledger.dispatches.set dispatchId r' }
      dispatchId op = closed) :
    s'.ledger.dispatches.get? dispatchId = some r' ∧
      s'.retryTables dispatchId = some (tablesOf r' (if closed then
        (s.commandsOf dispatchId).map (·.close 0) else s.commandsOf dispatchId)) := by
  obtain ⟨L, hbody', rfl⟩ := call_queue h
  obtain rfl := Except.ok.inj (hbody.symm.trans hbody')
  have hget := Table.get?_set_self hr r'
  refine ⟨hget, ?_⟩
  unfold retryTables
  rw [commandsOf_call, hcloses]
  dsimp only
  rw [hget]
  cases closed with
  | false => rfl
  | true =>
    refine congrArg some ?_
    unfold tablesOf
    dsimp only
    rw [if_pos rfl, if_pos rfl, List.map_map, List.map_map]
    congr 1
    exact List.map_congr_left fun c _ => untimedCommand_close c

/-- An operation that changes nothing leaves the tables as they are. -/
theorem retryTables_same (hbody : s.ledger.body env.toEnv op = .ok s.ledger)
    (h : s.call env (.queue op) = .ok s') (hcloses : closes s.ledger s.ledger dispatchId op = false) :
    s'.retryTables dispatchId = s.retryTables dispatchId := by
  obtain ⟨L, hbody', rfl⟩ := call_queue h
  obtain rfl := Except.ok.inj (hbody.symm.trans hbody')
  unfold retryTables
  rw [commandsOf_call, hcloses]
  rfl

/-- The rows that `retry_dispatch` and a `RETRY` action release. -/
def released (r : DispatchRows) (now : Time) : DispatchRows :=
  { r.releaseToQueue now now with policy := r.policy.settle (some now) now }

/-- The rows after `retry_dispatch`. -/
theorem retryDispatch_tables {strategy : RecoveryStrategy} {state : QueueState} {reason : String}
    (hr : s.ledger.dispatches.get? dispatchId = some r)
    (h : s.call env (.queue (.retryDispatch dispatchId strategy state reason now)) = .ok s') :
    s'.retryTables dispatchId =
      some (tablesOf (released r now) ((s.commandsOf dispatchId).map (·.close 0))) := by
  obtain ⟨L, hbody, -⟩ := call_queue h
  have hbody' := hbody
  simp only [Ledger.body, retryDispatch, checks_ok] at hbody'
  obtain ⟨-, hbody'⟩ := hbody'
  obtain ⟨r', _, hr', hwrites, rfl⟩ := onDispatch_ok.1 hbody'
  obtain rfl := Option.some.inj (hr.symm.trans hr')
  simp only [steps_ok] at hwrites
  obtain ⟨-, rfl⟩ := hwrites
  exact (retryTables_call hr hbody h (decide_eq_true rfl)).2

/-- A recovery action that is recorded for the first time leaves the same tables. -/
theorem action_tables {action : RecoveryAction} {activeTurn : Bool}
    (hr : s.ledger.dispatches.get? dispatchId = some r) (hkind : action.actionKind = .retry)
    (h : s.call env (.queue (.action dispatchId action activeTurn now)) = .ok s') :
    if (s.ledger.findControl action.actionId).isNone then
      s'.retryTables dispatchId =
        some (tablesOf (released r now) ((s.commandsOf dispatchId).map (·.close 0)))
    else s'.retryTables dispatchId = s.retryTables dispatchId := by
  obtain ⟨L, hbody, -⟩ := call_queue h
  have hbody' := hbody
  simp only [Ledger.body, applyRecoveryAction, checks_ok] at hbody'
  obtain ⟨-, -, -, -, -, -, hbody'⟩ := hbody'
  split at hbody'
  · rename_i found hfound
    simp only [steps_ok] at hbody'
    obtain ⟨-, -, rfl⟩ := hbody'
    rw [hfound]
    refine retryTables_same hbody h ?_
    unfold closes closes.cancels
    simp [hfound]
  · rename_i hfresh
    obtain ⟨r', _, hr', hwrites, rfl⟩ := onDispatch_ok.1 hbody'
    obtain rfl := Option.some.inj (hr.symm.trans hr')
    simp only [actionEffect, hkind, steps_ok] at hwrites
    obtain ⟨-, -, -, _, ⟨-, rfl⟩, rfl⟩ := hwrites
    have hcloses : ∀ L, closes s.ledger L dispatchId (.action dispatchId action activeTurn now) =
        true := by
      intro L
      unfold closes
      simp [hfresh, hkind]
    rw [hfresh, if_pos Option.isNone_none]
    exact (retryTables_call hr hbody h (hcloses _)).2

/-- A bundle that is committed for the first time keeps the inspected turn and the commands. -/
theorem controllerActions_tables {q : SubmitRequest} {control : ControllerControl}
    (hr : s.ledger.dispatches.get? dispatchId = some r)
    (hactions : q.bundle.actions = [.retryDispatch control])
    (hcontrol : control.dispatchId = dispatchId)
    (h : s.call env (.queue (.controllerActions q now)) = .ok s') :
    if (s.ledger.findOutbox q.bundle.actionId).isNone then
      s'.retryTables dispatchId =
        some (tablesOf (r.controllerRetry now) (s.commandsOf dispatchId))
    else s'.retryTables dispatchId = s.retryTables dispatchId := by
  obtain ⟨L, hbody, -⟩ := call_queue h
  have hbody' := hbody
  obtain ⟨-, ⟨rfl, found, hfound, -⟩ | ⟨d, kind, cycle, decision, r', r'', hcommits, rfl⟩⟩ :=
    submitControllerActions_cases hbody'
  · rw [hfound]
    refine retryTables_same hbody h ?_
    unfold closes closes.cancels
    simp
  · have hfresh := hcommits.fresh
    have hwrites := hcommits.body
    simp only [commitBundle, applyControllerActions, hactions, controllerEffects, controllerEffect,
      steps_ok] at hwrites
    obtain ⟨-, r₁, ⟨-, -, -, -, htarget, r₂, ⟨-, rfl⟩, rfl⟩, hwrites⟩ := hwrites
    split at hwrites
    · cases hwrites
    · simp only [steps_ok] at hwrites
      obtain ⟨-, rfl⟩ := hwrites
      obtain rfl : control.dispatchId = d := of_decide_eq_true htarget
      obtain rfl := hcontrol
      obtain rfl := Option.some.inj (hr.symm.trans hcommits.rows)
      have hkept : ∀ r' : DispatchRows, r'.queue.state = .queued →
          closes s.ledger { s.ledger with
              dispatches := s.ledger.dispatches.set control.dispatchId r' }
            control.dispatchId (.controllerActions q now) = false := by
        intro r' hstate
        unfold closes closes.cancels
        dsimp only
        rw [Table.get?_set_self hr r', Option.any_some, hstate]
        rfl
      rw [hfresh, if_pos Option.isNone_none]
      exact (retryTables_call hr hbody h (hkept _ rfl)).2

/-! ### Where they agree -/

/-- The entries leave the same tables, and nothing of the retired attempt. -/
structure RetriesAgree (s₁ s₂ s₃ : ControlLedger) (dispatchId : DispatchId) : Prop where
  action : s₁.retryTables dispatchId = s₂.retryTables dispatchId
  bundle : s₁.retryTables dispatchId = s₃.retryTables dispatchId
  clean : s₁.Clean dispatchId ∧ s₂.Clean dispatchId ∧ s₃.Clean dispatchId

theorem clean_of_tables {commands : List ControlCommand}
    (h : s.retryTables dispatchId = some (tablesOf r commands)) (hr : r.recovery.Uninspected)
    (hclosed : ∀ c ∈ commands, c.state.isOpen = false) : s.Clean dispatchId := by
  unfold retryTables at h
  obtain ⟨r', hr', heq⟩ := Option.map_eq_some_iff.mp h
  have hrecovery := congrArg RetryTables.recovery heq
  have hcommands := congrArg RetryTables.commands heq
  refine ⟨fun r'' hr'' => ?_, fun c mem => ?_⟩
  · obtain rfl := Option.some.inj (hr'.symm.trans hr'')
    have hthread := congrArg RecoveryState.inspectedThreadId hrecovery
    have hturn := congrArg RecoveryState.inspectedTurnId hrecovery
    have hkind := congrArg RecoveryState.inspectedKind hrecovery
    exact ⟨hthread.trans hr.threadId, hturn.trans hr.turnId, hkind.trans hr.kind⟩
  · have hmem := List.mem_map_of_mem (f := untimedCommand) mem
    have hin : untimedCommand c ∈ commands.map untimedCommand := hcommands.subst hmem
    obtain ⟨c', mem', same⟩ := List.mem_map.mp hin
    have hstate := congrArg ControlCommand.state same
    rw [untimedCommand_state, untimedCommand_state] at hstate
    rw [← hstate]
    exact hclosed c' mem'

/-- Where nothing was inspected, a controller releases the same rows. -/
theorem controllerRetry_tables (hr : r.recovery.Uninspected) (commands : List ControlCommand)
    (now now' : Time) :
    tablesOf (r.controllerRetry now) commands = tablesOf (released r now') commands := by
  obtain ⟨hthread, hturn, hkind⟩ := hr
  simp [tablesOf, released, DispatchRows.controllerRetry, DispatchRows.releaseToQueue,
    RecoveryState.reset, RetryPolicy.settle, DispatchQueue.requeue, hthread, hturn, hkind]

/-- The three retries of a dispatch in attention agree exactly when both identities are new, no
inspection has left its facts and no command waits. -/
theorem retries_agree_iff {strategy : RecoveryStrategy} {state : QueueState} {reason : String}
    {action : RecoveryAction} {activeTurn : Bool} {q : SubmitRequest} {control : ControllerControl}
    (hr : s.ledger.dispatches.get? dispatchId = some r) (hattention : r.InAttention)
    (hretry : s.call env (.queue (.retryDispatch dispatchId strategy state reason now₁)) = .ok s₁)
    (haction : s.call env (.queue (.action dispatchId action activeTurn now₂)) = .ok s₂)
    (hkind : action.actionKind = .retry)
    (hbundle : s.call env (.queue (.controllerActions q now₃)) = .ok s₃)
    (hactions : q.bundle.actions = [.retryDispatch control])
    (hcontrol : control.dispatchId = dispatchId) :
    RetriesAgree s₁ s₂ s₃ dispatchId ↔
      s.ledger.findControl action.actionId = none ∧ s.ledger.findOutbox q.bundle.actionId = none ∧
        s.Clean dispatchId := by
  have htables := retryDispatch_tables hr hretry
  have htables₂ := action_tables hr hkind haction
  have htables₃ := controllerActions_tables hr hactions hcontrol hbundle
  have hbefore : s.retryTables dispatchId = some (tablesOf r (s.commandsOf dispatchId)) := by
    unfold retryTables
    rw [hr]
    rfl
  have hmoved : s₁.retryTables dispatchId ≠ s.retryTables dispatchId := by
    intro same
    rw [htables, hbefore] at same
    have hstate : QueueState.queued = r.queue.state :=
      congrArg (·.queue.state) (Option.some.inj same)
    rw [hattention.queue] at hstate
    cases hstate
  constructor
  · intro agree
    have hcontrol : s.ledger.findControl action.actionId = none := by
      by_contra hsome
      rw [if_neg (by simpa using hsome)] at htables₂
      exact hmoved (agree.action.trans htables₂)
    have houtbox : s.ledger.findOutbox q.bundle.actionId = none := by
      by_contra hsome
      rw [if_neg (by simpa using hsome)] at htables₃
      exact hmoved (agree.bundle.trans htables₃)
    rw [houtbox, if_pos Option.isNone_none] at htables₃
    have same := Option.some.inj (htables.symm.trans (agree.bundle.trans htables₃))
    have hrecovery := congrArg RetryTables.recovery same
    have hcommands := congrArg RetryTables.commands same
    refine ⟨hcontrol, houtbox, fun r' hr' => ?_, fun c mem => ?_⟩
    · obtain rfl := Option.some.inj (hr.symm.trans hr')
      exact ⟨(congrArg RecoveryState.inspectedThreadId hrecovery).symm,
        (congrArg RecoveryState.inspectedTurnId hrecovery).symm,
        (congrArg RecoveryState.inspectedKind hrecovery).symm⟩
    · have hclosed := List.map_inj_left.mp (List.map_map.symm.trans hcommands) c mem
      have hstate := congrArg ControlCommand.state hclosed
      rw [Function.comp_apply, untimedCommand_state, untimedCommand_state] at hstate
      rw [← hstate]
      exact close_closed c
  · rintro ⟨hcontrol, houtbox, hclean⟩
    rw [hcontrol, if_pos Option.isNone_none] at htables₂
    rw [houtbox, if_pos Option.isNone_none] at htables₃
    have hr' := hclean.inspected r hr
    have hcommands : (s.commandsOf dispatchId).map (·.close 0) = s.commandsOf dispatchId :=
      (List.map_congr_left fun c mem => close_of_closed (hclean.commands c mem)).trans
        (List.map_id _)
    rw [hcommands] at htables htables₂
    have hclosed := hclean.commands
    have hreset : ∀ now, (released r now).recovery.Uninspected := fun _ => ⟨rfl, rfl, rfl⟩
    rw [controllerRetry_tables hr' _ now₃ now₁] at htables₃
    exact ⟨htables.trans htables₂.symm, htables.trans htables₃.symm,
      clean_of_tables htables (hreset _) hclosed, clean_of_tables htables₂ (hreset _) hclosed,
      clean_of_tables htables₃ (hreset _) hclosed⟩

/-! ### Two runs -/

def heldRun : List Op :=
  opened ++ [Op.decision sampleId .checkpoint 1 (sampleClaim .human) 3] ++ started 1

/-- The dispatch is stopped for attention before anything was inspected. -/
def uninspectedRun : List ControlOp :=
  (heldRun ++ [Op.requireAttention sampleId "look" none 5]).map .queue

/-- The worker exits, and the inspection of its turn is ambiguous. -/
def ambiguousRun : List ControlOp :=
  (heldRun ++ [Op.exit sampleId ⟨41, "birth"⟩ {} 5,
    Op.inspection sampleId
      { kind := .ambiguous, threadId := some "thread", turnId := some "turn" } 6]).map .queue

def sampleRetry (revision : ℕ) : RecoveryAction where
  actionId := "retry"
  expectedRevision := revision
  actionKind := .retry
  reason := "again"

def sampleControl (revision : ℕ) : ControllerControl where
  dispatchId := sampleId
  actionId := "again"
  expectedRetryRevision := revision

def sampleRetries (revision : ℕ) : Op × Op × Op :=
  (.retryDispatch sampleId .humanAttention .humanAttentionRequired "again" 7,
    .action sampleId (sampleRetry revision) false 7,
    .controllerActions (sampleSubmission [.retryDispatch (sampleControl revision)]) 7)

def afterRun (run : List ControlOp) : ControlLedger := Machine.run (next .sample) {} run

theorem afterRun_reachable (run : List ControlOp) : (afterRun run).Reachable .sample := ⟨run, rfl⟩

theorem call_eq_next {op : ControlOp} (h : (s.call env op).toOption.isSome = true) :
    s.call env op = .ok (s.next env op) := by
  unfold next
  cases hcall : s.call env op with
  | error e => rw [hcall] at h; cases h
  | ok s' => rfl

/-- The sample dispatch waits for attention and takes each of the three retries. -/
def takesRetries (run : List ControlOp) (revision : ℕ) : Bool :=
  ((afterRun run).ledger.dispatches.get? sampleId).any (fun r =>
      r.queue.state = .humanAttentionRequired && r.policy.strategy = .humanAttention &&
        r.recovery.recoveryState = .humanAttentionRequired) &&
    ((afterRun run).call .sample (.queue (sampleRetries revision).1)).toOption.isSome &&
    ((afterRun run).call .sample (.queue (sampleRetries revision).2.1)).toOption.isSome &&
    ((afterRun run).call .sample (.queue (sampleRetries revision).2.2)).toOption.isSome

theorem takesRetries_spec {run : List ControlOp} {revision : ℕ}
    (h : takesRetries run revision = true) :
    ∃ r, (afterRun run).ledger.dispatches.get? sampleId = some r ∧ r.InAttention ∧
      (afterRun run).call .sample (.queue (sampleRetries revision).1) =
        .ok ((afterRun run).next .sample (.queue (sampleRetries revision).1)) ∧
      (afterRun run).call .sample (.queue (sampleRetries revision).2.1) =
        .ok ((afterRun run).next .sample (.queue (sampleRetries revision).2.1)) ∧
      (afterRun run).call .sample (.queue (sampleRetries revision).2.2) =
        .ok ((afterRun run).next .sample (.queue (sampleRetries revision).2.2)) := by
  unfold takesRetries at h
  simp only [Bool.and_eq_true] at h
  obtain ⟨⟨⟨hattention, hretry⟩, haction⟩, hbundle⟩ := h
  obtain ⟨r, hr, hstates⟩ := (Option.any_eq_true _ _).1 hattention
  simp only [Bool.and_eq_true, decide_eq_true_eq] at hstates
  obtain ⟨⟨hqueue, hpolicy⟩, hrecovery⟩ := hstates
  exact ⟨r, hr, ⟨hqueue, hpolicy, hrecovery⟩, call_eq_next hretry, call_eq_next haction,
    call_eq_next hbundle⟩

/-- Before any inspection the three entries agree. -/
theorem uninspected_retries_agree :
    RetriesAgree ((afterRun uninspectedRun).next .sample (.queue (sampleRetries 1).1))
      ((afterRun uninspectedRun).next .sample (.queue (sampleRetries 1).2.1))
      ((afterRun uninspectedRun).next .sample (.queue (sampleRetries 1).2.2)) sampleId := by
  have htakes : takesRetries uninspectedRun 1 = true := by decide +kernel
  obtain ⟨r, hr, hattention, hretry, haction, hbundle⟩ := takesRetries_spec htakes
  have hclean : ((afterRun uninspectedRun).ledger.dispatches.get? sampleId).all (fun r =>
        r.recovery.inspectedThreadId.isNone && r.recovery.inspectedTurnId.isNone &&
          r.recovery.inspectedKind.isNone) = true ∧
      (afterRun uninspectedRun).commands = [] ∧
      (afterRun uninspectedRun).ledger.findControl "retry" = none ∧
      (afterRun uninspectedRun).ledger.findOutbox "action" = none := by decide +kernel
  obtain ⟨huninspected, hcommands, hcontrol, houtbox⟩ := hclean
  refine (retries_agree_iff hr hattention hretry haction rfl hbundle rfl rfl).2
    ⟨hcontrol, houtbox, fun r' hr' => ?_, fun c mem => ?_⟩
  · rw [hr'] at huninspected
    simp only [Option.all_some, Bool.and_eq_true, Option.isNone_iff_eq_none] at huninspected
    exact ⟨huninspected.1.1, huninspected.1.2, huninspected.2⟩
  · rw [commandsOf, hcommands] at mem
    cases mem

/-- After an ambiguous inspection the controller's retry keeps the inspected turn. -/
theorem ambiguous_retries_disagree :
    ¬ ∀ (env : ControlEnv) (s s₁ s₂ s₃ : ControlLedger) (dispatchId : DispatchId)
      (r : DispatchRows) (strategy : RecoveryStrategy) (state : QueueState) (reason : String)
      (action : RecoveryAction) (activeTurn : Bool) (q : SubmitRequest)
      (control : ControllerControl) (now₁ now₂ now₃ : Time), s.Reachable env →
      s.ledger.dispatches.get? dispatchId = some r → r.InAttention →
      s.call env (.queue (.retryDispatch dispatchId strategy state reason now₁)) = .ok s₁ →
      s.call env (.queue (.action dispatchId action activeTurn now₂)) = .ok s₂ →
      action.actionKind = .retry →
      s.call env (.queue (.controllerActions q now₃)) = .ok s₃ →
      q.bundle.actions = [.retryDispatch control] → control.dispatchId = dispatchId →
      RetriesAgree s₁ s₂ s₃ dispatchId := by
  intro h
  have htakes : takesRetries ambiguousRun 2 = true := by decide +kernel
  obtain ⟨r, hr, hattention, hretry, haction, hbundle⟩ := takesRetries_spec htakes
  have agree := h .sample (afterRun ambiguousRun) _ _ _ sampleId r _ _ _ _ _ _ (sampleControl 2)
    _ _ _ (afterRun_reachable ambiguousRun) hr hattention hretry haction rfl hbundle rfl rfl
  have hkept : (((afterRun ambiguousRun).next .sample (.queue (sampleRetries 2).2.2)).ledger
      |>.dispatches.get? sampleId).any (·.recovery.inspectedKind.isSome) = true := by
    decide +kernel
  obtain ⟨r', hr', hkind⟩ := (Option.any_eq_true _ _).1 hkept
  rw [(agree.clean.2.2.inspected r' hr').kind] at hkind
  cases hkind

end CodexFlow.ControlLedger
