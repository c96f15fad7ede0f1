import CodexFlow.Executions.Restarts

/-!
# One crossing

Over every run of the controller's calls, with a crash or an exception anywhere: an SDK call is made
at most once for an execution, at its committed marker; a marker that is there stays, and keeps
later calls from the boundary; and a marker that was taken back leaves an execution that can be
started or resumed again.
-/

namespace CodexFlow.Executions

open Checked Scripted Controller

variable {host : Host} {direct : Prop} {key : ExecutionKey} {e : Execution} {m : MilestoneRows}
  {w w' : World} {call : SdkCall}

namespace World

/-! ### Runs -/

theorem good_after (steps : List (Request × List Bool)) : (after host steps).Good host False :=
  Machine.invariant (I := fun w : World => w.Good host False)
    (fun _ step good => (next_within good step False.elim).good) good_initial steps

theorem good_after_direct {steps : List (Request × List Bool)}
    (single : Machine.Along (next host) Direct {} steps) : (after host steps).Good host True :=
  Machine.invariant_along (I := fun w : World => w.Good host True)
    (fun _ step good single => (next_within good step fun _ => single).good) good_initial single

theorem marks_after (steps : List (Request × List Bool)) : (after host steps).Marks := by
  have both : (after host steps).Good host False ∧ (after host steps).Marks :=
    Machine.invariant (I := fun w : World => w.Good host False ∧ w.Marks)
      (fun _ step h =>
        have within_ := next_within h.1 step False.elim
        ⟨within_.good, within_.held.marks h.2⟩)
      ⟨good_initial, marks_initial⟩ steps
  exact both.2

theorem Held.stands (held : w.Held w') (marked : w.ledger.Marked key call) :
    w'.ledger.Marked key call ∧ w'.crossed key call = w.crossed key call := by
  obtain ⟨same, kept⟩ | ⟨unmarked, -⟩ := held key call
  · exact ⟨kept marked, same⟩
  · exact absurd marked unmarked

theorem marker_stands (good : w.Good host False) (marked : w.ledger.Marked key call)
    (later : List (Request × List Bool)) :
    (Machine.run (next host) w later).ledger.Marked key call ∧
      (Machine.run (next host) w later).crossed key call = w.crossed key call := by
  have kept : (Machine.run (next host) w later).Good host False ∧
      (Machine.run (next host) w later).ledger.Marked key call ∧
      (Machine.run (next host) w later).crossed key call = w.crossed key call :=
    Machine.invariant (I := fun w' : World => w'.Good host False ∧ w'.ledger.Marked key call ∧
        w'.crossed key call = w.crossed key call)
      (fun _ step h =>
        have within_ := next_within h.1 step False.elim
        have stands := within_.held.stands h.2.1
        ⟨within_.good, stands.1, stands.2.trans h.2.2⟩)
      ⟨good, marked, rfl⟩ later
  exact kept.2

/-- An execution whose SDK call was made has no App-native dispatch. -/
theorem Good.direct_route (good : w.Good host True) {x : Crossing} (hx : x ∈ w.crossings)
    (hm : w.ledger.milestones.get? x.key = some m) : m.appNative = none := by
  obtain ⟨m', hm', profile⟩ := good.profiled x hx
  obtain rfl := Option.some.inj (hm.symm.trans hm')
  exact (good.oneRoute trivial x.key m hm).exclusive profile

/-! ### Answers -/

/-- What an execution answers to a start or a resume, whatever these find outside the ledger. -/
structure Answers (host : Host) (w : World) (key : ExecutionKey) (m : MilestoneRows)
    (e : Execution) : Prop where
  startAtThread : e.AtBoundary .startThread → ∀ env, Always (start host key env) w fun a w' =>
    w'.crossings = w.crossings ∧ (Interrupted a ∨
      (a = .error (some (.uncertainPreIdentity
          "prior SDK start crossed the durable external-call boundary")) ∧
        ∃ e', w'.ledger.execution? key = some e' ∧ e'.status = .uncertainPreIdentity))
  resumeAtThread : e.AtBoundary .startThread → ∀ env, Refuses (resume host key env) w
    (.controllerError "execution has no durable SDK identity; use start")
  startUncertain : e.status = .uncertainPreIdentity → ∀ env,
    Always (start host key env) w fun a w' => w' = w ∧ (Interrupted a ∨ a = .ok ())
  resumeUncertain : e.status = .uncertainPreIdentity → ∀ env, Refuses (resume host key env) w
    (.uncertainPreIdentity "execution has uncertain pre-identity transport state")
  startAtTurn : e.AtBoundary .runTurn → ∀ env, Refuses (start host key env) w
    (.resumeRequired "execution already has a durable SDK identity; use resume")
  resumeAtTurn : e.AtBoundary .runTurn → ∀ env i, m.integrity = some i →
    env.native.nativeCompatibilitySha256 = i.nativeCompatibilitySha256 →
    (i.effectivePermission.meet env.native.effectivePermission).isSome →
    Refuses (resume host key env) w (.uncertainTurn
      "SDK turn crossed the external-call boundary without a durable response")
  /-- Without the marker of its thread start. -/
  restarts : e.status = .planned → e.checkpoint = .workspaceBaselineDurable → m.integrity.isSome →
    m.appNative = none → ∃ env script,
      (w.next host (.start key env, script)).crossed key .startThread =
        w.crossed key .startThread + 1
  /-- Without the marker of its turn. -/
  resumes : e.status = .threadStarted → e.turnId = none →
    e.turnOutput ≠ some turnStartingMarker → m.integrity.isSome → ∃ env script,
      (w.next host (.resume key env, script)).crossed key .runTurn = w.crossed key .runTurn + 1

theorem Good.answers (good : w.Good host direct) (hm : w.ledger.milestones.get? key = some m)
    (he : m.execution = some e) : w.Answers host key m e where
  startAtThread boundary env := start_at_threadStart good hm he boundary
  resumeAtThread boundary env := resume_at_threadStart hm he boundary
  startUncertain uncertain env := start_uncertain good hm he uncertain
  resumeUncertain uncertain env := resume_uncertain hm he uncertain
  startAtTurn boundary env := start_at_turn good hm he boundary.1
  resumeAtTurn boundary env i hi compatible permitted :=
    resume_at_turn good hm he hi boundary compatible permitted
  restarts planned baseline profile alone := by
    obtain ⟨i, hi⟩ := Option.isSome_iff_exists.mp profile
    obtain ⟨_, ⟨script, -, rfl⟩, more⟩ := stops_start good hm he hi alone planned baseline
    exact ⟨i.surroundings, script, more⟩
  resumes started turn unmarked profile := by
    obtain ⟨i, hi⟩ := Option.isSome_iff_exists.mp profile
    obtain ⟨_, ⟨script, -, rfl⟩, more⟩ := stops_resume good hm he hi started turn unmarked
    exact ⟨i.surroundings, script, more⟩

/-! ### Rejections -/

theorem reject_clears {L L' : ExecutionLedger} {c : Call} (clears : c.clears = some call)
    (done : L.perform host (.call key c) = .ok L') : ¬ L'.Marked key call := by
  obtain ⟨m, m', -, hcall, -, hm', -⟩ := perform_call_rows done
  rw [ExecutionLedger.marked_of_get? hm']
  cases c with
  | rejectThreadStartAuthorization =>
    obtain rfl : SdkCall.startThread = call := Option.some.inj clears
    obtain ⟨e, he, start, rfl⟩ := MilestoneRows.rejectThreadStartAuthorization_ok hcall
    rw [MilestoneRows.marked_iff rfl]
    exact MilestoneRows.not_marked_of_planned (MilestoneRows.atThreadStart_iff.mp start).1 nofun
  | rejectTurnAuthorization =>
    obtain rfl : SdkCall.runTurn = call := Option.some.inj clears
    obtain ⟨e, i, he, -, thread, turn, -, -, rfl⟩ := MilestoneRows.rejectTurnAuthorization_ok hcall
    rw [MilestoneRows.marked_iff rfl]
    intro marked
    obtain there | there := marked.2 (MilestoneRows.started_of_hasThread thread)
    · change e.turnId.isSome at there
      rw [turn] at there
      cases there
    · cases there
  | _ => cases clears

/-- The external boundary over every run: each SDK call is made once, at its committed marker, and
never for a cancelled execution; while no App-native dispatch is prepared for an execution that is
bound to a profile, an execution whose SDK is called has no such dispatch. A marker stays and keeps
later calls from the boundary, a rejection takes it back, and a start or a resume answers by it. -/
theorem sdk_boundary_crossed_once (host : Host) (steps : List (Request × List Bool)) :
    (∀ key call, (after host steps).crossed key call ≤ 1) ∧
    (∀ x ∈ (after host steps).crossings, x.Authorized) ∧
    (Machine.Along (next host) Direct {} steps → ∀ x ∈ (after host steps).crossings,
      (∀ m ∈ x.rows, m.appNative = none) ∧
        ∀ m, (after host steps).ledger.milestones.get? x.key = some m → m.appNative = none) ∧
    (∀ before later key call, steps = before ++ later →
      (after host before).ledger.Marked key call →
      (after host steps).ledger.Marked key call ∧
        (after host steps).crossed key call = (after host before).crossed key call) ∧
    (∀ (L L' : ExecutionLedger) key c call, c.clears = some call →
      L.perform host (.call key c) = .ok L' → ¬ L'.Marked key call) ∧
    (∀ key m e, (after host steps).ledger.milestones.get? key = some m → m.execution = some e →
      (after host steps).Answers host key m e) := by
  have good : (after host steps).Good host False := good_after steps
  refine ⟨fun key call => (marks_after steps key call).1, good.authorized, fun single x hx => ?_,
    ?_, fun _ _ _ _ _ => reject_clears, fun _ _ _ hm he => good.answers hm he⟩
  · have direct_ := good_after_direct single
    exact ⟨direct_.alone trivial x hx, fun m hm => direct_.direct_route hx hm⟩
  · rintro before later key call rfl marked
    unfold after
    rw [Machine.run_append]
    exact marker_stands (good_after before) marked later

end World

/-! ### Runs of one execution -/

/-- The code outside the ledger returns so often. -/
def returning (n : ℕ) : List Bool := List.replicate n true

def sampleSurroundings : Surroundings where
  native := sampleProfile
  threadId := "thread"
  gitBefore := gitSha256
  turn := ⟨⟨"thread", "turn", none, []⟩, .unchanged, acceptingObservations⟩

def samplePlan : Request × List Bool :=
  (.plan ⟨sampleCapsule, "/state/capsule.json", capsuleSha256, protectedSha256⟩, returning 4)

def sampleStart (script : List Bool) : Request × List Bool :=
  (.start sampleCapsule.key sampleSurroundings, script)

/-- A start that dies while the SDK starts the thread, and one that finds its marker. -/
def uncertainRun : List (Request × List Bool) :=
  [samplePlan, sampleStart (returning 20), sampleStart (returning 2)]

/-- A start that dies once the profile is recorded, a prepare, and a start that calls the SDK. -/
def bothRoutesRun : List (Request × List Bool) :=
  [samplePlan, sampleStart (returning 9),
    (.prepareAppNative sampleCapsule.key ⟨"token", "challenge", "prompt", "schema", baseSha, [],
      gitSha256, stateSha256⟩, returning 6),
    sampleStart (returning 20)]

def rejectedRun : List (Request × List Bool) :=
  [samplePlan, sampleStart (returning 16 ++ [false, true])]

namespace World

/-- After the crash a start returns, and an execution with an App-native dispatch is started. -/
theorem uncertain_start_returns :
    ((start sampleHost sampleCapsule.key sampleSurroundings).run (after sampleHost uncertainRun)
      (returning 1)).1.toOption = some () ∧
    ((after sampleHost uncertainRun).crossed sampleCapsule.key .startThread = 1) ∧
    ((after sampleHost bothRoutesRun).crossings.any fun x =>
      x.rows.any fun m => m.appNative.isSome) := by
  refine ⟨?_, ?_, ?_⟩ <;> decide

/-- After the rejection the execution is started again. -/
theorem rejected_restarts : ∃ env script,
    ((after sampleHost rejectedRun).next sampleHost (.start sampleCapsule.key env, script)).crossed
      sampleCapsule.key .startThread = 1 := by
  have rows : ((after sampleHost rejectedRun).ledger.milestones.get? sampleCapsule.key).any
      fun m => m.execution.any (fun e => e.status = .planned &&
        e.checkpoint = .workspaceBaselineDurable) && m.integrity.isSome && m.appNative.isNone := by
    decide
  have uncrossed : (after sampleHost rejectedRun).crossed sampleCapsule.key .startThread = 0 := by
    decide
  obtain ⟨m, hm, facts⟩ := (Option.any_eq_true ..).mp rows
  simp only [Bool.and_eq_true, Option.any_eq_true, decide_eq_true_eq, Option.isNone_iff_eq_none]
    at facts
  obtain ⟨⟨⟨e, he, planned, baseline⟩, profile⟩, alone⟩ := facts
  have answers := (sdk_boundary_crossed_once sampleHost rejectedRun).2.2.2.2.2 _ m e hm he
  obtain ⟨env, script, more⟩ := answers.restarts planned baseline profile alone
  rw [uncrossed] at more
  exact ⟨env, script, more⟩

end World

end CodexFlow.Executions
