import CodexFlow.Programs.Runs
import CodexFlow.Ledger.Authority

/-!
# One bundle a revision

A bundle is committed at the revision that its program has, and advances it, so no revision has two.
A stale bundle is refused, and a committed one is answered with its receipt for good.
-/

namespace CodexFlow.Programs

open Ledger (Time ProgramEvent ActionOutbox ActionBundle)
open Checked

variable {host : Host} {S S' : System} {P P' : Program} {op : Op} {id : String} {now : Time}
  {event : ProgramEvent}

/-! ### The decision of a commit -/

/-- What the authorization of a bundle compares. -/
structure Authorized (q : Ledger.ProgramSubmitRequest) (event : ProgramEvent)
    (f : Ledger.ProgramFacts) (p : Ledger.ProgramDecision) : Prop where
  generation : p.decision.currentGeneration = q.bundle.generation
  opened : p.programRevision = q.bundle.expectedProgramRevision
  revision : f.programRevision = q.bundle.expectedProgramRevision
  planDigest : f.planDigest = q.bundle.planDigest
  trunkHead : f.trunkHead = q.bundle.expectedTrunkHead
  eventKind : q.bundle.eventKind = event.eventKind
  eventKey : q.bundle.eventKey = event.eventKey

theorem authorize_ok {env : Ledger.Env} {q : Ledger.ProgramSubmitRequest} {f : Ledger.ProgramFacts}
    {p : Ledger.ProgramDecision} (h : q.authorize env event f p = .ok ()) :
    Authorized q event f p := by
  simp only [Ledger.ProgramSubmitRequest.authorize, checks_ok] at h
  obtain ⟨-, h⟩ := h
  split_ifs at h
  · simp only [checks_ok] at h
    obtain ⟨-, -, hgeneration, hrevision, hplan, htrunk, hevent⟩ := h
    exact ⟨hgeneration, hrevision.1, hrevision.2, hplan, htrunk, hevent.1, hevent.2⟩
  · simp only [checks_ok] at h
    obtain ⟨-, hgeneration, hrevision, hplan, htrunk, hevent⟩ := h
    exact ⟨hgeneration, hrevision.1, hrevision.2, hplan, htrunk, hevent.1, hevent.2⟩

/-- A fresh commit is authorized, and writes its receipt to the decision. -/
theorem submitProgramActions_fresh {env : Ledger.Env} {L L' : Ledger}
    {q : Ledger.ProgramSubmitRequest} {f : Ledger.ProgramFacts} {effects : Checked Unit}
    (h : L.submitProgramActions env event q f effects now = .ok L')
    (hfresh : (L.programDecisions.get? event).any (·.decision.outbox.isSome) = false) :
    f.capable ∧ ∃ p c, L.programDecisions.get? event = some p ∧ Authorized q event f p ∧
      L' = { L with programDecisions :=
        L.programDecisions.set event { p with decision := q.committed env c now p.decision } } := by
  simp only [Ledger.submitProgramActions, bind_eq_ok] at h
  obtain ⟨-, -, -, -, h⟩ := h
  split at h
  · cases h
  rename_i p hp
  simp only [checks_ok, Ledger.ProgramFacts.requireCapability] at h
  obtain ⟨hcapable, -, h⟩ := h
  split at h
  · rename_i o ho
    rw [hp, Option.any_some, ho] at hfresh
    cases hfresh
  simp only [bind_eq_ok] at h
  obtain ⟨⟨⟩, hauthorized, -, -, h⟩ := h
  split at h
  · cases h
  rename_i c hc
  simp only [steps_ok] at h
  obtain ⟨-, rfl⟩ := h
  exact ⟨hcapable, p, c, hp, authorize_ok hauthorized, rfl⟩

theorem Program.capable_of_continues (h : P.Continues P') (hcapable : P.capable) :
    P'.capable := by
  unfold capable at hcapable ⊢
  rw [List.all_eq_true] at hcapable ⊢
  rintro ⟨key, m'⟩ hmem
  have hm' : P'.milestones.get? key = some m' := Table.get?_eq_some.2 hmem
  have hkey : key ∈ P.milestones.keys := h.keys ▸ Table.mem_keys_of_get? hm'
  cases hm : P.milestones.get? key with
  | none => exact absurd hkey (Table.get?_eq_none.1 hm)
  | some m =>
    obtain ⟨m₁, hm₁, hcontinues⟩ := h.milestones key m hm
    obtain rfl := Option.some.inj (hm₁.symm.trans hm')
    rw [hcontinues.node]
    exact hcapable ⟨key, m⟩ (Table.get?_eq_some.1 hm)

namespace System

/-! ### Receipts -/

/-- The decisions of the programs only make the moves of a decision. -/
theorem body_programs (h : S.body host op = .ok S') :
    ∃ mints, Ledger.ProgramMoves mints S.ledger S'.ledger := by
  cases op with
  | ledger op hop =>
    simp only [body, bind_eq_ok, pure_eq_ok] at h
    obtain ⟨L, hL, rfl⟩ := h
    exact ⟨_, Ledger.body_programs hL⟩
  | register g =>
    simp only [body, registerProgram, bind_eq_ok] at h
    obtain ⟨P, hP, h⟩ := h
    refine ⟨fun _ => True, .of_programs ?_⟩
    split at h
    · rw [← pure_eq_ok.1 h]
    · simp only [bind_eq_ok, pure_eq_ok] at h
      obtain ⟨-, -, -, -, rfl⟩ := h
      rfl
  | call programId call now =>
    simp only [body, callProgram, bind_eq_ok, pure_eq_ok] at h
    obtain ⟨P, hP, ⟨P', event⟩, -, L, hL, rfl⟩ := h
    refine ⟨fun _ => True, .of_opens ?_⟩
    cases event with
    | none => exact pure_eq_ok.1 hL ▸ .refl S.ledger
    | some e => exact Ledger.ensureProgramDecision_opens hL
  | event event deadline now =>
    simp only [body, recordEvent, bind_eq_ok, pure_eq_ok] at h
    obtain ⟨P, -, L, hL, rfl⟩ := h
    exact ⟨fun _ => True, Ledger.recordProgramEvent_programs hL⟩
  | reconcileStale now =>
    simp only [body, reconcileStale, bind_eq_ok, pure_eq_ok] at h
    obtain ⟨L, hL, rfl⟩ := h
    exact ⟨fun _ => True, Ledger.reconcileStaleDecisions_programs hL⟩
  | claimDecision event request minted now =>
    simp only [body, claimDecision, bind_eq_ok, pure_eq_ok] at h
    obtain ⟨P, -, L, hL, rfl⟩ := h
    exact ⟨_, Ledger.claimProgramDecision_programs hL⟩
  | decide event call now =>
    simp only [body, decide, bind_eq_ok, pure_eq_ok] at h
    obtain ⟨P, -, L, hL, rfl⟩ := h
    exact ⟨_, Ledger.onProgramDecision_programs hL⟩
  | submit q now =>
    obtain ⟨rfl, -⟩ | ⟨event, P, P', L, hcommit, rfl⟩ := submit_ok h
    · exact ⟨fun _ => True, .of_opens (.refl _)⟩
    · exact ⟨fun _ => True, Ledger.submitProgramActions_programs hcommit.ledger⟩
  | effect actionId effectId state now =>
    simp only [body, recordEffect, bind_eq_ok] at h
    obtain ⟨-, -, h⟩ := h
    split at h
    · cases h
    simp only [bind_eq_ok, pure_eq_ok] at h
    obtain ⟨P, -, ⟨P', isNew⟩, -, L, hL, rfl⟩ := h
    exact ⟨fun _ => True, Ledger.recordProgramEffect_programs hL⟩

def receipt? (S : System) (event : ProgramEvent) : Option ActionOutbox :=
  (S.ledger.programDecisions.get? event).bind (·.decision.outbox)

theorem next_receipt (host : Host) (S : System) (op : Op) {o : ActionOutbox}
    (ho : S.receipt? event = some o) :
    ∃ acknowledgedAt, (S.next host op).receipt? event =
      some { o with acknowledgedAt := acknowledgedAt } := by
  obtain hsame | h := next_cases host S op
  · rw [hsame]
    exact ⟨o.acknowledgedAt, ho⟩
  · obtain ⟨mints, hmoves⟩ := body_programs (perform_ok.1 h).2.1
    obtain ⟨p, hp, houtbox⟩ := Option.bind_eq_some_iff.1 ho
    obtain ⟨p', hp', hstep⟩ := hmoves.steps event p hp
    obtain ⟨t, ht⟩ := hstep.outbox houtbox
    exact ⟨t, by rw [receipt?, hp', Option.bind_some, ht]⟩

/-! ### Committed actions -/

/-- What stays of a committed action: its receipt, and a program beyond its revision. -/
structure Recorded (host : Host) (S : System) (a : CommittedAction) : Prop where
  decision : a.bundle.decisionId = .program a.event
  check : a.bundle.check = .ok ()
  receipt : ∃ o, S.receipt? a.event = some o ∧ o.actionId = a.actionId ∧
    o.bundle = .program (a.bundle.wire host) ∧
    o.bundleSha256 = host.ledger.bundleSha256 (.program (a.bundle.wire host))
  program : ∃ P, S.programs.get? a.bundle.programId = some P ∧
    a.bundle.expectedProgramRevision < P.revision ∧ P.capable

theorem Recorded.next {a : CommittedAction} (h : S.Recorded host a) (op : Op) :
    (S.next host op).Recorded host a where
  decision := h.decision
  check := h.check
  receipt := by
    obtain ⟨o, ho, hid, hbundle, hdigest⟩ := h.receipt
    obtain ⟨t, ht⟩ := next_receipt host S op ho
    exact ⟨_, ht, hid, hbundle, hdigest⟩
  program := by
    obtain ⟨P, hP, hrevision, hcapable⟩ := h.program
    obtain ⟨P', hP', hcontinues⟩ := next_continues host S op _ P hP
    exact ⟨P', hP', hrevision.trans_le hcontinues.revision,
      Program.capable_of_continues hcontinues hcapable⟩

theorem Commits.recorded {q : Submission} {L : Ledger} (h : S.Commits host q now event P P' L) :
    P.revision = q.bundle.expectedProgramRevision ∧
      ({ S.setProgram q.bundle.programId P' with
        ledger := L
        actions := S.actions ++ [⟨q.bundle.actionId host, event, q.bundle⟩] } : System).Recorded
          host ⟨q.bundle.actionId host, event, q.bundle⟩ := by
  obtain ⟨hcapable, p, c, hp, hauthorized, rfl⟩ := submitProgramActions_fresh h.ledger h.fresh
  obtain ⟨hcontinues, hrevision⟩ := commitActions_continues h.effects
  refine ⟨hauthorized.revision, h.decision, h.check, ?_, P', Table.get?_set_self h.program P', ?_,
    Program.capable_of_continues hcontinues hcapable⟩
  · refine ⟨_, (congrArg (·.bind (·.decision.outbox)) (Table.get?_set_self hp _)).trans rfl, ?_⟩
    exact ⟨rfl, rfl, rfl⟩
  · have hsame : P.revision = q.bundle.expectedProgramRevision := hauthorized.revision
    show q.bundle.expectedProgramRevision < P'.revision
    omega

def place (a : CommittedAction) : String × ℕ :=
  (a.bundle.programId, a.bundle.expectedProgramRevision)

/-- Every committed action is recorded, and no two have their place. -/
def Exclusive (host : Host) (S : System) : Prop :=
  (∀ a ∈ S.actions, S.Recorded host a) ∧ (S.actions.map place).Nodup

theorem Exclusive.next (h : S.Exclusive host) (op : Op) : (S.next host op).Exclusive host := by
  obtain ⟨hrecorded, hnodup⟩ := h
  have hnext : ∀ a ∈ S.actions, (S.next host op).Recorded host a :=
    fun a ha => (hrecorded a ha).next op
  generalize hS' : S.next host op = S' at hnext ⊢
  have hmoves : S.Moves host op S' := hS' ▸ next_moves host S op
  cases hmoves with
  | ledger op L => exact ⟨hnext, hnodup⟩
  | registers g P hregister hfresh => exact ⟨hnext, hnodup⟩
  | calls programId call now P P' event L hP hrun => exact ⟨hnext, hnodup⟩
  | effects actionId effectId state now action P P' isNew L haction hP heffect =>
    exact ⟨hnext, hnodup⟩
  | commits q now event P P' L hcommit =>
    obtain ⟨hrevision, hnew⟩ := hcommit.recorded
    constructor
    · intro a ha
      obtain ha | ha := List.mem_append.1 ha
      · exact hnext a ha
      · obtain rfl := List.mem_singleton.1 ha
        exact hnew
    · show (List.map place (S.actions ++ [_])).Nodup
      rw [List.map_append, List.nodup_append]
      refine ⟨hnodup, List.nodup_singleton _, ?_⟩
      rintro _ hmem _ hmem' rfl
      obtain ⟨a, ha, hplace⟩ := List.mem_map.1 hmem
      obtain ⟨Q, hQ, hlt, -⟩ := (hrecorded a ha).program
      obtain ⟨hid, hplaced⟩ := Prod.mk.inj (hplace.trans (List.mem_singleton.1 hmem'))
      rw [hid] at hQ
      obtain rfl := Option.some.inj (hQ.symm.trans hcommit.program)
      have hsame : a.bundle.expectedProgramRevision = q.bundle.expectedProgramRevision := hplaced
      omega

theorem Reachable.exclusive (hS : S.Reachable host) : S.Exclusive host := by
  obtain ⟨ops, rfl⟩ := hS
  have hempty : ({} : System).Exclusive host :=
    ⟨fun _ h => (List.not_mem_nil h).elim, List.nodup_nil⟩
  exact Machine.invariant (I := Exclusive host) (fun _ op h => h.next op) hempty ops

theorem Reachable.ledger_valid (hS : S.Reachable host) : S.ledger.Valid host.ledger := by
  obtain ⟨ops, rfl⟩ := hS
  refine Machine.invariant (I := fun S : System => S.ledger.Valid host.ledger)
    (fun S op hvalid => ?_) (Ledger.Reachable.valid ⟨[], rfl⟩) ops
  obtain hsame | h := next_cases host S op
  · rw [hsame]
    exact hvalid
  · exact (perform_ok.1 h).2.2

/-! ### Revisions along a run -/

def commitsOf (S : System) (programId : String) : ℕ :=
  S.actions.countP (·.bundle.programId = programId)

/-- A step advances the revision of a program at least as often as it commits a bundle of it. -/
theorem next_revision (host : Host) (S : System) (op : Op)
    (hP : S.programs.get? id = some P) :
    ∃ P', (S.next host op).programs.get? id = some P' ∧
      P.revision + (S.next host op).commitsOf id ≤ P'.revision + S.commitsOf id := by
  obtain ⟨P', hP', hcontinues⟩ := next_continues host S op id P hP
  refine ⟨P', hP', ?_⟩
  generalize hS' : S.next host op = S' at hP' ⊢
  have hmoves : S.Moves host op S' := hS' ▸ next_moves host S op
  have hkept : S'.actions = S.actions →
      P.revision + S'.commitsOf id ≤ P'.revision + S.commitsOf id := by
    intro hsame
    unfold commitsOf
    rw [hsame]
    exact Nat.add_le_add_right hcontinues.revision _
  cases hmoves with
  | ledger op L => exact hkept rfl
  | registers g P hregister hfresh => exact hkept rfl
  | calls programId call now Q Q' event L hQ hrun => exact hkept rfl
  | effects actionId effectId state now action Q Q' isNew L haction hQ heffect => exact hkept rfl
  | commits q now event Q Q' L hcommit =>
    show P.revision + List.countP _ (S.actions ++ [_]) ≤ _
    rw [List.countP_append, List.countP_singleton]
    unfold commitsOf
    by_cases hid : q.bundle.programId = id
    · subst hid
      obtain rfl := Option.some.inj (hP.symm.trans hcommit.program)
      obtain rfl := Option.some.inj ((Table.get?_set_self hcommit.program Q').symm.trans hP')
      have hadvanced := (commitActions_continues hcommit.effects).2
      simp only [decide_true, if_true]
      omega
    · have hle := hcontinues.revision
      simp only [hid, decide_false, Bool.false_eq_true, if_false]
      omega

theorem run_revision (host : Host) (S : System) (ops : List Op)
    (hP : S.programs.get? id = some P) :
    ∃ P', (Machine.run (next host) S ops).programs.get? id = some P' ∧
      P.revision + (Machine.run (next host) S ops).commitsOf id ≤ P'.revision + S.commitsOf id := by
  induction ops generalizing S P with
  | nil => exact ⟨P, hP, Nat.le_refl _⟩
  | cons op ops ih =>
    obtain ⟨P₁, hP₁, hstep⟩ := next_revision host S op hP
    obtain ⟨P', hP', hrun⟩ := ih (S.next host op) hP₁
    exact ⟨P', hP', by rw [Machine.run_cons]; omega⟩

/-! ### Refused and repeated bundles -/

/-- A bundle that was made for another revision, plan, trunk, generation or event. -/
def IsStale (S : System) (q : Submission) : Prop :=
  ∃ event p P, q.bundle.decisionId = .program event ∧
    S.ledger.programDecisions.get? event = some p ∧
    S.programs.get? q.bundle.programId = some P ∧
    (q.bundle.expectedProgramRevision ≠ P.revision ∨ q.bundle.planDigest ≠ P.planDigest ∨
      q.bundle.expectedTrunkHead ≠ P.trunkHead ∨
      q.bundle.generation ≠ p.decision.currentGeneration ∨
      q.bundle.eventKind ≠ event.eventKind ∨ q.bundle.eventKey ≠ event.eventKey)

theorem next_stale {q : Submission} (h : S.IsStale q) : S.next host (.submit q now) = S := by
  obtain ⟨event, p, P, hdecision, hp, hP, hstale⟩ := h
  obtain hsame | hperform := next_cases host S (.submit q now)
  · exact hsame
  obtain ⟨hsame, -⟩ | ⟨event', P', P'', L, hcommit, -⟩ := submit_ok (perform_ok.1 hperform).2.1
  · exact hsame
  · obtain rfl := Ledger.DecisionKey.program.inj (hdecision.symm.trans hcommit.decision)
    obtain rfl := Option.some.inj (hP.symm.trans hcommit.program)
    obtain ⟨-, p', c, hp', h, -⟩ := submitProgramActions_fresh hcommit.ledger hcommit.fresh
    obtain rfl := Option.some.inj (hp.symm.trans hp')
    obtain hne | hne | hne | hne | hne | hne := hstale
    · exact absurd h.revision.symm hne
    · exact absurd h.planDigest.symm hne
    · exact absurd h.trunkHead.symm hne
    · exact absurd h.generation.symm hne
    · exact absurd h.eventKind hne
    · exact absurd h.eventKey hne

/-- The resubmission of a committed bundle, by its claimant with a well-formed token, or by a
recovery of the inspected bundle. -/
def Replays (host : Host) (S : System) (a : CommittedAction) (q : Submission) : Prop :=
  q.bundle = a.bundle ∧ (q.request host).check host.ledger = .ok () ∧
    if q.allowRecovered then q.bundle.programId = a.event.programId ∧
      (S.ledger.programDecisions.get? a.event).any fun p =>
        (q.request host).isInspected host.ledger p.decision
    else (S.receipt? a.event).any (·.claimantId = q.claimantId)

theorem isCommitted_of_receipt {o : ActionOutbox} (ho : S.receipt? event = some o) :
    S.isCommitted event := by
  obtain ⟨p, hp, houtbox⟩ := Option.bind_eq_some_iff.1 ho
  rw [isCommitted, hp, Option.any_some, houtbox]
  rfl

/-- Whoever submits a committed bundle again changes nothing. -/
theorem next_committed {a : CommittedAction} (h : S.Recorded host a) {q : Submission}
    (hq : q.bundle = a.bundle) : S.next host (.submit q now) = S := by
  obtain hsame | hperform := next_cases host S (.submit q now)
  · exact hsame
  obtain ⟨hsame, -⟩ | ⟨event, P', P'', L, hcommit, -⟩ := submit_ok (perform_ok.1 hperform).2.1
  · exact hsame
  · obtain ⟨o, ho, -⟩ := h.receipt
    have hevent := hcommit.decision
    rw [hq, h.decision] at hevent
    obtain rfl := Ledger.DecisionKey.program.inj hevent
    have hfresh := hcommit.fresh
    rw [isCommitted_of_receipt ho] at hfresh
    cases hfresh

theorem perform_replay (hS : S.ledger.Valid host.ledger) {a : CommittedAction}
    (h : S.Recorded host a) {q : Submission} (hq : S.Replays host a q) :
    S.perform host (.submit q now) = .ok S := by
  obtain ⟨hbundle, hcheck, howner⟩ := hq
  obtain ⟨o, ho, -, -, hdigest⟩ := h.receipt
  obtain ⟨P, hP, -, hcapable⟩ := h.program
  obtain ⟨p, hp, houtbox⟩ := Option.bind_eq_some_iff.1 ho
  have hcapability : P.facts.requireCapability = .ok () := ensure_of hcapable _
  have hdecision : q.bundle.decisionId = .program a.event := by
    rw [hbundle]
    exact h.decision
  have hsame : o.bundleSha256 = (q.request host).digest host.ledger := by
    rw [hdigest, ← hbundle]
    rfl
  have hrecovered : q.allowRecovered → q.bundle.programId = a.event.programId := by
    intro hrecovered
    rw [if_pos hrecovered] at howner
    exact howner.1
  have hinspected : (q.request host).allowRecovered →
      (q.request host).isInspected host.ledger p.decision := by
    intro hrecovered
    rw [if_pos (show q.allowRecovered = true from hrecovered), hp] at howner
    exact howner.2
  have hclaimant : (q.request host).allowRecovered ∨ o.claimantId = (q.request host).claimantId := by
    by_cases hrecovered : q.allowRecovered
    · exact .inl hrecovered
    · rw [if_neg hrecovered, ho] at howner
      exact .inr (show o.claimantId = q.claimantId by simpa using howner)
  have hsubmit : ∀ effects, S.ledger.submitProgramActions host.ledger a.event (q.request host)
      P.facts effects now = .ok S.ledger := by
    intro effects
    simp only [Ledger.submitProgramActions, hcheck, ok_bind, hp, hcapability, houtbox,
      ensure_of (show (q.request host).bundle.decisionId = .program a.event from hdecision),
      ensure_of hinspected, ensure_of hsame, ensure_of hclaimant]
    rfl
  refine perform_ok.2 ⟨hS, ?_, hS⟩
  have hprogram : S.program q.bundle.programId = .ok P := by
    rw [program_eq_ok, hbundle]
    exact hP
  have hbundleCheck : q.bundle.check = .ok () := by
    rw [hbundle]
    exact h.check
  show S.submit host q now = .ok S
  unfold submit
  rw [hdecision]
  simp only [hbundleCheck, ok_bind, hprogram, ensure_of hrecovered, hsubmit,
    if_pos (isCommitted_of_receipt ho)]
  rfl

/-- At most one bundle is committed at a revision of a program, whose revision never falls and rises
with every commit; a stale bundle changes nothing, and a committed one is answered with its receipt
and changes nothing. -/
theorem one_bundle_per_revision (hS : S.Reachable host) :
    (S.actions.map place).Nodup ∧
      (∀ id P ops, S.programs.get? id = some P →
        ∃ P', (Machine.run (next host) S ops).programs.get? id = some P' ∧
          P.revision + (Machine.run (next host) S ops).commitsOf id ≤
            P'.revision + S.commitsOf id ∧ P.revision ≤ P'.revision) ∧
      (∀ q now, S.IsStale q → S.next host (.submit q now) = S) ∧
      ∀ a ∈ S.actions, ∃ o, S.receipt? a.event = some o ∧ o.actionId = a.actionId ∧
        o.bundle = .program (a.bundle.wire host) ∧
        (∀ q now, q.bundle = a.bundle → S.next host (.submit q now) = S) ∧
        ∀ q now, S.Replays host a q → S.perform host (.submit q now) = .ok S := by
  obtain ⟨hrecorded, hnodup⟩ := hS.exclusive
  refine ⟨hnodup, fun id P ops hP => ?_, fun q now hq => next_stale hq, fun a ha => ?_⟩
  · obtain ⟨P', hP', hrevision⟩ := run_revision host S ops hP
    obtain ⟨P₁, hP₁, hcontinues⟩ := run_continues host S ops id P hP
    obtain rfl := Option.some.inj (hP'.symm.trans hP₁)
    exact ⟨P', hP', hrevision, hcontinues.revision⟩
  · obtain ⟨o, ho, hid, hbundle, -⟩ := (hrecorded a ha).receipt
    exact ⟨o, ho, hid, hbundle, fun q now hq => next_committed (hrecorded a ha) hq,
      fun q now hq => perform_replay hS.ledger_valid (hrecorded a ha) hq⟩

end System

/-! ### A program with one milestone -/

def firstSha256 : String := "a7937b64b8caa58f03721bb6bacf5c78cb235febe0e70b1b84cd99541461a08e"

def secondSha256 : String := "16367aacb67a4a017c8da8ab95682ccb390863780f7114dda0a0e0c55644c7c4"

def thirdSha256 : String := "b1e99324505bd32da0e1f85dcf5e19a09db0481e8a15f62c41eb320304a8e927"

def planSha256 : String := "64879f7d6b960a01909762d911a32d4582c20010c5641ee90278b644a9e3b525"

def sampleTrunk : String := "488784591515bd4cdaa016be4ec9b172dc4e7caf"

/-- The code outside the ledger, on the texts that the runs use: a bundle is told by its
rationale. -/
def Host.sample : Host where
  ledger :=
    { Ledger.Env.sample with
      sha256 := fun text =>
        if text = "first" then firstSha256 else if text = "second" then secondSha256
        else if text = "third" then thirdSha256 else Ledger.tokenSha256
      bundleJson := fun bundle =>
        match bundle with
        | .program b => b.rationale
        | .dispatch _ => "" }
  digests :=
    { sha256 := fun _ => firstSha256
      paths := fun _ => firstSha256
      manifest := fun _ => firstSha256
      integration := fun _ => firstSha256
      reviews := fun _ => firstSha256 }
  actionsJson := fun _ => "[]"

def sampleNode (outcome : NodeOutcome) : Node where
  outcome := outcome
  dependencies := []
  mutableSurfaces := ["src"]
  protectedPaths := []
  acceptanceModes := [.objective]
  acceptanceCriteriaSha256 := none
  approvalGates := []
  repositoryRoot := "/repository"
  workspacePath := "/workspace"
  branch := "m1"
  runtimeArtifactMaxFiles := none
  runtimeArtifactMaxBytes := none

def sampleGraph (outcome : NodeOutcome) : ProgramGraph where
  programId := "run"
  planDigest := planSha256
  integrationStrategy := .fastForward
  trunkHead := sampleTrunk
  nodes := ⟨[("m1", sampleNode outcome)], List.nodup_singleton _⟩

def claimed (event : Ledger.ProgramEvent) (now : Time) : Op :=
  .claimDecision event { claimantKind := .model, claimantId := "model", expectedRevision := 0 }
    "token" now

/-- The bundle of the first generation that a model submits for the event. -/
def sampleBundle (event : Ledger.ProgramEvent) (revision : ℕ) (trunkHead : String)
    (actions : List ProgramAction) (rationale : String) : ProgramBundle where
  decisionId := .program event
  programId := event.programId
  planDigest := planSha256
  generation := 1
  eventKind := event.eventKind
  eventKey := event.eventKey
  expectedProgramRevision := revision
  expectedTrunkHead := trunkHead
  actions := actions
  rationale := rationale

def submitted (bundle : ProgramBundle) (now : Time) : Op :=
  .submit { bundle := bundle, claimantId := "model", token := "token" } now

def startEvent : Ledger.ProgramEvent := ⟨"run", .checkpoint, "start"⟩

def acknowledgedRun : List Op :=
  [.register (sampleGraph .git), .call "run" (.start "start") 1, claimed startEvent 2,
    submitted (sampleBundle startEvent 1 sampleTrunk [.acknowledgeOnly] "first") 3]

theorem acknowledgedRun_once :
    let S := Machine.run (System.next Host.sample) {} acknowledgedRun
    S.actions.length = 1 ∧ (S.actions.map System.place).Nodup ∧
      ∀ a ∈ S.actions, ∀ q now, q.bundle = a.bundle → S.next Host.sample (.submit q now) = S := by
  obtain ⟨hnodup, -, -, hcommitted⟩ :=
    System.one_bundle_per_revision ⟨acknowledgedRun, rfl⟩
  refine ⟨by decide, hnodup, fun a ha => ?_⟩
  obtain ⟨-, -, -, -, hsame, -⟩ := hcommitted a ha
  exact hsame

end CodexFlow.Programs
