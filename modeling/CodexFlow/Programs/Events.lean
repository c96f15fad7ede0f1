import CodexFlow.Programs.Revisions
import Mathlib

/-!
# Events that stand for superseded ones

A checkpoint retires the decisions that defer to an active writer, and a revision advance those of
earlier revisions. Each opens the decision of one event for them, unless the key of the event was
used before: the decision that exists then stays as it is.
-/

namespace CodexFlow.Ledger

open Checked

variable {L L' : Ledger} {event e : ProgramEvent} {f : ProgramFacts} {p : ProgramDecision}
  {now : Time}

def ProgramDecision.isWaiting (p : ProgramDecision) : Bool :=
  p.decision.state ∈ [.awaitingClaim, .claimed]

/-- An event that has a decision changes nothing, a new one waits at the revision of its program. -/
theorem ensureProgramDecision_ok {deadline : Option Time}
    (h : L.ensureProgramDecision event f deadline now = .ok L') :
    (L.programDecisions.get? event).isSome ∧ L' = L ∨
      L.programDecisions.get? event = none ∧
        ∃ limit, L' = { L with
          programDecisions := L.programDecisions.insert event (f.decision limit now) } := by
  simp only [ensureProgramDecision, checks_ok] at h
  obtain ⟨-, -, -, h⟩ := h
  split at h
  · rename_i hold
    exact .inl ⟨by rw [hold]; rfl, (pure_eq_ok.1 h).symm⟩
  · rename_i hnew
    simp only [steps_ok] at h
    obtain ⟨-, rfl⟩ := h
    exact .inr ⟨hnew, _, rfl⟩

/-- What opening decisions leaves: the old ones, and new ones that wait. -/
structure OpensFor (events : List ProgramEvent) (revision : ProgramEvent → ℕ) (L L' : Ledger) :
    Prop where
  kept : ∀ e p, L.programDecisions.get? e = some p → L'.programDecisions.get? e = some p
  fresh : ∀ e p, L.programDecisions.get? e = none → L'.programDecisions.get? e = some p →
    e ∈ events ∧ p.programRevision = revision e ∧ p.isWaiting
  opened : ∀ e ∈ events, (L'.programDecisions.get? e).isSome

namespace OpensFor

variable {events events' : List ProgramEvent} {revision : ProgramEvent → ℕ} {L'' : Ledger}

theorem refl (L : Ledger) : OpensFor [] revision L L :=
  ⟨fun _ _ h => h, fun _ _ hnone h => absurd (hnone.symm.trans h) nofun, nofun⟩

theorem of_ensure {deadline : Option Time}
    (h : L.ensureProgramDecision event f deadline now = .ok L')
    (hrevision : revision event = f.programRevision) : OpensFor [event] revision L L' := by
  obtain ⟨hsome, rfl⟩ | ⟨hnew, limit, rfl⟩ := ensureProgramDecision_ok h
  · refine ⟨fun _ _ h => h, fun _ _ hnone h => absurd (hnone.symm.trans h) nofun, fun e he => ?_⟩
    obtain rfl := List.mem_singleton.1 he
    exact hsome
  · have hself := Table.get?_insert_self hnew (f.decision limit now)
    refine ⟨fun e p hp => ?_, fun e p hnone hp => ?_, fun e he => ?_⟩
    · have he : e ≠ event := by
        rintro rfl
        exact absurd (hp.symm.trans hnew) nofun
      exact (Table.get?_insert_ne _ he _).trans hp
    · by_cases he : e = event
      · subst he
        obtain rfl := Option.some.inj (hself.symm.trans hp)
        exact ⟨List.mem_cons_self, hrevision.symm, rfl⟩
      · rw [Table.get?_insert_ne _ he, hnone] at hp
        cases hp
    · obtain rfl := List.mem_singleton.1 he
      rw [hself]
      rfl

theorem trans (h : OpensFor events revision L L') (h' : OpensFor events' revision L' L'') :
    OpensFor (events ++ events') revision L L'' where
  kept := fun e p hp => h'.kept e p (h.kept e p hp)
  fresh := by
    intro e p hnone hp
    cases hmid : L'.programDecisions.get? e with
    | none =>
      obtain ⟨hmem, hfacts⟩ := h'.fresh e p hmid hp
      exact ⟨List.mem_append_right _ hmem, hfacts⟩
    | some q =>
      obtain rfl := Option.some.inj (hp.symm.trans (h'.kept e q hmid))
      obtain ⟨hmem, hfacts⟩ := h.fresh e p hnone hmid
      exact ⟨List.mem_append_left _ hmem, hfacts⟩
  opened := by
    intro e he
    obtain he | he := List.mem_append.1 he
    · obtain ⟨p, hp⟩ := Option.isSome_iff_exists.1 (h.opened e he)
      rw [h'.kept e p hp]
      rfl
    · exact h'.opened e he

end OpensFor

theorem openCoalesced_opensFor {facts : String → ProgramFacts} {programs : List String}
    (h : openCoalesced facts now programs L = .ok L') :
    OpensFor (programs.map fun id => coalescedEvent id (facts id))
      (fun e => (facts e.programId).programRevision) L L' := by
  induction programs generalizing L with
  | nil => exact pure_eq_ok.1 h ▸ .refl L
  | cons programId programs ih =>
    simp only [openCoalesced, bind_eq_ok] at h
    obtain ⟨L₁, hfirst, hrest⟩ := h
    exact (OpensFor.of_ensure hfirst rfl).trans (ih hrest)

/-- A decision still waits after the supersession exactly when it did and is left out of it. -/
theorem supersedeIf_isWaiting {c : Bool} :
    (p.supersedeIf c now).isWaiting ↔ p.isWaiting ∧ !(c && p.decision.action.isNone) := by
  have hsuperseded : ControllerDecisionState.superseded ∉ [.awaitingClaim, .claimed] := by decide
  have hopens : ([.awaitingClaim, .claimed] : List ControllerDecisionState) ⊆
      [.awaitingClaim, .claimed, .humanAttentionRequired] := by decide
  unfold ProgramDecision.supersedeIf ProgramDecision.isWaiting
  cases c with
  | false => simp
  | true =>
    unfold ControllerDecision.supersedeOpen
    cases p.decision.action.isNone with
    | false => simp
    | true =>
      simp only [if_true, Bool.true_and, Bool.not_true, Bool.false_eq_true, and_false, iff_false,
        decide_eq_true_eq]
      split_ifs with hopen
      · exact hsuperseded
      · exact fun hwaiting => hopen (hopens hwaiting)

@[simp] theorem supersedeIf_programRevision {c : Bool} :
    (p.supersedeIf c now).programRevision = p.programRevision := by
  unfold ProgramDecision.supersedeIf
  split_ifs <;> rfl

theorem opened_waits_iff {c : ProgramEvent → ProgramDecision → Bool} {events : List ProgramEvent}
    {revision : ProgramEvent → ℕ} {id : String} {current : ℕ}
    (h : OpensFor events revision
      { L with programDecisions := L.programDecisions.map fun e p => p.supersedeIf (c e p) now } L')
    (hevent : event ∈ events) (hid : event.programId = id)
    (hown : ∀ e ∈ events, e.programId = id → e = event) (hcurrent : revision event = current) :
    (∃ e p, e.programId = id ∧ L'.programDecisions.get? e = some p ∧ p.programRevision = current ∧
        p.isWaiting) ↔
      L.programDecisions.get? event = none ∨
        ∃ e p, e.programId = id ∧ L.programDecisions.get? e = some p ∧
          p.programRevision = current ∧ p.isWaiting ∧ !(c e p && p.decision.action.isNone) := by
  have hmap := fun e => Table.get?_map L.programDecisions (fun e p => p.supersedeIf (c e p) now) e
  constructor
  · rintro ⟨e, p, he, hp, hrevision, hwaiting⟩
    cases hold : L.programDecisions.get? e with
    | none =>
      obtain ⟨hmem, -⟩ := h.fresh e p ((hmap e).trans (by rw [hold]; rfl)) hp
      exact .inl (hown e hmem he ▸ hold)
    | some q =>
      have hkept := h.kept e _ ((hmap e).trans (by rw [hold]; rfl))
      obtain rfl := Option.some.inj (hkept.symm.trans hp)
      rw [supersedeIf_programRevision] at hrevision
      obtain ⟨hwaiting, hspared⟩ := supersedeIf_isWaiting.1 hwaiting
      exact .inr ⟨e, q, he, hold, hrevision, hwaiting, hspared⟩
  · rintro (hnew | ⟨e, p, he, hp, hrevision, hwaiting, hspared⟩)
    · obtain ⟨q, hq⟩ := Option.isSome_iff_exists.1 (h.opened event hevent)
      obtain ⟨-, hrevision, hwaiting⟩ := h.fresh event q ((hmap event).trans (by rw [hnew]; rfl)) hq
      exact ⟨event, q, hid, hq, hrevision.trans hcurrent, hwaiting⟩
    · refine ⟨e, _, he, h.kept e _ ((hmap e).trans (by rw [hp]; rfl)), ?_, ?_⟩
      · rw [supersedeIf_programRevision]
        exact hrevision
      · exact supersedeIf_isWaiting.2 ⟨hwaiting, hspared⟩

/-- What waits for an open program after a revision advance was reconciled, when some decision of it
was superseded. -/
theorem reconcileStale_waits {facts : String → ProgramFacts} {isOpen : String → Bool} {id : String}
    {p' : ProgramDecision} (hopen : isOpen id)
    (h : L.reconcileStaleDecisions facts isOpen now = .ok L') (he : e.programId = id)
    (hp : L.programDecisions.get? e = some p) (hp' : L'.programDecisions.get? e = some p')
    (hunresolved : p.decision.state ∈ [.awaitingClaim, .claimed, .humanAttentionRequired])
    (hsuperseded : p'.decision.state = .superseded) :
    (∃ e p, e.programId = id ∧ L'.programDecisions.get? e = some p ∧
        p.programRevision = (facts id).programRevision ∧ p.isWaiting) ↔
      L.programDecisions.get? (coalescedEvent id (facts id)) = none ∨
        ∃ e p, e.programId = id ∧ L.programDecisions.get? e = some p ∧
          p.programRevision = (facts id).programRevision ∧ p.isWaiting := by
  simp only [reconcileStaleDecisions, checks_ok] at h
  obtain ⟨-, hopens⟩ := h
  have hopensFor := openCoalesced_opensFor hopens
  have hstale : p.isStale (facts id) = true := by
    by_contra hfresh
    have hkept := hopensFor.kept e _ ((Table.get?_map ..).trans (by rw [hp]; rfl))
    have hsame : p.supersedeIf (p.isStale (facts e.programId)) now = p' :=
      Option.some.inj (hkept.symm.trans hp')
    rw [he, Bool.eq_false_iff.2 hfresh] at hsame
    obtain rfl : p = p' := hsame
    rw [hsuperseded] at hunresolved
    exact absurd hunresolved (by decide)
  have hlisted : id ∈ ((L.programDecisions.entries.filter fun entry =>
      entry.2.isStale (facts entry.1.programId)).map (·.1.programId)).dedup.filter isOpen := by
    refine List.mem_filter.2 ⟨List.mem_dedup.2 ?_, hopen⟩
    refine List.mem_map.2 ⟨(e, p), List.mem_filter.2 ⟨Table.get?_eq_some.1 hp, ?_⟩, he⟩
    rw [he]
    exact hstale
  refine (opened_waits_iff hopensFor (List.mem_map_of_mem hlisted) rfl ?_ rfl).trans
    (or_congr Iff.rfl ?_)
  · intro e hmem he
    obtain ⟨id', -, rfl⟩ := List.mem_map.1 hmem
    obtain rfl : id' = id := he
    rfl
  · constructor
    · rintro ⟨e, p, he, hp, hrevision, hwaiting, -⟩
      exact ⟨e, p, he, hp, hrevision, hwaiting⟩
    · rintro ⟨e, p, he, hp, hrevision, hwaiting⟩
      have hcurrent : p.isStale (facts id) = false := by simp [ProgramDecision.isStale, hrevision]
      exact ⟨e, p, he, hp, hrevision, hwaiting, by simp [he, hcurrent]⟩

end CodexFlow.Ledger

namespace CodexFlow.Programs

open Ledger (Time)
open Checked

namespace System

variable {host : Host} {S S' : System} {P : Program} {id : String} {op : Op} {now : Time}

/-- A decision of the program waits at its current revision. -/
def HasWaiting (S : System) (id : String) : Prop :=
  ∃ P e p, S.programs.get? id = some P ∧ e.programId = id ∧
    S.ledger.programDecisions.get? e = some p ∧ p.programRevision = P.revision ∧ p.isWaiting

def Supersedes (S S' : System) (id : String) : Prop :=
  ∃ e p p', e.programId = id ∧ S.ledger.programDecisions.get? e = some p ∧
    p.decision.state ∈ [.awaitingClaim, .claimed, .humanAttentionRequired] ∧
    S'.ledger.programDecisions.get? e = some p' ∧ p'.decision.state = .superseded

/-- The call that retires decisions of the program, and the event that it opens for them. -/
def retires (P : Program) (id : String) : Op → Option Ledger.ProgramEvent
  | .event e _ _ => if e.programId = id ∧ e.eventKind = .checkpoint then some e else none
  | .reconcileStale _ => some (Ledger.coalescedEvent id P.facts)
  | _ => none

def spares (P : Program) (p : Ledger.ProgramDecision) : Op → Bool
  | .event _ _ _ => !(p.programRevision = P.revision &&
      p.decision.generation.inspectionOutcome = some .active && p.decision.action.isNone)
  | _ => true

/-- The event has no decision yet, or another decision waits at the current revision that the call
leaves as it is. -/
def Reopens (S : System) (P : Program) (id : String) (event : Ledger.ProgramEvent) (op : Op) : Prop :=
  S.ledger.programDecisions.get? event = none ∨
    ∃ e p, e.programId = id ∧ S.ledger.programDecisions.get? e = some p ∧
      p.programRevision = P.revision ∧ p.isWaiting ∧ spares P p op

theorem hasWaiting_iff (hP : S.programs.get? id = some P) :
    S.HasWaiting id ↔ ∃ e p, e.programId = id ∧ S.ledger.programDecisions.get? e = some p ∧
      p.programRevision = P.revision ∧ p.isWaiting := by
  constructor
  · rintro ⟨P', e, p, hP', hp⟩
    obtain rfl := Option.some.inj (hP.symm.trans hP')
    exact ⟨e, p, hp⟩
  · rintro ⟨e, p, hp⟩
    exact ⟨P, e, p, hP, hp⟩

theorem recordEvent_reopens {event : Ledger.ProgramEvent} {deadline : Option Time}
    (hP : S.programs.get? event.programId = some P) (hkind : event.eventKind = .checkpoint)
    (h : S.recordEvent event deadline now = .ok S') :
    S'.HasWaiting event.programId ↔
      S.Reopens P event.programId event (.event event deadline now) := by
  simp only [recordEvent, bind_eq_ok, pure_eq_ok] at h
  obtain ⟨P', hP', L', hledger, rfl⟩ := h
  obtain rfl := Option.some.inj (hP.symm.trans (program_eq_ok.1 hP'))
  simp only [Ledger.recordProgramEvent, bind_eq_ok, if_pos hkind] at hledger
  obtain ⟨-, -, hensure⟩ := hledger
  have hopens : Ledger.OpensFor [event] (fun _ => P.revision) _ L' := .of_ensure hensure rfl
  have hwaits := Ledger.opened_waits_iff hopens List.mem_cons_self rfl
    (fun e he _ => List.mem_singleton.1 he) (Eq.refl P.revision)
  refine (hasWaiting_iff (S := { S with ledger := L' }) hP).trans ?_
  refine hwaits.trans (or_congr Iff.rfl ?_)
  constructor
  · rintro ⟨e, p, he, hp, hrevision, hwaiting, hspared⟩
    simp only [he, decide_true, Bool.true_and] at hspared
    exact ⟨e, p, he, hp, hrevision, hwaiting, hspared⟩
  · rintro ⟨e, p, he, hp, hrevision, hwaiting, hspared⟩
    refine ⟨e, p, he, hp, hrevision, hwaiting, ?_⟩
    simp only [he, decide_true, Bool.true_and]
    exact hspared

theorem reconcileStale_reopens (hP : S.programs.get? id = some P) (hopen : P.isOpen)
    (h : S.reconcileStale now = .ok S') (hsup : S.Supersedes S' id) :
    S'.HasWaiting id ↔
      S.Reopens P id (Ledger.coalescedEvent id P.facts) (.reconcileStale now) := by
  simp only [reconcileStale, bind_eq_ok, pure_eq_ok] at h
  obtain ⟨L', hledger, rfl⟩ := h
  obtain ⟨e, p, p', he, hp, hunresolved, hp', hsuperseded⟩ := hsup
  have hisOpen : (S.programs.get? id).any (·.isOpen) := by
    rw [hP]
    exact hopen
  have hwaits := Ledger.reconcileStale_waits hisOpen hledger he hp hp' hunresolved hsuperseded
  rw [hP] at hwaits
  refine (hasWaiting_iff (S := { S with ledger := L' }) hP).trans (hwaits.trans ?_)
  simp only [Reopens, spares, and_true]
  rfl

/-- A call that retires an unresolved decision of an open program leaves one that waits at the
current revision exactly when the key of its event is new or another decision is spared. -/
theorem superseding_reopens (hP : S.programs.get? id = some P) (hopen : P.isOpen)
    {event : Ledger.ProgramEvent} (hop : retires P id op = some event)
    (h : S.perform host op = .ok S') (hsup : S.Supersedes S' id) :
    S'.HasWaiting id ↔ S.Reopens P id event op := by
  simp only [perform, bind_eq_ok, ensure_eq_ok, exists_const, pure_eq_ok] at h
  obtain ⟨-, S', hbody, -, rfl⟩ := h
  cases op with
  | event e deadline now =>
    simp only [retires, ite_eq_iff, Option.some.injEq, reduceCtorEq, and_false, or_false] at hop
    obtain ⟨⟨rfl, hkind⟩, rfl⟩ := hop
    exact recordEvent_reopens hP hkind hbody
  | reconcileStale now =>
    obtain rfl := Option.some.inj hop
    exact reconcileStale_reopens hP hopen hbody hsup
  | _ => cases hop

end System

/-- A turn is bound for a claimed event, and its inspection finds the writer active. -/
def deferredRun : List Op :=
  [.register (sampleGraph .git), .call "run" (.start "start") 1, claimed startEvent 2,
    .decide startEvent (.prepareGeneration 1 none) 3,
    .decide startEvent (.bindThread 1 "thread") 3,
    .decide startEvent (.bindTurn { generation := 1, threadId := "thread", turnId := "turn" }) 3,
    .decide startEvent (.reserveInspection "token") 3,
    .decide startEvent (.completeInspection { outcome := some .active, token := some "token" }) 4]

def checkpointed (key : String) : Op := .event ⟨"run", .checkpoint, key⟩ none 5

/-- The checkpoint supersedes the deferred decision, and `waits` says whether another one waits. -/
def checkpointResult (key : String) (waits : Bool) : Bool :=
  (Machine.run (System.next Host.sample) {} deferredRun).perform Host.sample (checkpointed key)
    |>.toOption.any fun S' =>
      ((S'.ledger.programDecisions.get? startEvent).any (·.decision.state = .superseded)) &&
        (S'.ledger.programDecisions.entries.any fun entry => entry.2.isWaiting) = waits

theorem deferredRun_program :
    ∃ P p, (Machine.run (System.next Host.sample) {} deferredRun).programs.get? "run" = some P ∧
      P.isOpen ∧ (Machine.run (System.next Host.sample) {} deferredRun).ledger.programDecisions.get?
        startEvent = some p ∧ p.decision.state = .claimed ∧
      (Machine.run (System.next Host.sample) {} deferredRun).ledger.programDecisions.get?
        ⟨"run", .checkpoint, "next"⟩ = none := by
  have hrun : ((Machine.run (System.next Host.sample) {} deferredRun).programs.get? "run").any
        (·.isOpen) ∧
      ((Machine.run (System.next Host.sample) {} deferredRun).ledger.programDecisions.get?
        startEvent).any (·.decision.state = .claimed) ∧
      ((Machine.run (System.next Host.sample) {} deferredRun).ledger.programDecisions.get?
        ⟨"run", .checkpoint, "next"⟩).isNone := by
    decide +kernel
  obtain ⟨hprogram, hdecision, hnew⟩ := hrun
  obtain ⟨P, hP, hopen⟩ := (Option.any_eq_true _ _).1 hprogram
  obtain ⟨p, hp, hstate⟩ := (Option.any_eq_true _ _).1 hdecision
  exact ⟨P, p, hP, hopen, hp, of_decide_eq_true hstate, Option.isNone_iff_eq_none.1 hnew⟩

/-- A checkpoint with a new key leaves a decision that waits. -/
theorem deferredRun_reopens :
    ∃ S', (Machine.run (System.next Host.sample) {} deferredRun).perform Host.sample
      (checkpointed "next") = .ok S' ∧ S'.HasWaiting "run" := by
  have hrun : checkpointResult "next" true := by decide +kernel
  obtain ⟨S', hperform, h⟩ := exists_ok_of_toOption hrun
  rw [Bool.and_eq_true] at h
  obtain ⟨p', hp', hsuperseded⟩ := (Option.any_eq_true _ _).1 h.1
  obtain ⟨P, p, hP, hopen, hp, hstate, hnew⟩ := deferredRun_program
  have hsup : (Machine.run (System.next Host.sample) {} deferredRun).Supersedes S' "run" :=
    ⟨startEvent, p, p', rfl, hp, by rw [hstate]; decide, hp', of_decide_eq_true hsuperseded⟩
  exact ⟨S', hperform, (System.superseding_reopens hP hopen rfl hperform hsup).2 (.inl hnew)⟩

/-- One with the key of the deferred decision leaves none. -/
theorem deferredRun_lost :
    ¬∀ (host : Host) (S S' : System) (id : String) (P : Program) (op : Op)
      (event : Ledger.ProgramEvent), S.Reachable host → S.programs.get? id = some P → P.isOpen →
      System.retires P id op = some event → S.perform host op = .ok S' → S.Supersedes S' id →
      S'.HasWaiting id := by
  intro hall
  have hrun : checkpointResult "start" false := by decide +kernel
  obtain ⟨S', hperform, h⟩ := exists_ok_of_toOption hrun
  rw [Bool.and_eq_true, decide_eq_true_eq] at h
  obtain ⟨p', hp', hsuperseded⟩ := (Option.any_eq_true _ _).1 h.1
  obtain ⟨P, p, hP, hopen, hp, hstate, -⟩ := deferredRun_program
  have hsup : (Machine.run (System.next Host.sample) {} deferredRun).Supersedes S' "run" :=
    ⟨startEvent, p, p', rfl, hp, by rw [hstate]; decide, hp', of_decide_eq_true hsuperseded⟩
  obtain ⟨-, e, q, -, -, hq, -, hwaiting⟩ :=
    hall Host.sample _ S' "run" P (checkpointed "start") startEvent ⟨_, rfl⟩ hP hopen rfl hperform hsup
  have hnone := h.2
  rw [List.any_eq_false] at hnone
  exact hnone (e, q) (Table.get?_eq_some.1 hq) hwaiting

end CodexFlow.Programs
