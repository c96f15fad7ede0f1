import CodexFlow.Programs.Frames
import CodexFlow.Ledger.DecisionFacts

/-!
# Runs of the programs

What a step of the machine does to the programs and to the committed actions, and what the programs
of every reachable system keep.
-/

namespace CodexFlow.Programs

open Ledger (Time)
open Checked

variable {host : Host} {S S' : System} {P P' : Program} {op : Op} {id : String} {now : Time}

namespace System

theorem program_eq_ok : S.program id = .ok P ↔ S.programs.get? id = some P := by
  unfold program
  cases S.programs.get? id with
  | none => exact ⟨(nomatch ·), (nomatch ·)⟩
  | some P' => rw [pure_eq_ok, Option.some.injEq]

/-! ### Commits -/

/-- What the ledger checked of a bundle that it committed, and of the decision that it is for. -/
structure Commits (host : Host) (S : System) (q : Submission) (now : Time)
    (event : Ledger.ProgramEvent) (P P' : Program) (L : Ledger) : Prop where
  decision : q.bundle.decisionId = .program event
  check : q.bundle.check = .ok ()
  program : S.programs.get? q.bundle.programId = some P
  effects : P.commitActions host.digests S.queueStates q.bundle now = .ok P'
  ledger : S.ledger.submitProgramActions host.ledger event (q.request host) P.facts
    ((P.commitActions host.digests S.queueStates q.bundle now).map fun _ => ()) now = .ok L
  fresh : S.isCommitted event = false

theorem submit_ok {q : Submission} (h : S.submit host q now = .ok S') :
    (S' = S ∧ ∃ event, q.bundle.decisionId = .program event ∧ S.isCommitted event) ∨
      ∃ event P P' L, S.Commits host q now event P P' L ∧
        S' = { S.setProgram q.bundle.programId P' with
          ledger := L
          actions := S.actions ++ [⟨q.bundle.actionId host, event, q.bundle⟩] } := by
  unfold submit at h
  split at h
  · cases h
  rename_i event hdecision
  simp only [checks_ok, program_eq_ok] at h
  obtain ⟨⟨⟩, hcheck, P, hP, -, L, hledger, h⟩ := h
  by_cases hcommitted : S.isCommitted event
  · rw [if_pos hcommitted] at h
    exact .inl ⟨(pure_eq_ok.1 h).symm, event, hdecision, hcommitted⟩
  · rw [if_neg hcommitted] at h
    simp only [bind_eq_ok, pure_eq_ok] at h
    obtain ⟨P', hP', rfl⟩ := h
    exact .inr ⟨event, P, P', L, ⟨hdecision, hcheck, hP, hP', hledger, by simpa using hcommitted⟩,
      rfl⟩

/-! ### Steps -/

/-- What a call makes of the programs and of the committed actions. -/
inductive Moves (host : Host) (S : System) : Op → System → Prop
  | ledger (op : Op) (L : Ledger) : Moves host S op { S with ledger := L }
  | registers (g : ProgramGraph) (P : Program) (hregister : g.register = .ok P)
      (hfresh : S.programs.get? g.programId = none) :
    Moves host S (.register g) { S with programs := S.programs.insert g.programId P }
  | calls (programId : String) (call : Call) (now : Time) (P P' : Program)
      (event : Option NewEvent) (L : Ledger) (hP : S.programs.get? programId = some P)
      (hrun : P.run host.digests now call = .ok (P', event))
      (hledger : S.openEvent programId P' event now = .ok L) :
    Moves host S (.call programId call now) { S.setProgram programId P' with ledger := L }
  | commits (q : Submission) (now : Time) (event : Ledger.ProgramEvent) (P P' : Program)
      (L : Ledger) (hcommit : S.Commits host q now event P P' L) :
    Moves host S (.submit q now) { S.setProgram q.bundle.programId P' with
      ledger := L
      actions := S.actions ++ [⟨q.bundle.actionId host, event, q.bundle⟩] }
  | effects (actionId effectId : String) (state : EffectState) (now : Time)
      (action : CommittedAction) (P P' : Program) (isNew : Bool) (L : Ledger)
      (haction : S.actions.find? (·.actionId = actionId) = some action)
      (hP : S.programs.get? action.event.programId = some P)
      (heffect : P.recordActionEffect actionId effectId action.bundle state = .ok (P', isNew)) :
    Moves host S (.effect actionId effectId state now)
      { S.setProgram action.event.programId P' with ledger := L }

theorem body_moves (h : S.body host op = .ok S') : S.Moves host op S' := by
  cases op with
  | ledger op hop =>
    simp only [body, bind_eq_ok, pure_eq_ok] at h
    obtain ⟨L, -, rfl⟩ := h
    exact .ledger _ L
  | register g =>
    simp only [body, registerProgram, bind_eq_ok] at h
    obtain ⟨P, hP, h⟩ := h
    split at h
    · rw [← pure_eq_ok.1 h]
      exact .registers g P hP ‹_›
    · simp only [bind_eq_ok, pure_eq_ok] at h
      obtain ⟨-, -, -, -, rfl⟩ := h
      exact .ledger _ S.ledger
  | call programId call now =>
    simp only [body, callProgram, bind_eq_ok, program_eq_ok, pure_eq_ok] at h
    obtain ⟨P, hP, ⟨P', event⟩, hrun, L, hledger, rfl⟩ := h
    exact .calls programId call now P P' event L hP hrun hledger
  | event event deadline now =>
    simp only [body, recordEvent, bind_eq_ok, pure_eq_ok] at h
    obtain ⟨-, -, L, -, rfl⟩ := h
    exact .ledger _ L
  | reconcileStale now =>
    simp only [body, reconcileStale, bind_eq_ok, pure_eq_ok] at h
    obtain ⟨L, -, rfl⟩ := h
    exact .ledger _ L
  | claimDecision event request minted now =>
    simp only [body, claimDecision, bind_eq_ok, pure_eq_ok] at h
    obtain ⟨-, -, L, -, rfl⟩ := h
    exact .ledger _ L
  | decide event call now =>
    simp only [body, decide, bind_eq_ok, pure_eq_ok] at h
    obtain ⟨-, -, L, -, rfl⟩ := h
    exact .ledger _ L
  | submit q now =>
    obtain ⟨rfl, -⟩ | ⟨event, P, P', L, hcommit, rfl⟩ := submit_ok h
    · exact .ledger _ S'.ledger
    · exact .commits q now event P P' L hcommit
  | effect actionId effectId state now =>
    simp only [body, recordEffect, bind_eq_ok] at h
    obtain ⟨-, -, h⟩ := h
    split at h
    · cases h
    rename_i action haction
    simp only [bind_eq_ok, program_eq_ok, pure_eq_ok] at h
    obtain ⟨P, hP, ⟨P', isNew⟩, heffect, L, -, rfl⟩ := h
    exact .effects actionId effectId state now action P P' isNew L haction hP heffect

theorem perform_ok : S.perform host op = .ok S' ↔
    S.ledger.Valid host.ledger ∧ S.body host op = .ok S' ∧ S'.ledger.Valid host.ledger := by
  simp only [perform, steps_ok]
  constructor
  · rintro ⟨hbefore, result, hbody, hafter, rfl⟩
    exact ⟨hbefore, hbody, hafter⟩
  · rintro ⟨hbefore, hbody, hafter⟩
    exact ⟨hbefore, _, hbody, hafter, rfl⟩

/-- A refused call changes nothing. -/
theorem next_cases (host : Host) (S : System) (op : Op) :
    S.next host op = S ∨ S.perform host op = .ok (S.next host op) := by
  unfold next
  cases h : S.perform host op with
  | error e => exact .inl rfl
  | ok result => exact .inr rfl

theorem next_moves (host : Host) (S : System) (op : Op) : S.Moves host op (S.next host op) := by
  obtain hsame | h := next_cases host S op
  · rw [hsame]
    exact .ledger op S.ledger
  · exact body_moves (perform_ok.1 h).2.1

/-! ### Programs -/

def Continues (S S' : System) : Prop :=
  ∀ id P, S.programs.get? id = some P →
    ∃ P', S'.programs.get? id = some P' ∧ P.Continues P'

theorem Continues.refl (S : System) : S.Continues S := fun _ P hP => ⟨P, hP, .refl P⟩

theorem Continues.trans {S'' : System} (h : S.Continues S') (h' : S'.Continues S'') :
    S.Continues S'' := by
  intro id P hP
  obtain ⟨P', hP', hcontinues⟩ := h id P hP
  obtain ⟨P'', hP'', hcontinues'⟩ := h' id P' hP'
  exact ⟨P'', hP'', hcontinues.trans hcontinues'⟩

theorem Continues.set (hP : S.programs.get? id = some P) (h : P.Continues P') {L : Ledger}
    {actions : List CommittedAction} :
    S.Continues { S.setProgram id P' with ledger := L, actions := actions } := by
  intro other Q hQ
  by_cases hother : other = id
  · subst hother
    rw [hP] at hQ
    cases hQ
    exact ⟨P', Table.get?_set_self hP P', h⟩
  · exact ⟨Q, (Table.get?_set_ne _ hother _).trans hQ, .refl Q⟩

theorem Moves.continues (h : S.Moves host op S') : S.Continues S' := by
  cases h with
  | ledger op L => exact fun _ P hP => ⟨P, hP, .refl P⟩
  | registers g P hregister hfresh =>
    intro other Q hQ
    have hother : other ≠ g.programId := by
      rintro rfl
      rw [hfresh] at hQ
      cases hQ
    exact ⟨Q, (Table.get?_insert_ne _ hother _).trans hQ, .refl Q⟩
  | calls programId call now P P' event L hP hrun => exact .set hP (run_continues hrun)
  | commits q now event P P' L hcommit =>
    exact .set hcommit.program (commitActions_continues hcommit.effects).1
  | effects actionId effectId state now action P P' isNew L haction hP heffect =>
    exact .set hP (recordActionEffect_continues heffect)

theorem next_continues (host : Host) (S : System) (op : Op) : S.Continues (S.next host op) :=
  (next_moves host S op).continues

theorem run_continues (host : Host) (S : System) (ops : List Op) :
    S.Continues (Machine.run (next host) S ops) :=
  Machine.related (I := fun _ => True) Continues.refl (fun _ _ _ => Continues.trans)
    (fun _ _ _ => trivial) (fun S op _ => next_continues host S op) trivial ops

theorem Moves.program_step {op : Op} (h : S.Moves host op S')
    (hP : S.programs.get? id = some P) :
    ∃ P', S'.programs.get? id = some P' ∧
      (P' = P ∨ (∃ call now event, P.run host.digests now call = .ok (P', event)) ∨
        (∃ queue b now, P.commitActions host.digests queue b now = .ok P') ∨
        ∃ actionId effectId b state isNew,
          P.recordActionEffect actionId effectId b state = .ok (P', isNew)) := by
  have hset : ∀ {key : String} {Q Q' : Program}, S.programs.get? key = some Q →
      ∃ P', (S.programs.set key Q').get? id = some P' ∧ (P' = P ∨ Q = P ∧ P' = Q') := by
    intro key Q Q' hQ
    by_cases hkey : id = key
    · subst hkey
      obtain rfl := Option.some.inj (hQ.symm.trans hP)
      exact ⟨Q', Table.get?_set_self hQ Q', .inr ⟨rfl, rfl⟩⟩
    · exact ⟨P, (Table.get?_set_ne _ hkey _).trans hP, .inl rfl⟩
  cases h with
  | ledger op L => exact ⟨P, hP, .inl rfl⟩
  | registers g Q hregister hfresh =>
    have hkey : id ≠ g.programId := by
      rintro rfl
      rw [hfresh] at hP
      cases hP
    exact ⟨P, (Table.get?_insert_ne _ hkey _).trans hP, .inl rfl⟩
  | calls programId call now Q Q' event L hQ hrun =>
    obtain ⟨P', hP', rfl | ⟨rfl, rfl⟩⟩ := hset hQ
    · exact ⟨_, hP', .inl rfl⟩
    · exact ⟨_, hP', .inr (.inl ⟨call, now, event, hrun⟩)⟩
  | commits q now event Q Q' L hcommit =>
    obtain ⟨P', hP', rfl | ⟨rfl, rfl⟩⟩ := hset hcommit.program
    · exact ⟨_, hP', .inl rfl⟩
    · exact ⟨_, hP', .inr (.inr (.inl ⟨_, _, now, hcommit.effects⟩))⟩
  | effects actionId effectId state now action Q Q' isNew L haction hQ heffect =>
    obtain ⟨P', hP', rfl | ⟨rfl, rfl⟩⟩ := hset hQ
    · exact ⟨_, hP', .inl rfl⟩
    · exact ⟨_, hP', .inr (.inr (.inr ⟨_, _, _, _, _, heffect⟩))⟩

theorem Moves.registered {op : Op} (h : S.Moves host op S') (hnone : S.programs.get? id = none)
    (hP : S'.programs.get? id = some P) : ∃ g : ProgramGraph, g.programId = id ∧ g.register = .ok P := by
  have hset : ∀ {key : String} {Q Q' : Program}, S.programs.get? key = some Q →
      (S.programs.set key Q').get? id = some P → False := by
    intro key Q Q' hQ hget
    have hkey : id ≠ key := by
      rintro rfl
      rw [hnone] at hQ
      cases hQ
    rw [Table.get?_set_ne _ hkey, hnone] at hget
    cases hget
  cases h with
  | ledger op L =>
    rw [hnone] at hP
    cases hP
  | registers g Q hregister hfresh =>
    by_cases hkey : id = g.programId
    · subst hkey
      rw [Table.get?_insert_self hfresh] at hP
      obtain rfl := Option.some.inj hP
      exact ⟨g, rfl, hregister⟩
    · rw [Table.get?_insert_ne _ hkey, hnone] at hP
      cases hP
  | calls programId call now Q Q' event L hQ hrun => exact (hset hQ hP).elim
  | commits q now event Q Q' L hcommit => exact (hset hcommit.program hP).elim
  | effects actionId effectId state now action Q Q' isNew L haction hQ heffect =>
    exact (hset hQ hP).elim

/-- What a registered program has, and every call on it, every committed bundle and every effect
keeps, every program of a reachable system has. -/
theorem Reachable.program {I : Program → Prop}
    (hregister : ∀ (g : ProgramGraph) P, g.register = .ok P → I P)
    (hrun : ∀ P P' call now event, I P → P.run host.digests now call = .ok (P', event) → I P')
    (hcommit : ∀ P P' queue b now, I P →
      P.commitActions host.digests queue b now = .ok P' → I P')
    (heffect : ∀ P P' actionId effectId b state isNew, I P →
      P.recordActionEffect actionId effectId b state = .ok (P', isNew) → I P')
    (hS : S.Reachable host) (hP : S.programs.get? id = some P) : I P := by
  obtain ⟨ops, rfl⟩ := hS
  refine Machine.invariant (I := fun S : System => ∀ id P, S.programs.get? id = some P → I P)
    (fun S op hI id P hP => ?_) (fun _ _ h => by cases h) ops id P hP
  cases hget : S.programs.get? id with
  | none =>
    obtain ⟨g, -, hg⟩ := (next_moves host S op).registered hget hP
    exact hregister g P hg
  | some Q =>
    obtain ⟨P', hP', hstep⟩ := (next_moves host S op).program_step hget
    obtain rfl := Option.some.inj (hP.symm.trans hP')
    obtain rfl | ⟨call, now, event, h⟩ | ⟨queue, b, now, h⟩ |
      ⟨actionId, effectId, b, state, isNew, h⟩ := hstep
    · exact hI id _ hget
    · exact hrun Q P call now event (hI id Q hget) h
    · exact hcommit Q P queue b now (hI id Q hget) h
    · exact heffect Q P actionId effectId b state isNew (hI id Q hget) h

theorem register_ok {g : ProgramGraph} (h : g.register = .ok P) : P = g.program := by
  simp only [ProgramGraph.register, bind_eq_ok, pure_eq_ok] at h
  obtain ⟨-, -, -, -, rfl⟩ := h
  rfl

theorem Reachable.programId (hS : S.Reachable host) (hP : S.programs.get? id = some P) :
    P.programId = id := by
  obtain ⟨ops, rfl⟩ := hS
  refine Machine.invariant
    (I := fun S : System => ∀ id P, S.programs.get? id = some P → P.programId = id)
    (fun S op hI id P hP => ?_) (fun _ _ h => by cases h) ops id P hP
  cases hget : S.programs.get? id with
  | none =>
    obtain ⟨g, hid, hg⟩ := (next_moves host S op).registered hget hP
    rw [register_ok hg]
    exact hid
  | some Q =>
    obtain ⟨P', hP', hcontinues⟩ := next_continues host S op id Q hget
    obtain rfl := Option.some.inj (hP.symm.trans hP')
    exact hcontinues.programId.trans (hI id Q hget)

end System

end CodexFlow.Programs
