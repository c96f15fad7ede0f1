import CodexFlow.Programs.Revisions
import CodexFlow.Programs.Stages

/-!
# Effects settle once

An outcome of an external effect is a fact in the journal of the milestone that its bundle binds it
to, and only one call writes such facts. The receipt of the action is acknowledged by the call that
records the last outcome, and a recorded outcome is answered without a change.
-/

namespace CodexFlow

open Checked

namespace Ledger

variable {env : Env} {L L' : Ledger} {p p' : DecisionRows} {context : DecisionContext} {now : Time}
  {call : DecisionOp} {event : ProgramEvent}

/-! ### The receipt of a decision -/

theorem run_outbox (h : call.run env context now p = .ok p') (hwake : p.wake = none)
    (hcall : ∀ q, call ≠ .acknowledge q) : p'.decision.outbox = p.decision.outbox := by
  cases call with
  | acknowledge q => exact absurd rfl (hcall q)
  | claim q minted =>
    obtain ⟨-, -, ⟨rfl, -⟩ | ⟨w, -, -, -, -, -, rfl⟩⟩ := claim_cases h
    · rfl
    · rfl
  | renew q =>
    simp only [DecisionOp.run, DecisionRows.renew, steps_ok] at h
    obtain ⟨-, -, -, rfl⟩ := h
    rfl
  | deferRateLimit q =>
    simp only [DecisionOp.run, DecisionRows.deferRateLimit, steps_ok] at h
    obtain ⟨-, -, -, rfl⟩ := h
    rfl
  | expireInspection =>
    simp only [DecisionOp.run, DecisionRows.expireInspection, pure_eq_ok] at h
    subst h
    split_ifs <;> rfl
  | reserveInspection minted =>
    simp only [DecisionOp.run, DecisionRows.reserveInspection, steps_ok] at h
    obtain ⟨-, -, -, -, -, -, -, rfl⟩ := h
    rfl
  | completeInspection q =>
    obtain ⟨-, -, i, i', terminalAt, inspected, settled, -, -, -, -, -, -, rfl, rfl, rfl⟩ :=
      completeInspection_cases h
    split_ifs
    · rfl
    · unfold ControllerDecision.settleInspection
      split_ifs <;> rfl
  | reap => cases reap_cases h <;> rfl
  | prepareGeneration generation prompt =>
    simp only [DecisionOp.run, DecisionRows.prepareGeneration, steps_ok] at h
    obtain ⟨-, -, -, -, -, rfl⟩ := h
    rfl
  | bindThread generation thread =>
    simp only [DecisionOp.run, DecisionRows.bindThread, checks_ok] at h
    obtain ⟨-, h⟩ := h
    split at h <;> simp only [steps_ok] at h
    · obtain ⟨-, rfl⟩ := h
      rfl
    · obtain ⟨-, rfl⟩ := h
      rfl
  | bindTurn q =>
    simp only [DecisionOp.run, DecisionRows.bindTurn, checks_ok] at h
    obtain ⟨-, -, h⟩ := h
    split_ifs at h
    · exact pure_eq_ok.1 h ▸ rfl
    · simp only [steps_ok] at h
      obtain ⟨-, -, -, -, rfl⟩ := h
      rfl
  | completeGeneration generation outcome =>
    simp only [DecisionOp.run, DecisionRows.completeGeneration, checks_ok] at h
    obtain ⟨-, h⟩ := h
    split_ifs at h
    · obtain rfl := pure_eq_ok.1 h
      rfl
    · simp only [steps_ok] at h
      obtain ⟨-, rfl⟩ := h
      rfl
  | recordProfileDrift generation reason =>
    simp only [DecisionOp.run, DecisionRows.recordProfileDrift, checks_ok] at h
    obtain ⟨-, -, h⟩ := h
    split_ifs at h
    · exact pure_eq_ok.1 h ▸ rfl
    · simp only [steps_ok] at h
      obtain ⟨-, -, rfl⟩ := h
      rfl
  | resetDelivery q =>
    have hreset : ∀ d : ControllerDecision, (if p.decision.state = .claimed then d.release now
        else d).outbox = d.outbox := by
      intro d
      split_ifs <;> rfl
    have hmap : (p.decision.mapGeneration q.generation fun g => { g with state := .prepared }).outbox
        = p.decision.outbox := by
      unfold ControllerDecision.mapGeneration
      split_ifs <;> rfl
    dsimp only [DecisionOp.run, DecisionRows.resetDelivery] at h
    split at h
    · cases h
    simp only [checks_ok] at h
    obtain ⟨-, -, h⟩ := h
    split at h <;> simp only [steps_ok] at h
    · obtain ⟨-, -, -, -, rfl⟩ := h
      exact (hreset _).trans hmap
    · obtain ⟨-, rfl⟩ := h
      exact (hreset _).trans hmap
  | markLaunchAmbiguous q =>
    simp only [DecisionOp.run, DecisionRows.markLaunchAmbiguous, steps_ok] at h
    obtain ⟨-, -, rfl⟩ := h
    rfl
  | authorizeReplacement revision reason =>
    simp only [DecisionOp.run, DecisionRows.authorizeReplacement, steps_ok] at h
    obtain ⟨-, -, -, rfl⟩ := h
    rfl
  | claimWake | recordDelivery | reconcileDelivery =>
    obtain ⟨w, hw, -⟩ := onWake_ok h
    rw [hwake] at hw
    cases hw

def SameReceipts (L L' : Ledger) : Prop :=
  ∀ event, (L'.programDecisions.get? event).bind (·.decision.outbox) =
    (L.programDecisions.get? event).bind (·.decision.outbox)

namespace SameReceipts

variable {f : ProgramFacts}

theorem refl (L : Ledger) : L.SameReceipts L := fun _ => rfl

theorem trans {L'' : Ledger} (h : L.SameReceipts L') (h' : L'.SameReceipts L'') :
    L.SameReceipts L'' :=
  fun event => (h' event).trans (h event)

theorem of_programs (h : L'.programDecisions = L.programDecisions) : L.SameReceipts L' :=
  fun event => by rw [h]

theorem set {P P' : ProgramDecision} (hP : L.programDecisions.get? event = some P)
    (h : L'.programDecisions = L.programDecisions.set event P')
    (hsame : P'.decision.outbox = P.decision.outbox) : L.SameReceipts L' := by
  intro e
  rw [h]
  by_cases he : e = event
  · subst he
    rw [Table.get?_set_self hP, hP]
    exact hsame
  · rw [Table.get?_set_ne _ he]

theorem ensure {deadline : Option Time} (h : L.ensureProgramDecision event f deadline now = .ok L') :
    L.SameReceipts L' := by
  simp only [ensureProgramDecision, bind_eq_ok] at h
  obtain ⟨-, -, -, -, h⟩ := h
  split at h
  · exact pure_eq_ok.1 h ▸ .refl L
  · rename_i hnew
    simp only [bind_eq_ok, pure_eq_ok] at h
    obtain ⟨-, -, rfl⟩ := h
    intro e
    by_cases he : e = event
    · subst he
      rw [Table.get?_insert_self hnew, hnew]
      rfl
    · rw [Table.get?_insert_ne _ he]

theorem superseded {c : ProgramEvent → ProgramDecision → Bool}
    (h : L'.programDecisions = L.programDecisions.map fun e P => P.supersedeIf (c e P) now) :
    L.SameReceipts L' := by
  intro e
  rw [h, Table.get?_map]
  cases L.programDecisions.get? e with
  | none => rfl
  | some P =>
    show (P.supersedeIf (c e P) now).decision.outbox = P.decision.outbox
    unfold ProgramDecision.supersedeIf ControllerDecision.supersedeOpen
    split_ifs <;> rfl

theorem recordEvent {deadline : Option Time} (h : L.recordProgramEvent event f deadline now = .ok L') :
    L.SameReceipts L' := by
  simp only [recordProgramEvent, bind_eq_ok] at h
  obtain ⟨-, -, h⟩ := h
  split_ifs at h
  · exact (superseded coalesceCheckpoint_programs).trans (.ensure h)
  · exact .ensure h

theorem openCoalesced {facts : String → ProgramFacts} {programs : List String}
    (h : Ledger.openCoalesced facts now programs L = .ok L') : L.SameReceipts L' := by
  induction programs generalizing L with
  | nil => exact pure_eq_ok.1 h ▸ .refl L
  | cons programId programs ih =>
    simp only [Ledger.openCoalesced, bind_eq_ok] at h
    obtain ⟨L₁, hopened, h⟩ := h
    exact (SameReceipts.ensure hopened).trans (ih h)

theorem reconcileStale {facts : String → ProgramFacts} {isOpen : String → Bool}
    (h : L.reconcileStaleDecisions facts isOpen now = .ok L') : L.SameReceipts L' := by
  simp only [reconcileStaleDecisions, bind_eq_ok] at h
  obtain ⟨-, -, h⟩ := h
  exact (superseded (c := fun event P => P.isStale (facts event.programId)) rfl).trans
    (openCoalesced h)

theorem claim {q : ClaimRequest} {minted : String}
    (h : L.claimProgramDecision env event q f minted now = .ok L') : L.SameReceipts L' := by
  simp only [claimProgramDecision, checks_ok] at h
  obtain ⟨-, h⟩ := h
  split at h
  · cases h
  rename_i P hP
  simp only [steps_ok] at h
  obtain ⟨-, -, -, -, -, -, -, -, digest, -, rfl⟩ := h
  exact .set hP rfl rfl

theorem onDecision {capable : Bool} (h : L.onProgramDecision env event capable call now = .ok L')
    (hcall : ∀ q, call ≠ .acknowledge q) : L.SameReceipts L' := by
  simp only [onProgramDecision, bind_eq_ok] at h
  obtain ⟨-, -, h⟩ := h
  split at h
  · cases h
  rename_i P hP
  simp only [bind_eq_ok, pure_eq_ok] at h
  obtain ⟨-, -, p, hrun, rfl⟩ := h
  exact .set hP rfl (run_outbox hrun rfl hcall)

end SameReceipts

/-- A new acknowledgement of a receipt finds no effect of its action pending. -/
theorem acknowledge_outbox {q : AcknowledgeRequest} {decisionId : DecisionKey}
    (h : p.acknowledge env decisionId q now = .ok p') :
    ∃ o, p.decision.outbox = some o ∧ o.actionId = q.actionId ∧
      (∀ e, decisionId = .program e → q.pendingEffects = false) ∧
      (o.acknowledgedAt.isSome ∧ p' = p ∨ o.acknowledgedAt = none ∧
        p'.decision.outbox = some { o with acknowledgedAt := some now }) := by
  unfold DecisionRows.acknowledge at h
  dsimp only at h
  split at h
  · cases h
  rename_i o ho
  simp only [checks_ok] at h
  obtain ⟨hid, hpending, -, h⟩ := h
  refine ⟨o, ho, hid.1, ?_, ?_⟩
  · rintro e rfl
    simpa using hpending rfl
  split_ifs at h with hdone
  · simp only [steps_ok] at h
    obtain ⟨-, -, rfl⟩ := h
    exact .inl ⟨hdone, rfl⟩
  · simp only [steps_ok] at h
    obtain ⟨-, rfl⟩ := h
    refine .inr ⟨by simpa using hdone, ?_⟩
    rw [(ControllerDecision.acknowledge_kept p.decision).2.2.2.2.2, ho]
    rfl

/-- The receipt of the action is acknowledged by the call that leaves no effect pending. -/
theorem recordProgramEffect_receipts {q : EffectOutcome} {f : ProgramFacts}
    (h : L.recordProgramEffect event q f now = .ok L') :
    ∃ o, (L.programDecisions.get? event).bind (·.decision.outbox) = some o ∧
      (L'.programDecisions.get? event).bind (·.decision.outbox) =
        some (if q.closes && o.acknowledgedAt.isNone then
          { o with acknowledgedAt := some now } else o) ∧
      ∀ e ≠ event, (L'.programDecisions.get? e).bind (·.decision.outbox) =
        (L.programDecisions.get? e).bind (·.decision.outbox) := by
  unfold recordProgramEffect at h
  split at h
  · cases h
  rename_i P hP
  simp only [checks_ok] at h
  obtain ⟨houtbox, -, -, h⟩ := h
  obtain ⟨o, ho⟩ := Option.isSome_iff_exists.1 houtbox
  have hfailed : (P.decision.failEffect q.failure now).outbox = some o := by
    unfold ControllerDecision.failEffect
    split_ifs <;> exact ho
  have hclosed : ((P.decision.failEffect q.failure now).closeEffects q.closes now).outbox =
      some (if q.closes && o.acknowledgedAt.isNone then
        { o with acknowledgedAt := some now } else o) := by
    unfold ControllerDecision.closeEffects
    rw [hfailed, Option.any_some]
    split_ifs
    · rw [(ControllerDecision.acknowledge_kept _).2.2.2.2.2, hfailed]
      rfl
    · exact hfailed
  have hset : ∀ P' : ProgramDecision, P'.decision =
      (P.decision.failEffect q.failure now).closeEffects q.closes now →
      ((L.programDecisions.set event P').get? event).bind (·.decision.outbox) =
          some (if q.closes && o.acknowledgedAt.isNone then
            { o with acknowledgedAt := some now } else o) ∧
        ∀ e ≠ event, ((L.programDecisions.set event P').get? e).bind (·.decision.outbox) =
          (L.programDecisions.get? e).bind (·.decision.outbox) := by
    intro P' hP'
    rw [Table.get?_set_self hP, Option.bind_some, hP']
    exact ⟨hclosed, fun e he => by rw [Table.get?_set_ne _ he]⟩
  obtain ⟨hself, hother⟩ := hset { P with decision := _ } rfl
  refine ⟨o, by rw [hP, Option.bind_some, ho], ?_⟩
  split_ifs at h
  · have hsame := SameReceipts.ensure h
    exact ⟨(hsame event).trans hself, fun e he => (hsame e).trans (hother e he)⟩
  · obtain rfl := pure_eq_ok.1 h
    exact ⟨hself, hother⟩

end Ledger

namespace Programs

open Ledger (Time)

variable {host : Host} {digests : Digests} {S S' : System} {P P' : Program} {m m' : Milestone}
  {id key actionId effectId : String} {state : EffectState} {now : Time} {fact : Fact} {op : Op}
  {a : CommittedAction}

/-! ### Outcomes in a journal -/

namespace Milestone

/-- The outcomes that the journal has, in their order. -/
def effects (m : Milestone) : List (String × String × EffectState) :=
  m.lifecycle.filterMap Fact.effect?

@[simp] theorem effects_moveTo (s : WorkflowState) : (m.moveTo s).effects = m.effects := rfl

@[simp] theorem effects_addDispatch (role : String) (generation : ℕ) :
    (m.addDispatch role generation).effects = m.effects := rfl

@[simp] theorem effects_addOutcome (o : ProgramOutcome) : (m.addOutcome o).effects = m.effects := rfl

@[simp] theorem effects_setIntegration (i : Integration) :
    (m.setIntegration i).effects = m.effects := rfl

theorem effects_recordFact (h : fact.effect? = none) : (m.recordFact fact).effects = m.effects := by
  unfold effects
  rw [recordFact_lifecycle]
  unfold Journal.record
  split_ifs
  · rfl
  · rw [List.filterMap_append, List.filterMap_cons, h, List.filterMap_nil, List.append_nil]

theorem effects_supersede (predecessor : Option String) (commit : String)
    (dispatchId : Option DispatchValue) :
    (m.supersede predecessor commit dispatchId).effects = m.effects := by
  cases predecessor with
  | none => rfl
  | some p => exact effects_recordFact rfl

theorem effects_promote (s : Subject) (ids : List String) : (m.promote s ids).effects = m.effects := by
  unfold Milestone.promote
  split_ifs
  · rfl
  · exact effects_recordFact rfl

theorem effects_closes {q : Closure} (h : P.Closes digests id q now m m') :
    m'.effects = m.effects := by
  obtain ⟨closed, hclosed, rfl⟩ := h.closed
  rw [effects_moveTo, effects_promote, Program.closeOutcome_state hclosed]
  rfl

theorem effects_adopts {q : Adoption} {commit : String} (h : P.Adopts digests id q commit now m m') :
    m'.effects = m.effects := by
  obtain ⟨predecessor, moved, adopted, dispatchId, -, hmoved, hadopted, rfl⟩ := h.result
  have hadopt : adopted.effects = moved.effects := by
    obtain rfl | ⟨-, r, rfl⟩ := adoptOutcome_ok hadopted
    · exact effects_recordFact rfl
    · exact effects_recordFact rfl
  rw [effects_supersede, hadopt]
  obtain ⟨-, -, hmoved, -⟩ | ⟨-, hmoved, -⟩ := hmoved
  · obtain ⟨-, dispatches, rfl, -⟩ := launchAdopted_ok hmoved
    rfl
  · obtain ⟨rfl, -⟩ | ⟨-, -, rfl⟩ := leaveFor_ok hmoved
    · rfl
    · rfl

theorem Step.effects {act : Act} (h : m.Step digests P id now act m') (hact : act ≠ .effect) :
    m'.effects = m.effects := by
  cases h with
  | rests _ _ h => exact congrArg (List.filterMap Fact.effect?) h.lifecycle
  | records | reviews | resolves => exact effects_recordFact rfl
  | adopts q commit m' h => exact effects_adopts h
  | reports q m' h =>
    obtain ⟨closed, predecessor, hclosed, -, rfl⟩ := h.result
    unfold recordResult
    rw [effects_recordFact rfl, effects_supersede, effects_recordFact rfl]
    obtain ⟨-, rfl⟩ | ⟨-, rfl, -⟩ := closeExecution_ok hclosed
    · rfl
    · rfl
  | reconciles q m' h =>
    rw [h.result, effects_recordFact rfl]
    rfl
  | manifests q queue m' hruntime h =>
    rw [Program.recordManifest_keeps h]
    rfl
  | evidences q queue m' h =>
    obtain ⟨recorded, hrecorded, -, rfl⟩ := h.result
    rw [effects_recordFact rfl, effects_recordFact rfl, effects_moveTo,
      Program.recordManifest_keeps hrecorded]
    rfl
  | invalidates e reason m' h =>
    rw [h.result, effects_recordFact rfl]
    split_ifs <;> rfl
  | closes q m' h => exact effects_closes h
  | integrates c r i after m' hi h =>
    rw [h.result, effects_recordFact rfl]
    rfl
  | abandons | authorizes => rfl
  | repairs => exact (effects_recordFact rfl).trans rfl
  | promotes s ids => exact effects_promote s ids
  | promotesClosed s ids => exact effects_promote s ids
  | promotesAdopted s ids m' hkind hsubject hadopted h =>
    exact (effects_closes h).trans (effects_promote s ids)
  | affects => exact absurd rfl hact

end Milestone

/-! ### The outcome of an effect -/

theorem effectState_eq_none : Program.effectState m actionId effectId = none ↔
    ∀ state, (actionId, effectId, state) ∉ m.effects := by
  unfold Program.effectState Milestone.effects
  rw [Journal.latest_eq_none]
  constructor
  · intro h state hmem
    obtain ⟨fact, hfact, heffect⟩ := List.mem_filterMap.1 hmem
    have hnone := h fact hfact
    rw [heffect] at hnone
    simp at hnone
  · intro h fact hfact
    cases heffect : fact.effect? with
    | none => rfl
    | some e =>
      have hne : ¬(e.1 = actionId ∧ e.2.1 = effectId) := by
        rintro ⟨rfl, rfl⟩
        exact h e.2.2 (List.mem_filterMap.2 ⟨fact, hfact, heffect⟩)
      simpa using hne

theorem mem_of_effectState (h : Program.effectState m actionId effectId = some state) :
    (actionId, effectId, state) ∈ m.effects := by
  obtain ⟨fact, hfact, h⟩ := Journal.exists_of_latest h
  cases heffect : fact.effect? with
  | none =>
    rw [heffect] at h
    cases h
  | some e =>
    rw [heffect] at h
    obtain ⟨e', he', rfl⟩ := Option.map_eq_some_iff.1 h
    obtain ⟨he, hid⟩ := Option.filter_eq_some_iff.1 he'
    obtain rfl := Option.some.inj he
    obtain ⟨rfl, rfl⟩ := of_decide_eq_true hid
    exact List.mem_filterMap.2 ⟨fact, hfact, heffect⟩

namespace Program

def effectsAt (P : Program) (key : String) : List (String × String × EffectState) :=
  (P.milestones.get? key).elim [] (·.effects)

theorem effectsAt_of (hm : P.milestones.get? key = some m) : P.effectsAt key = m.effects := by
  unfold effectsAt
  rw [hm]
  rfl

theorem effectsAt_set (hm : P.milestones.get? id = some m)
    (hset : P'.milestones = P.milestones.set id m') (hsame : m'.effects = m.effects) :
    P'.effectsAt key = P.effectsAt key := by
  unfold effectsAt
  rw [hset]
  by_cases hkey : key = id
  · subst hkey
    rw [Table.get?_set_self hm, hm]
    exact hsame
  · rw [Table.get?_set_ne _ hkey]

theorem Step.effectsAt {act : Act} (h : P.Step digests now act P') (hact : act ≠ .effect) :
    P'.effectsAt key = P.effectsAt key := by
  obtain hsame | ⟨id, m, m', hm, hset, hstep⟩ := h.milestones
  · unfold Program.effectsAt
    rw [hsame]
  · exact effectsAt_set hm hset (hstep.effects hact)

theorem commitActions_effectsAt {queue : QueueStates} {b : ProgramBundle}
    (h : P.commitActions digests queue b now = .ok P') : P'.effectsAt key = P.effectsAt key := by
  refine commitActions_induction (J := fun Q => Q.effectsAt key = P.effectsAt key)
    (fun Q Q' hsame hQ => ?_) (fun action _ Q Q' hQ hstep => ?_) h rfl
  · unfold Program.effectsAt at hQ ⊢
    rw [hsame]
    exact hQ
  · exact (hstep.effectsAt Act.noConfusion).trans hQ

theorem isPending_eq_false {effect : String × String} : P.isPending actionId effect = false ↔
    ∃ state, (actionId, effect.1, state) ∈ P.effectsAt effect.2 := by
  unfold isPending effectsAt
  cases P.milestones.get? effect.2 with
  | none => exact ⟨(nomatch ·), fun ⟨_, h⟩ => nomatch h⟩
  | some m =>
    show (effectState m actionId effect.1).isNone = false ↔ ∃ state, (actionId, effect.1, state) ∈ m.effects
    cases hstate : effectState m actionId effect.1 with
    | none =>
      rw [effectState_eq_none] at hstate
      exact ⟨(nomatch ·), fun ⟨state, h⟩ => absurd h (hstate state)⟩
    | some state => exact ⟨fun _ => ⟨state, mem_of_effectState hstate⟩, fun _ => rfl⟩

/-- A recorded outcome is answered, and a new one is written to the milestone of its effect. -/
theorem recordActionEffect_cases {b : ProgramBundle} {isNew : Bool}
    (h : P.recordActionEffect actionId effectId b state = .ok (P', isNew)) :
    ∃ effect m, b.externalEffects.find? (·.1 = effectId) = some effect ∧
      P.milestones.get? effect.2 = some m ∧
      ((isNew = false ∧ P' = P ∧ ∃ existing, effectState m actionId effectId = some existing) ∨
        isNew = true ∧ effectState m actionId effectId = none ∧ P'.milestones =
          P.milestones.set effect.2 (m.recordFact (.programEffect actionId effectId state))) := by
  unfold recordActionEffect at h
  split at h
  · cases h
  rename_i effect heffect
  simp only [bind_eq_ok, milestone_eq_ok] at h
  obtain ⟨-, -, m, hm, h⟩ := h
  refine ⟨effect, m, heffect, hm, ?_⟩
  split at h
  · rename_i existing hexisting
    simp only [steps_ok, Prod.mk.injEq] at h
    exact .inl ⟨h.2.2.symm, h.2.1.symm, existing, hexisting⟩
  · obtain ⟨rfl, rfl⟩ := Prod.mk.inj (pure_eq_ok.1 h)
    refine .inr ⟨rfl, ‹_›, ?_⟩
    split_ifs <;> rfl

theorem recordActionEffect_effectsAt {b : ProgramBundle} {isNew : Bool}
    (h : P.recordActionEffect actionId effectId b state = .ok (P', isNew)) :
    ∃ target, (effectId, target) ∈ b.externalEffects ∧
      ((∀ key, P'.effectsAt key = P.effectsAt key) ∨
        (∀ state', (actionId, effectId, state') ∉ P.effectsAt target) ∧
          P'.effectsAt target = P.effectsAt target ++ [(actionId, effectId, state)] ∧
          ∀ key ≠ target, P'.effectsAt key = P.effectsAt key) := by
  obtain ⟨⟨effectId', target⟩, m, hfind, hm, hcases⟩ := recordActionEffect_cases h
  obtain rfl : effectId' = effectId := by simpa using List.find?_some hfind
  refine ⟨target, List.mem_of_find?_eq_some hfind, ?_⟩
  obtain ⟨-, rfl, -⟩ | ⟨-, hnone, hset⟩ := hcases
  · exact .inl fun _ => rfl
  rw [effectState_eq_none] at hnone
  rw [effectsAt_of hm]
  refine .inr ⟨hnone, ?_, fun key hkey => ?_⟩
  · have hnew : .programEffect actionId effectId' state ∉ m.lifecycle := fun hmem =>
      hnone state (List.mem_filterMap.2 ⟨_, hmem, rfl⟩)
    rw [effectsAt_of (hset ▸ Table.get?_set_self hm _)]
    unfold Milestone.effects
    rw [Milestone.recordFact_lifecycle, Journal.record_of_notMem hnew, List.filterMap_append]
    rfl
  · unfold effectsAt
    rw [hset, Table.get?_set_ne _ hkey]

end Program

namespace System

/-! ### What the system keeps -/

/-- The outcomes in the journal of a milestone of a program. -/
def effectsAt (S : System) (programId key : String) : List (String × String × EffectState) :=
  (S.programs.get? programId).elim [] (·.effectsAt key)

def Settled (S : System) (a : CommittedAction) (effect : String × String) : Prop :=
  ∃ state, (a.actionId, effect.1, state) ∈ S.effectsAt a.event.programId effect.2

def AllSettled (S : System) (a : CommittedAction) : Prop :=
  ∀ effect ∈ a.bundle.externalEffects, S.Settled a effect

/-- Outcomes are those of committed effects, one for each; the receipt of an action with effects is
acknowledged exactly when all of them have one. -/
structure Settles (S : System) : Prop where
  unique : (S.actions.map (·.actionId)).Nodup
  bound : ∀ programId key actionId effectId state,
    (actionId, effectId, state) ∈ S.effectsAt programId key → ∃ a ∈ S.actions,
      a.actionId = actionId ∧ a.event.programId = programId ∧
        (effectId, key) ∈ a.bundle.externalEffects
  single : ∀ programId key actionId effectId state state',
    (actionId, effectId, state) ∈ S.effectsAt programId key →
      (actionId, effectId, state') ∈ S.effectsAt programId key → state = state'
  acknowledged : ∀ a ∈ S.actions, a.bundle.externalEffects ≠ [] → ∀ o,
    S.receipt? a.event = some o → (o.acknowledgedAt.isSome ↔ S.AllSettled a)

theorem effectsAt_of (hP : S.programs.get? id = some P) : S.effectsAt id key = P.effectsAt key := by
  unfold effectsAt
  rw [hP]
  rfl

theorem effectsAt_set (hP : S.programs.get? id = some P) {L : Ledger}
    {actions : List CommittedAction} {programId : String} :
    System.effectsAt { S.setProgram id P' with ledger := L, actions := actions } programId key =
      if programId = id then P'.effectsAt key else S.effectsAt programId key := by
  unfold effectsAt
  split_ifs with hid
  · subst hid
    show ((S.programs.set programId P').get? programId).elim [] _ = _
    rw [Table.get?_set_self hP]
    rfl
  · show ((S.programs.set id P').get? programId).elim [] _ = _
    rw [Table.get?_set_ne _ hid]

theorem Settles.congr (h : S.Settles) (hactions : S'.actions = S.actions)
    (heffects : ∀ programId key, S'.effectsAt programId key = S.effectsAt programId key)
    (hreceipts : ∀ event, S'.receipt? event = S.receipt? event) : S'.Settles where
  unique := hactions ▸ h.unique
  bound programId key actionId effectId state hmem := by
    rw [heffects] at hmem
    rw [hactions]
    exact h.bound programId key actionId effectId state hmem
  single programId key actionId effectId state state' hmem hmem' := by
    rw [heffects] at hmem hmem'
    exact h.single programId key actionId effectId state state' hmem hmem'
  acknowledged a ha hne o ho := by
    rw [hactions] at ha
    rw [hreceipts] at ho
    unfold AllSettled Settled
    simp only [heffects]
    exact h.acknowledged a ha hne o ho

theorem Settles.find (h : S.Settles) (ha : a ∈ S.actions) :
    S.actions.find? (·.actionId = a.actionId) = some a := by
  cases hfind : S.actions.find? (·.actionId = a.actionId) with
  | none =>
    have hnone := List.find?_eq_none.1 hfind a ha
    simp at hnone
  | some a' =>
    have hid : a'.actionId = a.actionId := by simpa using List.find?_some hfind
    rw [List.inj_on_of_nodup_map h.unique (List.mem_of_find?_eq_some hfind) ha hid]

theorem Settles.eq_of_event (h : S.Settles) {a' : CommittedAction} (ha : a ∈ S.actions)
    (ha' : a' ∈ S.actions) (hr : S.Recorded host a) (hr' : S.Recorded host a')
    (hevent : a.event = a'.event) : a = a' := by
  obtain ⟨o, ho, hid, -⟩ := hr.receipt
  obtain ⟨o', ho', hid', -⟩ := hr'.receipt
  rw [hevent] at ho
  obtain rfl := Option.some.inj (ho.symm.trans ho')
  exact List.inj_on_of_nodup_map h.unique ha ha' (hid.symm.trans hid')

theorem Settles.of_hasPending (h : S.Settles) (ha : a ∈ S.actions)
    (hpending : S.hasPending a.actionId = false) : S.AllSettled a := by
  intro effect heffect
  unfold hasPending at hpending
  rw [h.find ha, Option.any_some, List.any_eq_false] at hpending
  have hfree := hpending effect heffect
  cases hP : S.programs.get? a.event.programId with
  | none =>
    rw [hP] at hfree
    exact absurd rfl hfree
  | some P =>
    rw [hP, Option.all_some, Bool.not_eq_true, Program.isPending_eq_false] at hfree
    obtain ⟨state, hstate⟩ := hfree
    exact ⟨state, (effectsAt_of hP).symm ▸ hstate⟩

theorem effectsClosed_iff (hP : S.programs.get? a.event.programId = some P) :
    P.effectsClosed a.actionId a.bundle ↔ a.bundle.externalEffects ≠ [] ∧ S.AllSettled a := by
  unfold Program.effectsClosed AllSettled Settled
  rw [Bool.and_eq_true, List.all_eq_true]
  simp only [effectsAt_of hP, Bool.not_eq_true', Program.isPending_eq_false]
  exact and_congr_left' (by simp)

/-! ### One call -/

theorem receipt?_congr {event : Ledger.ProgramEvent}
    (h : S'.ledger.programDecisions.get? event = S.ledger.programDecisions.get? event) :
    S'.receipt? event = S.receipt? event := by
  unfold receipt?
  rw [h]

/-- An acknowledgement finds every effect of its action settled. -/
theorem Settles.acknowledge (h : S.Settles) (hrecorded : ∀ a ∈ S.actions, S.Recorded host a)
    {event : Ledger.ProgramEvent} {q : Ledger.AcknowledgeRequest} {capable : Bool} {L : Ledger}
    (hL : S.ledger.onProgramDecision host.ledger event capable
      (S.withEffects (.acknowledge q)) now = .ok L) :
    System.Settles { S with ledger := L } := by
  simp only [Ledger.onProgramDecision, bind_eq_ok] at hL
  obtain ⟨-, -, hL⟩ := hL
  split at hL
  · cases hL
  rename_i p hp
  simp only [bind_eq_ok, pure_eq_ok] at hL
  obtain ⟨-, -, p', hrun, rfl⟩ := hL
  have hacknowledged : Ledger.DecisionRows.acknowledge host.ledger (.program event)
      { q with pendingEffects := S.hasPending q.actionId } now ⟨p.decision, none⟩ = .ok p' := hrun
  obtain ⟨o, ho, hid, hpending, hcases⟩ := Ledger.acknowledge_outbox hacknowledged
  have hold : S.receipt? event = some o := by
    unfold receipt?
    rw [hp]
    exact ho
  refine ⟨h.unique, h.bound, h.single, fun a ha hne o' ho' => ?_⟩
  by_cases hevent : a.event = event
  · obtain ⟨o₁, ho₁, ho₁id, -⟩ := (hrecorded a ha).receipt
    rw [hevent, hold] at ho₁
    obtain rfl := Option.some.inj ho₁
    have hclosed : S.AllSettled a := by
      refine h.of_hasPending ha ?_
      rw [← ho₁id, hid]
      exact hpending event rfl
    refine iff_of_true ?_ hclosed
    have hnew : p'.decision.outbox = some o' := by
      rw [hevent] at ho'
      exact (congrArg (·.bind (·.decision.outbox)) (Table.get?_set_self hp _)).symm.trans ho'
    obtain ⟨hdone, rfl⟩ | ⟨-, hset⟩ := hcases
    · obtain rfl := Option.some.inj (ho.symm.trans hnew)
      exact hdone
    · obtain rfl := Option.some.inj (hset.symm.trans hnew)
      rfl
  · refine h.acknowledged a ha hne o' ?_
    rw [← ho']
    exact receipt?_congr (Table.get?_set_ne _ hevent _).symm

theorem commit_new {q : Submission} {event : Ledger.ProgramEvent} {L : Ledger}
    (h : S.Commits host q now event P P' L) (ha : S.Recorded host a) :
    a.actionId ≠ q.bundle.actionId host := by
  have hnone : S.ledger.findOutbox (q.bundle.actionId host) = none := by
    have hledger := h.ledger
    simp only [Ledger.submitProgramActions, bind_eq_ok] at hledger
    obtain ⟨-, -, -, -, hledger⟩ := hledger
    split at hledger
    · cases hledger
    rename_i p hp
    simp only [checks_ok] at hledger
    obtain ⟨-, -, -, hledger⟩ := hledger
    split at hledger
    · rename_i o ho
      have hfresh := h.fresh
      unfold isCommitted at hfresh
      rw [hp, Option.any_some, ho] at hfresh
      cases hfresh
    simp only [bind_eq_ok] at hledger
    obtain ⟨-, -, -, -, hledger⟩ := hledger
    split at hledger
    · cases hledger
    simp only [checks_ok] at hledger
    exact Option.isNone_iff_eq_none.1 hledger.1
  intro hid
  obtain ⟨o, ho, hoid, -⟩ := ha.receipt
  obtain ⟨p, hp, houtbox⟩ := Option.bind_eq_some_iff.1 ho
  have hmem : (Ledger.DecisionKey.program a.event, p.decision) ∈ S.ledger.decisions :=
    List.mem_append_right _ (List.mem_map.2 ⟨(a.event, p), Table.get?_eq_some.1 hp, rfl⟩)
  have hmissing := List.findSome?_eq_none_iff.1 hnone _ hmem
  rw [houtbox, Option.filter_some, if_pos (by simpa using hoid.trans hid)] at hmissing
  cases hmissing

theorem Settles.commit (h : S.Settles) (hrecorded : ∀ a ∈ S.actions, S.Recorded host a)
    {q : Submission} {event : Ledger.ProgramEvent} {L : Ledger}
    (hcommit : S.Commits host q now event P P' L) :
    System.Settles { S.setProgram q.bundle.programId P' with
      ledger := L
      actions := S.actions ++ [⟨q.bundle.actionId host, event, q.bundle⟩] } := by
  generalize hS' : ({ S.setProgram q.bundle.programId P' with
    ledger := L
    actions := S.actions ++ [⟨q.bundle.actionId host, event, q.bundle⟩] } : System) = S'
  have heffects : ∀ programId key, S'.effectsAt programId key = S.effectsAt programId key := by
    intro programId key
    rw [← hS', effectsAt_set hcommit.program]
    split_ifs with hid
    · rw [hid, Program.commitActions_effectsAt hcommit.effects, effectsAt_of hcommit.program]
    · rfl
  have hactions : S'.actions = S.actions ++ [⟨q.bundle.actionId host, event, q.bundle⟩] := by
    rw [← hS']
  obtain ⟨-, p, c, hp, -, hL⟩ := submitProgramActions_fresh hcommit.ledger hcommit.fresh
  have hreceipts : ∀ e ≠ event, S'.receipt? e = S.receipt? e := by
    intro e he
    rw [← hS', hL]
    exact receipt?_congr (Table.get?_set_ne _ he _)
  have hfresh : ∀ o, S'.receipt? event = some o → o.acknowledgedAt = none := by
    intro o ho
    rw [← hS'] at ho
    unfold receipt? at ho
    rw [hL] at ho
    have hnew := (congrArg (·.bind (·.decision.outbox)) (Table.get?_set_self hp _)).symm.trans ho
    obtain rfl := Option.some.inj hnew
    rfl
  have hbound : ∀ a ∈ S.actions, a ∈ S'.actions :=
    fun a ha => hactions ▸ List.mem_append_left _ ha
  refine ⟨?_, ?_, ?_, fun a ha hne o ho => ?_⟩
  · rw [hactions, List.map_append, List.nodup_append]
    refine ⟨h.unique, List.nodup_singleton _, ?_⟩
    rintro _ hmem _ hmem' rfl
    obtain ⟨a, ha, haid⟩ := List.mem_map.1 hmem
    exact commit_new hcommit (hrecorded a ha) (haid.trans (List.mem_singleton.1 hmem'))
  · intro programId key actionId effectId state hmem
    rw [heffects] at hmem
    obtain ⟨a, ha, hcommitted⟩ := h.bound programId key actionId effectId state hmem
    exact ⟨a, hbound a ha, hcommitted⟩
  · intro programId key actionId effectId state state' hmem hmem'
    rw [heffects] at hmem hmem'
    exact h.single programId key actionId effectId state state' hmem hmem'
  · rw [hactions] at ha
    unfold AllSettled Settled
    simp only [heffects]
    obtain hold | ha := List.mem_append.1 ha
    · have hevent : a.event ≠ event := by
        rintro rfl
        obtain ⟨o', ho', -⟩ := (hrecorded a hold).receipt
        have hcommitted := isCommitted_of_receipt ho'
        rw [hcommit.fresh] at hcommitted
        cases hcommitted
      rw [hreceipts a.event hevent] at ho
      exact h.acknowledged a hold hne o ho
    · obtain rfl := List.mem_singleton.1 ha
      rw [hfresh o ho]
      refine iff_of_false nofun fun hall => ?_
      obtain ⟨effect, heffect⟩ := List.exists_mem_of_ne_nil _ hne
      obtain ⟨state, hstate⟩ := hall effect heffect
      obtain ⟨a', ha', hid, -⟩ := h.bound _ _ _ _ _ hstate
      exact commit_new hcommit (hrecorded a' ha') hid

/-- An outcome that completes its action acknowledges the receipt. -/
theorem Settles.effect (h : S.Settles) (hrecorded : ∀ a ∈ S.actions, S.Recorded host a)
    (hbody : S.recordEffect actionId effectId state now = .ok S') : S'.Settles := by
  simp only [recordEffect, bind_eq_ok] at hbody
  obtain ⟨-, -, hbody⟩ := hbody
  split at hbody
  · cases hbody
  rename_i a haction
  simp only [bind_eq_ok, program_eq_ok, pure_eq_ok] at hbody
  obtain ⟨P, hP, ⟨P', isNew⟩, heffect, L, hledger, rfl⟩ := hbody
  have ha : a ∈ S.actions := List.mem_of_find?_eq_some haction
  obtain rfl : a.actionId = actionId := by simpa using List.find?_some haction
  obtain ⟨target, htarget, hcases⟩ := Program.recordActionEffect_effectsAt heffect
  obtain ⟨o, ho, ho', hother⟩ := Ledger.recordProgramEffect_receipts hledger
  generalize hS' : ({ S.setProgram a.event.programId P' with ledger := L } : System) = S'
  have hactions : S'.actions = S.actions := by rw [← hS']; rfl
  have hreceipt : ∀ e, S'.receipt? e = (L.programDecisions.get? e).bind (·.decision.outbox) := by
    intro e
    rw [← hS']
    rfl
  have hprogram : ∀ key, S'.effectsAt a.event.programId key = P'.effectsAt key := by
    intro key
    rw [← hS', effectsAt_set hP, if_pos rfl]
  -- What is new is the outcome of this effect, which had none.
  have hkept : ∀ {programId key actionId effectId' state'},
      (actionId, effectId', state') ∈ S'.effectsAt programId key →
        (actionId, effectId', state') ∈ S.effectsAt programId key ∨
          (programId = a.event.programId ∧ key = target ∧ actionId = a.actionId ∧
            effectId' = effectId ∧ state' = state) ∧
          ∀ state', (a.actionId, effectId, state') ∉ S.effectsAt programId key := by
    intro programId key actionId effectId' state' hmem
    by_cases hid : programId = a.event.programId
    · subst hid
      rw [hprogram] at hmem
      rw [effectsAt_of hP]
      obtain hsame | ⟨hnone, hnew, hrest⟩ := hcases
      · exact .inl (hsame key ▸ hmem)
      by_cases hkey : key = target
      · subst hkey
        rw [hnew] at hmem
        obtain hmem | hmem := List.mem_append.1 hmem
        · exact .inl hmem
        · obtain ⟨rfl, rfl, rfl⟩ := Prod.mk.injEq .. ▸ Prod.mk.inj (List.mem_singleton.1 hmem)
          exact .inr ⟨⟨rfl, rfl, rfl, rfl, rfl⟩, hnone⟩
      · exact .inl (hrest key hkey ▸ hmem)
    · rw [← hS', effectsAt_set hP, if_neg hid] at hmem
      exact .inl hmem
  have hgrows : ∀ {programId key e}, e ∈ S.effectsAt programId key →
      e ∈ S'.effectsAt programId key := by
    intro programId key e hmem
    by_cases hid : programId = a.event.programId
    · subst hid
      rw [hprogram]
      rw [effectsAt_of hP] at hmem
      obtain hsame | ⟨-, hnew, hrest⟩ := hcases
      · exact (hsame key).symm ▸ hmem
      by_cases hkey : key = target
      · subst hkey
        rw [hnew]
        exact List.mem_append_left _ hmem
      · exact (hrest key hkey).symm ▸ hmem
    · rw [← hS', effectsAt_set hP, if_neg hid]
      exact hmem
  refine ⟨hactions ▸ h.unique, ?_, ?_, fun a' ha' hne o₁ ho₁ => ?_⟩
  · intro programId key actionId effectId' state' hmem
    rw [hactions]
    obtain hmem | ⟨⟨rfl, rfl, rfl, rfl, rfl⟩, -⟩ := hkept hmem
    · exact h.bound programId key actionId effectId' state' hmem
    · exact ⟨a, ha, rfl, rfl, htarget⟩
  · intro programId key actionId effectId' s s' hmem hmem'
    obtain hmem | ⟨⟨rfl, rfl, rfl, rfl, rfl⟩, hnone⟩ := hkept hmem
    · obtain hmem' | ⟨⟨rfl, rfl, rfl, rfl, rfl⟩, hnone⟩ := hkept hmem'
      · exact h.single programId key actionId effectId' s s' hmem hmem'
      · exact absurd hmem (hnone s)
    · obtain hmem' | ⟨⟨-, -, -, -, rfl⟩, -⟩ := hkept hmem'
      · exact absurd hmem' (hnone s')
      · rfl
  · rw [hactions] at ha'
    rw [hreceipt] at ho₁
    by_cases hevent : a'.event = a.event
    · obtain rfl := h.eq_of_event ha' ha (hrecorded a' ha') (hrecorded a ha) hevent
      obtain rfl := Option.some.inj (ho'.symm.trans ho₁)
      have hbefore := h.acknowledged a' ha hne o ho
      have hP' : S'.programs.get? a'.event.programId = some P' := by
        rw [← hS']
        exact Table.get?_set_self hP P'
      have hcloses : P'.effectsClosed a'.actionId a'.bundle ↔ S'.AllSettled a' :=
        (effectsClosed_iff hP').trans (and_iff_right hne)
      rw [← hcloses]
      by_cases hdone : o.acknowledgedAt.isSome
      · have hall : S'.AllSettled a' := by
          intro effect heffect
          obtain ⟨state, hstate⟩ := hbefore.1 hdone effect heffect
          exact ⟨state, hgrows hstate⟩
        have hnone : o.acknowledgedAt.isNone = false := by simp [hdone]
        rw [hnone, Bool.and_false]
        exact iff_of_true hdone (hcloses.2 hall)
      · have hnone : o.acknowledgedAt.isNone = true := by simpa using hdone
        rw [hnone, Bool.and_true]
        by_cases hclosed : P'.effectsClosed a'.actionId a'.bundle
        · rw [if_pos hclosed]
          exact iff_of_true rfl hclosed
        · rw [if_neg hclosed]
          exact iff_of_false hdone hclosed
    · rw [hother a'.event hevent] at ho₁
      rw [h.acknowledged a' ha' hne o₁ ho₁]
      have hid : a'.actionId ≠ a.actionId := by
        intro hid
        exact hevent (congrArg _ (List.inj_on_of_nodup_map h.unique ha' ha hid))
      refine forall₂_congr fun effect heffect => exists_congr fun s => ?_
      refine ⟨fun hmem => hgrows hmem, fun hmem => ?_⟩
      obtain hmem | ⟨⟨-, -, hsame, -⟩, -⟩ := hkept hmem
      · exact hmem
      · exact absurd hsame hid

/-- The other calls of the ledger leave the decisions of the programs alone. -/
theorem body_programDecisions {op : Ledger.Op} {L L' : Ledger} (hop : viaProgram op = false)
    (h : L.body host.ledger op = .ok L') : L'.programDecisions = L.programDecisions := by
  cases op with
  | acquireHarness nonce lease now =>
    simp only [Ledger.body, Ledger.acquireHarness, steps_ok] at h
    obtain ⟨-, -, -, rfl⟩ := h
    rfl
  | renewHarness epoch nonce lease now =>
    simp only [Ledger.body, Ledger.renewHarness, Ledger.withHarness, steps_ok] at h
    obtain ⟨-, -, rfl⟩ := h
    rfl
  | requestHarnessShutdown epoch nonce =>
    simp only [Ledger.body, Ledger.requestHarnessShutdown, Ledger.withHarness, steps_ok] at h
    obtain ⟨-, rfl⟩ := h
    rfl
  | armRefreshFence starts now =>
    simp only [Ledger.body, Ledger.armHarnessRefreshFence, bind_eq_ok, pure_eq_ok] at h
    obtain ⟨-, -, -, -, rfl⟩ := h
    rfl
  | programDecision | programEvent | reconcileStaleDecisions | claimProgramDecision | programActions
  | programEffect => cases hop
  | _ => exact ((Ledger.body_moves h).rest rfl).1

theorem registered_effectsAt {g : ProgramGraph} (h : g.register = .ok P) :
    P.effectsAt key = [] := by
  unfold Program.effectsAt
  cases hm : P.milestones.get? key with
  | none => rfl
  | some m =>
    have hnew : P.AllMilestones fun m => m.effects = [] := .registered (fun _ => rfl) h
    exact hnew key m hm

theorem Settles.body (h : S.Settles) (hrecorded : ∀ a ∈ S.actions, S.Recorded host a)
    (hbody : S.body host op = .ok S') : S'.Settles := by
  have hledger : ∀ {L : Ledger}, S.ledger.SameReceipts L → System.Settles { S with ledger := L } :=
    fun hsame => h.congr rfl (fun _ _ => rfl) hsame
  cases op with
  | ledger op hop =>
    simp only [System.body, bind_eq_ok, pure_eq_ok] at hbody
    obtain ⟨L, hL, rfl⟩ := hbody
    exact hledger (.of_programs (body_programDecisions hop hL))
  | register g =>
    simp only [System.body, registerProgram, bind_eq_ok] at hbody
    obtain ⟨P, hP, hbody⟩ := hbody
    split at hbody
    · rename_i hfresh
      rw [← pure_eq_ok.1 hbody]
      refine h.congr rfl (fun programId key => ?_) fun _ => rfl
      unfold effectsAt
      by_cases hid : programId = g.programId
      · subst hid
        rw [Table.get?_insert_self hfresh, hfresh]
        exact registered_effectsAt hP
      · rw [Table.get?_insert_ne _ hid]
    · simp only [bind_eq_ok, pure_eq_ok] at hbody
      obtain ⟨-, -, -, -, rfl⟩ := hbody
      exact h
  | call programId call now =>
    simp only [System.body, callProgram, bind_eq_ok, program_eq_ok, pure_eq_ok] at hbody
    obtain ⟨P, hP, ⟨P', event⟩, hrun, L, hL, rfl⟩ := hbody
    have hsame : S.ledger.SameReceipts L := by
      cases event with
      | none => exact pure_eq_ok.1 hL ▸ .refl S.ledger
      | some e => exact .ensure hL
    refine h.congr rfl (fun id key => ?_) hsame
    rw [effectsAt_set hP]
    split_ifs with hid
    · rw [hid, effectsAt_of hP]
      exact (Program.run_step hrun).effectsAt Act.noConfusion
    · rfl
  | event event deadline now =>
    simp only [System.body, System.recordEvent, bind_eq_ok, pure_eq_ok] at hbody
    obtain ⟨P, -, L, hL, rfl⟩ := hbody
    exact hledger (.recordEvent hL)
  | reconcileStale now =>
    simp only [System.body, System.reconcileStale, bind_eq_ok, pure_eq_ok] at hbody
    obtain ⟨L, hL, rfl⟩ := hbody
    exact hledger (.reconcileStale hL)
  | claimDecision event request minted now =>
    simp only [System.body, System.claimDecision, bind_eq_ok, pure_eq_ok] at hbody
    obtain ⟨P, -, L, hL, rfl⟩ := hbody
    exact hledger (.claim hL)
  | decide event call now =>
    simp only [System.body, System.decide, bind_eq_ok, pure_eq_ok] at hbody
    obtain ⟨P, -, L, hL, rfl⟩ := hbody
    cases call with
    | acknowledge q => exact h.acknowledge hrecorded hL
    | _ => exact hledger (.onDecision hL fun _ => (by rintro ⟨⟩))
  | submit q now =>
    obtain ⟨rfl, -⟩ | ⟨event, P, P', L, hcommit, rfl⟩ := submit_ok hbody
    · exact h
    · exact h.commit hrecorded hcommit
  | effect actionId effectId state now => exact h.effect hrecorded hbody

theorem Reachable.settles (hS : S.Reachable host) : S.Settles := by
  obtain ⟨ops, rfl⟩ := hS
  have hempty : System.Settles {} :=
    ⟨List.nodup_nil, fun _ _ _ _ _ hmem => (List.not_mem_nil hmem).elim,
      fun _ _ _ _ _ _ hmem => (List.not_mem_nil hmem).elim,
      fun _ hmem => (List.not_mem_nil hmem).elim⟩
  have hexclusive : System.Exclusive host {} :=
    ⟨fun _ hmem => (List.not_mem_nil hmem).elim, List.nodup_nil⟩
  refine (Machine.invariant (I := fun S : System => S.Settles ∧ S.Exclusive host) (fun S op hI => ?_)
    ⟨hempty, hexclusive⟩ ops).1
  refine ⟨?_, hI.2.next op⟩
  obtain hsame | hperform := next_cases host S op
  · rw [hsame]
    exact hI.1
  · exact hI.1.body hI.2.1 (perform_ok.1 hperform).2.1

/-! ### Every committed action -/

/-- `program_action_effect_state`, of a committed action; an effect without an outcome is pending. -/
def programActionEffectState (S : System) (a : CommittedAction) (effectId : String) :
    Option EffectState :=
  (a.bundle.externalEffects.find? (·.1 = effectId)).bind fun effect =>
    (S.milestone? a.event.programId effect.2).bind fun m =>
      Program.effectState m a.actionId effectId

def IsAcknowledged (S : System) (a : CommittedAction) : Prop :=
  (S.receipt? a.event).any (·.acknowledgedAt.isSome)

theorem effectsAt_eq {programId : String} :
    S.effectsAt programId key = (S.milestone? programId key).elim [] (·.effects) := by
  unfold effectsAt milestone? Program.effectsAt
  cases S.programs.get? programId <;> rfl

theorem find?_effect (hcheck : a.bundle.check = .ok ()) {effect : String × String}
    (heffect : effect ∈ a.bundle.externalEffects) :
    a.bundle.externalEffects.find? (·.1 = effect.1) = some effect := by
  simp only [ProgramBundle.check, checks_ok] at hcheck
  obtain ⟨-, -, -, -, hnodup⟩ := hcheck
  cases hfind : a.bundle.externalEffects.find? (·.1 = effect.1) with
  | none =>
    have hnone := List.find?_eq_none.1 hfind effect heffect
    simp at hnone
  | some found =>
    have hid : found.1 = effect.1 := by simpa using List.find?_some hfind
    rw [List.inj_on_of_nodup_map hnodup (List.mem_of_find?_eq_some hfind) heffect hid]

theorem Settles.state_iff (h : S.Settles) (hcheck : a.bundle.check = .ok ()) :
    S.programActionEffectState a effectId = some state ↔
      ∃ target, (effectId, target) ∈ a.bundle.externalEffects ∧
        (a.actionId, effectId, state) ∈ S.effectsAt a.event.programId target := by
  have hread : ∀ {target}, (effectId, target) ∈ a.bundle.externalEffects →
      S.programActionEffectState a effectId = (S.milestone? a.event.programId target).bind fun m =>
        Program.effectState m a.actionId effectId := by
    intro target htarget
    unfold programActionEffectState
    rw [find?_effect hcheck htarget]
    rfl
  constructor
  · intro hstate
    obtain ⟨⟨effectId', target⟩, hfind, hbind⟩ := Option.bind_eq_some_iff.1 hstate
    obtain rfl : effectId' = effectId := by simpa using List.find?_some hfind
    obtain ⟨m, hm, heffect⟩ := Option.bind_eq_some_iff.1 hbind
    refine ⟨target, List.mem_of_find?_eq_some hfind, ?_⟩
    rw [effectsAt_eq, hm]
    exact mem_of_effectState heffect
  · rintro ⟨target, htarget, hmem⟩
    rw [hread htarget]
    cases hm : S.milestone? a.event.programId target with
    | none =>
      rw [effectsAt_eq, hm] at hmem
      exact (List.not_mem_nil hmem).elim
    | some m =>
      have hmem' := hmem
      rw [effectsAt_eq, hm] at hmem'
      rw [Option.bind_some]
      cases hstate : Program.effectState m a.actionId effectId with
      | none => exact absurd hmem' (effectState_eq_none.1 hstate state)
      | some state' =>
        have hother : (a.actionId, effectId, state') ∈ S.effectsAt a.event.programId target := by
          rw [effectsAt_eq, hm]
          exact mem_of_effectState hstate
        rw [h.single _ _ _ _ _ _ hother hmem]

theorem Settles.settled_iff (h : S.Settles) (hcheck : a.bundle.check = .ok ())
    {effect : String × String} (heffect : effect ∈ a.bundle.externalEffects) :
    (S.programActionEffectState a effect.1).isSome ↔ S.Settled a effect := by
  rw [Option.isSome_iff_exists]
  refine exists_congr fun state => (h.state_iff hcheck).trans ?_
  constructor
  · rintro ⟨target, htarget, hmem⟩
    have hfirst := find?_effect hcheck htarget
    have hsame : (effect.1, target) = effect :=
      Option.some.inj (hfirst.symm.trans (find?_effect hcheck heffect))
    have hkey : target = effect.2 := congrArg Prod.snd hsame
    exact hkey ▸ hmem
  · exact fun hmem => ⟨effect.2, heffect, hmem⟩

theorem run_effectsAt (host : Host) (S : System) (ops : List Op) {programId : String}
    {e : String × String × EffectState} (h : e ∈ S.effectsAt programId key) :
    e ∈ (Machine.run (next host) S ops).effectsAt programId key := by
  rw [effectsAt_eq] at h ⊢
  cases hm : S.milestone? programId key with
  | none =>
    rw [hm] at h
    exact (List.not_mem_nil h).elim
  | some m =>
    obtain ⟨P, hP, hm'⟩ := milestone?_eq_some.1 hm
    obtain ⟨P', hP', hcontinues⟩ := run_continues host S ops programId P hP
    obtain ⟨m', hm'', hgrows⟩ := hcontinues.milestones key m hm'
    rw [milestone?_eq_some.2 ⟨P', hP', hm''⟩]
    rw [hm] at h
    exact (hgrows.lifecycle.filterMap _).subset h

theorem Reachable.capable (hS : S.Reachable host) (hP : S.programs.get? id = some P) :
    P.capable := by
  refine System.Reachable.program (I := fun P => P.capable) (fun g P h => ?_)
    (fun P P' call now event hI h => Program.capable_of_continues (Programs.run_continues h) hI)
    (fun P P' queue b now hI h =>
      Program.capable_of_continues (commitActions_continues h).1 hI)
    (fun P P' actionId effectId b state isNew hI h =>
      Program.capable_of_continues (recordActionEffect_continues h) hI) hS hP
  have hgates := h
  simp only [ProgramGraph.register, checks_ok] at hgates
  obtain ⟨-, -, hgates, -⟩ := hgates
  rw [register_ok h]
  unfold Program.capable ProgramGraph.program
  rw [List.all_map]
  exact hgates

theorem Settles.isAcknowledged_iff (h : S.Settles) (ha : a ∈ S.actions) (hr : S.Recorded host a)
    (hne : a.bundle.externalEffects ≠ []) : S.IsAcknowledged a ↔ S.AllSettled a := by
  obtain ⟨o, ho, -⟩ := hr.receipt
  rw [← h.acknowledged a ha hne o ho]
  unfold IsAcknowledged
  rw [ho, Option.any_some]

theorem recordEffect_replay (hS : S.Reachable host) (ha : a ∈ S.actions)
    (hstate : S.programActionEffectState a effectId = some state)
    (hcheck : EffectState.check state' = .ok ())
    (hsame : Program.EffectState.isFailed state = Program.EffectState.isFailed state') :
    S.recordEffect a.actionId effectId state' now = .ok S := by
  have hr := hS.exclusive.1 a ha
  obtain ⟨effect, hfind, hbind⟩ := Option.bind_eq_some_iff.1 hstate
  obtain ⟨m, hm, heffect⟩ := Option.bind_eq_some_iff.1 hbind
  obtain ⟨P, hP, hm⟩ := milestone?_eq_some.1 hm
  have hcapable : P.capable := hS.capable hP
  have hneffects : a.bundle.externalEffects ≠ [] :=
    List.ne_nil_of_mem (List.mem_of_find?_eq_some hfind)
  have hrecorded : P.recordActionEffect a.actionId effectId a.bundle state' = .ok (P, false) := by
    unfold Program.recordActionEffect
    rw [hfind]
    dsimp only
    rw [show P.requireCapability = .ok () from ensure_of hcapable _, ok_bind,
      Program.milestone_eq_ok.2 hm, ok_bind, heffect]
    dsimp only
    rw [ensure_of hsame]
    rfl
  -- Every outcome is there only once the receipt is acknowledged.
  obtain ⟨o, ho, hid, -⟩ := hr.receipt
  obtain ⟨p, hp, houtbox⟩ := Option.bind_eq_some_iff.1 ho
  have hclosed : (p.decision.closeEffects (P.effectsClosed a.actionId a.bundle) now) =
      p.decision := by
    unfold Ledger.ControllerDecision.closeEffects
    refine if_neg ?_
    rw [houtbox, Option.any_some, Bool.and_eq_true]
    rintro ⟨hcloses, hnone⟩
    have hall := ((effectsClosed_iff hP).1 hcloses).2
    have hacknowledged := (hS.settles.acknowledged a ha hneffects o ho).2 hall
    rw [Option.isNone_iff_eq_none.1 hnone] at hacknowledged
    cases hacknowledged
  have hledger : S.ledger.recordProgramEffect a.event
      { failure := none, closes := P.effectsClosed a.actionId a.bundle } P.facts now =
        .ok S.ledger := by
    unfold Ledger.recordProgramEffect
    rw [hp]
    dsimp only
    rw [houtbox, ensure_of (show (some o).isSome = true from rfl), ok_bind,
      show P.facts.requireCapability = .ok () from ensure_of hcapable _, ok_bind]
    have hfail : p.decision.failEffect none now = p.decision := rfl
    rw [hfail, hclosed]
    have hset : S.ledger.programDecisions.set a.event { p with decision := p.decision } =
        S.ledger.programDecisions := Table.set_self hp
    rw [hset]
    rfl
  unfold recordEffect
  rw [hcheck, ok_bind, hS.settles.find ha]
  dsimp only
  rw [program_eq_ok.2 hP, ok_bind, hrecorded, ok_bind]
  dsimp only
  rw [if_neg Bool.false_ne_true, hledger, ok_bind]
  have hprograms : S.programs.set a.event.programId P = S.programs := Table.set_self hP
  unfold setProgram
  rw [hprograms]
  rfl

theorem recordEffect_contradicts (hS : S.Reachable host) (ha : a ∈ S.actions)
    (hstate : S.programActionEffectState a effectId = some state)
    (hdiffer : Program.EffectState.isFailed state ≠ Program.EffectState.isFailed state') :
    S.recordEffect a.actionId effectId state' now ≠ .ok S' := by
  intro hok
  simp only [recordEffect, bind_eq_ok, hS.settles.find ha, program_eq_ok] at hok
  obtain ⟨-, -, P, hP, ⟨P', isNew⟩, hrecorded, -⟩ := hok
  obtain ⟨effect, hfind, hbind⟩ := Option.bind_eq_some_iff.1 hstate
  obtain ⟨m, hm, heffect⟩ := Option.bind_eq_some_iff.1 hbind
  obtain ⟨Q, hQ, hm⟩ := milestone?_eq_some.1 hm
  obtain rfl := Option.some.inj (hQ.symm.trans hP)
  unfold Program.recordActionEffect at hrecorded
  rw [hfind] at hrecorded
  simp only [bind_eq_ok, Program.milestone_eq_ok] at hrecorded
  obtain ⟨-, -, m', hm', hrecorded⟩ := hrecorded
  obtain rfl := Option.some.inj (hm.symm.trans hm')
  rw [heffect] at hrecorded
  simp only [checks_ok] at hrecorded
  exact hdiffer hrecorded.1

theorem next_actions (host : Host) (S : System) (op : Op) (ha : a ∈ S.actions) :
    a ∈ (S.next host op).actions := by
  have hmoves := next_moves host S op
  generalize S.next host op = S' at hmoves ⊢
  cases hmoves with
  | commits => exact List.mem_append_left _ ha
  | ledger | registers | calls | effects => exact ha

theorem Reachable.run (hS : S.Reachable host) (ops : List Op) :
    Reachable host (Machine.run (next host) S ops) := by
  obtain ⟨before, rfl⟩ := hS
  exact ⟨before ++ ops, (Machine.run_append _ _ _ _).symm⟩

theorem next_of_perform (h : S.perform host op = .ok S') : S.next host op = S' := by
  unfold next
  rw [h]
  rfl

/-- The outcome that a call records is read from then on. -/
theorem Reachable.perform_effect (hS : S.Reachable host) (ha : a ∈ S.actions)
    (h : S.perform host (.effect a.actionId effectId state now) = .ok S') :
    (S'.programActionEffectState a effectId).map Program.EffectState.isFailed =
      some (Program.EffectState.isFailed state) := by
  have hbody : S.recordEffect a.actionId effectId state now = .ok S' := (perform_ok.1 h).2.1
  have hS' : S'.Reachable host := next_of_perform h ▸ hS.run [.effect a.actionId effectId state now]
  cases hstate : S.programActionEffectState a effectId with
  | some existing =>
    have hsame : Program.EffectState.isFailed existing = Program.EffectState.isFailed state := by
      by_contra hdiffer
      exact recordEffect_contradicts hS ha hstate hdiffer hbody
    have hcheck : EffectState.check state = .ok () := by
      obtain ⟨u, hu, -⟩ := bind_eq_ok.1 hbody
      exact hu
    have hreplay : S.recordEffect a.actionId effectId state now = .ok S :=
      recordEffect_replay hS ha hstate hcheck hsame
    rw [hbody] at hreplay
    obtain rfl := Except.ok.inj hreplay
    rw [hstate, Option.map_some, hsame]
  | none =>
    simp only [recordEffect, bind_eq_ok, hS.settles.find ha, program_eq_ok, pure_eq_ok] at hbody
    obtain ⟨-, -, P, hP, ⟨P', isNew⟩, hrecorded, L, -, rfl⟩ := hbody
    obtain ⟨⟨effectId', target⟩, m, hfind, hm, hcases⟩ :=
      Program.recordActionEffect_cases hrecorded
    obtain rfl : effectId' = effectId := by simpa using List.find?_some hfind
    obtain ⟨-, -, existing, hexisting⟩ | ⟨-, -, hset⟩ := hcases
    · -- An outcome that the journal has would have been read.
      unfold programActionEffectState at hstate
      rw [hfind, Option.bind_some, milestone?_eq_some.2 ⟨P, hP, hm⟩, Option.bind_some,
        hexisting] at hstate
      cases hstate
    · have hr := hS'.exclusive.1 a ha
      have hread : programActionEffectState _ a effectId' = some state :=
        (hS'.settles.state_iff hr.check).2 ⟨target, List.mem_of_find?_eq_some hfind, by
          rw [effectsAt_set hP, if_pos rfl,
            Program.effectsAt_of (hset ▸ Table.get?_set_self hm _)]
          exact List.mem_filterMap.2 ⟨_, Journal.mem_record.2 (.inr rfl), rfl⟩⟩
      rw [hread, Option.map_some]

/-- An effect of a committed action has at most one outcome, which stays; the receipt of the action
is acknowledged with the last of them, and a recorded outcome is answered without a change. -/
theorem effects_settle_once (hS : S.Reachable host) (ha : a ∈ S.actions) :
    (∀ effectId state ops, S.programActionEffectState a effectId = some state →
      (Machine.run (next host) S ops).programActionEffectState a effectId = some state) ∧
    (∀ key effectId state state',
      (a.actionId, effectId, state) ∈ S.effectsAt a.event.programId key →
      (a.actionId, effectId, state') ∈ S.effectsAt a.event.programId key → state = state') ∧
    (a.bundle.externalEffects ≠ [] → (S.IsAcknowledged a ↔
      ∀ effect ∈ a.bundle.externalEffects, (S.programActionEffectState a effect.1).isSome)) ∧
    (∀ effectId state now S', S.perform host (.effect a.actionId effectId state now) = .ok S' →
      (S'.programActionEffectState a effectId).map Program.EffectState.isFailed =
        some (Program.EffectState.isFailed state) ∧
      ((∀ effect ∈ a.bundle.externalEffects, (S'.programActionEffectState a effect.1).isSome) →
        S'.IsAcknowledged a)) ∧
    ∀ effectId state state' now, S.programActionEffectState a effectId = some state →
      (Program.EffectState.isFailed state = Program.EffectState.isFailed state' →
        EffectState.check state' = .ok () →
          S.perform host (.effect a.actionId effectId state' now) = .ok S) ∧
      (Program.EffectState.isFailed state ≠ Program.EffectState.isFailed state' →
        S.next host (.effect a.actionId effectId state' now) = S) := by
  have hread : ∀ {S : System}, S.Reachable host → a ∈ S.actions →
      a.bundle.externalEffects ≠ [] → (S.IsAcknowledged a ↔
        ∀ effect ∈ a.bundle.externalEffects, (S.programActionEffectState a effect.1).isSome) := by
    intro S hS ha hne
    have hr := hS.exclusive.1 a ha
    rw [hS.settles.isAcknowledged_iff ha hr hne]
    exact forall₂_congr fun effect heffect => (hS.settles.settled_iff hr.check heffect).symm
  have hr := hS.exclusive.1 a ha
  refine ⟨fun effectId state ops hstate => ?_, fun key effectId state state' hmem hmem' =>
    hS.settles.single _ key _ effectId state state' hmem hmem', fun hne => hread hS ha hne,
    fun effectId state now S' h => ⟨hS.perform_effect ha h, fun hall => ?_⟩,
    fun effectId state state' now hstate => ⟨fun hsame hcheck => ?_, fun hdiffer => ?_⟩⟩
  · obtain ⟨target, htarget, hmem⟩ := (hS.settles.state_iff hr.check).1 hstate
    exact ((hS.run ops).settles.state_iff hr.check).2
      ⟨target, htarget, run_effectsAt host S ops hmem⟩
  · have hstep : S'.Reachable host :=
      next_of_perform h ▸ hS.run [.effect a.actionId effectId state now]
    have ha' : a ∈ S'.actions := next_of_perform h ▸ next_actions host S _ ha
    have hne : a.bundle.externalEffects ≠ [] := by
      intro hnil
      have hrecorded := hS.perform_effect ha h
      unfold programActionEffectState at hrecorded
      rw [hnil] at hrecorded
      cases hrecorded
    exact (hread hstep ha' hne).2 hall
  · exact perform_ok.2 ⟨hS.ledger_valid, recordEffect_replay hS ha hstate hcheck hsame,
      hS.ledger_valid⟩
  · obtain hstays | h := next_cases host S (.effect a.actionId effectId state' now)
    · exact hstays
    · exact absurd (perform_ok.1 h).2.1 (recordEffect_contradicts hS ha hstate hdiffer)

end System

def startBundle : ProgramBundle :=
  sampleBundle startEvent 1 sampleTrunk [.startReadyMilestones ["m1"]] "first"

def startAction : CommittedAction where
  actionId := startBundle.actionId Host.sample
  event := startEvent
  bundle := startBundle

def settledRun : List Op :=
  [.register (sampleGraph .git), .call "run" (.start "start") 1, claimed startEvent 2,
    submitted startBundle 3, .effect startAction.actionId "start:m1" .applied 4]

theorem settledRun_settles :
    let S := Machine.run (System.next Host.sample) {} settledRun
    S.programActionEffectState startAction "start:m1" = some .applied ∧
      S.IsAcknowledged startAction ∧
      (S.perform Host.sample (.effect startAction.actionId "start:m1" .applied 5)) = .ok S := by
  have hmem : startAction ∈ (Machine.run (System.next Host.sample) {} settledRun).actions := by
    decide
  have hstate : (Machine.run (System.next Host.sample) {} settledRun).programActionEffectState
      startAction "start:m1" = some .applied := by decide
  have heffects : startAction.bundle.externalEffects = [("start:m1", "m1")] := by decide
  obtain ⟨-, -, hacknowledged, -, hreplay⟩ :=
    System.effects_settle_once ⟨settledRun, rfl⟩ hmem
  refine ⟨hstate, (hacknowledged (by rw [heffects]; exact List.cons_ne_nil _ _)).2 ?_,
    (hreplay "start:m1" .applied .applied 5 hstate).1 rfl rfl⟩
  intro effect heffect
  rw [heffects, List.mem_singleton] at heffect
  rw [heffect, hstate]
  rfl

end Programs

end CodexFlow
