import CodexFlow.Ledger.DecisionRuns

/-!
# The history of a decision

The decisions of programs take the same steps, and what every step keeps holds of each decision in
every ledger that a run builds.
-/

namespace CodexFlow.Ledger

open Checked DecisionRows DispatchRows

variable {env : Env} {L L' L'' : Ledger} {op : Op} {mints : String → Prop}
  {event : ProgramEvent} {f : ProgramFacts} {d : ControllerDecision} {now : Time}

/-! ### Program decisions -/

structure ProgramOpens (L L' : Ledger) : Prop where
  kept : ∀ event P, L.programDecisions.get? event = some P →
    L'.programDecisions.get? event = some P
  fresh : ∀ event P, L.programDecisions.get? event = none →
    L'.programDecisions.get? event = some P → DecisionRows.Fresh ⟨P.decision, none⟩

theorem ProgramOpens.refl (L : Ledger) : ProgramOpens L L where
  kept := fun _ _ h => h
  fresh := fun _ P hnone h => absurd (h.symm.trans hnone) (Option.some_ne_none P)

theorem ProgramOpens.trans (h : ProgramOpens L L') (h' : ProgramOpens L' L'') :
    ProgramOpens L L'' where
  kept := fun event P hP => h'.kept event P (h.kept event P hP)
  fresh := by
    intro event P hnone hP
    cases hmid : L'.programDecisions.get? event with
    | none => exact h'.fresh event P hmid hP
    | some P' =>
      obtain rfl := Option.some.inj (hP.symm.trans (h'.kept event P' hmid))
      exact h.fresh event P hnone hmid

theorem facts_fresh (f : ProgramFacts) (deadline now : Time) :
    DecisionRows.Fresh ⟨(f.decision deadline now).decision, none⟩ where
  state := by
    show ControllerDecisionState.awaitingClaim ∈ _
    decide
  revision := rfl
  earlier := rfl
  generation := rfl
  claimant := rfl
  action := rfl
  outbox := rfl
  acknowledged := rfl
  superseded := rfl
  budget := rfl
  unused := rfl
  wake := fun _ h => nomatch h

theorem ensureProgramDecision_opens {deadline : Option Time}
    (h : L.ensureProgramDecision event f deadline now = .ok L') : ProgramOpens L L' := by
  simp only [ensureProgramDecision, checks_ok] at h
  obtain ⟨-, -, -, h⟩ := h
  split at h
  · exact pure_eq_ok.1 h ▸ .refl L
  rename_i hnew
  simp only [steps_ok] at h
  obtain ⟨-, rfl⟩ := h
  constructor
  · intro e P hP
    have he : e ≠ event := by
      rintro rfl
      exact Option.some_ne_none P (hP.symm.trans hnew)
    exact (Table.get?_insert_ne _ he _).trans hP
  · intro e P hnone hP
    by_cases he : e = event
    · subst he
      obtain rfl := Option.some.inj (hP.symm.trans (Table.get?_insert_self hnew _))
      exact facts_fresh f _ now
    · rw [Table.get?_insert_ne _ he, hnone] at hP
      cases hP

theorem openCoalesced_opens {facts : String → ProgramFacts} {programs : List String}
    (h : openCoalesced facts now programs L = .ok L') : ProgramOpens L L' := by
  induction programs generalizing L with
  | nil => exact pure_eq_ok.1 h ▸ .refl L
  | cons programId programs ih =>
    simp only [openCoalesced, bind_eq_ok] at h
    obtain ⟨L₁, hfirst, hrest⟩ := h
    exact (ensureProgramDecision_opens hfirst).trans (ih hrest)

/-- Every decision of a program takes a step, and new ones are fresh. -/
structure ProgramMoves (mints : String → Prop) (L L' : Ledger) : Prop where
  steps : ∀ event P, L.programDecisions.get? event = some P →
    ∃ P', L'.programDecisions.get? event = some P' ∧
      P.decision.Step mints (.program event) P'.decision
  fresh : ∀ event P, L.programDecisions.get? event = none →
    L'.programDecisions.get? event = some P → DecisionRows.Fresh ⟨P.decision, none⟩

namespace ProgramMoves

theorem of_opens (h : ProgramOpens L L') : ProgramMoves mints L L' where
  steps := fun _ P hP => ⟨P, h.kept _ P hP, .stay⟩
  fresh := h.fresh

theorem of_programs (h : L'.programDecisions = L.programDecisions) : ProgramMoves mints L L' where
  steps := fun _ P hP => ⟨P, h ▸ hP, .stay⟩
  fresh := fun _ P hnone hP => absurd (hP.symm.trans (h ▸ hnone)) (Option.some_ne_none P)

theorem opens (h : ProgramMoves mints L L') (h' : ProgramOpens L' L'') :
    ProgramMoves mints L L'' where
  steps := by
    intro event P hP
    obtain ⟨P', hP', hstep⟩ := h.steps event P hP
    exact ⟨P', h'.kept event P' hP', hstep⟩
  fresh := by
    intro event P hnone hP
    cases hmid : L'.programDecisions.get? event with
    | none => exact h'.fresh event P hmid hP
    | some P' =>
      obtain rfl := Option.some.inj (hP.symm.trans (h'.kept event P' hmid))
      exact h.fresh event P hnone hmid

theorem of_map {g : ProgramEvent → ProgramDecision → ProgramDecision}
    (h : L'.programDecisions = L.programDecisions.map g)
    (hstep : ∀ event (P : ProgramDecision),
      P.decision.Step mints (.program event) (g event P).decision) :
    ProgramMoves mints L L' where
  steps := by
    rw [h]
    exact fun event P hP => ⟨g event P, by simp [Table.get?_map, hP], hstep event P⟩
  fresh := by
    rw [h]
    intro event P hnone hP
    rw [Table.get?_map, hnone] at hP
    cases hP

theorem of_set {P P' : ProgramDecision} (hP : L.programDecisions.get? event = some P)
    (h : L'.programDecisions = L.programDecisions.set event P')
    (hstep : P.decision.Step mints (.program event) P'.decision) : ProgramMoves mints L L' where
  steps := by
    rw [h]
    intro e Q hQ
    by_cases he : e = event
    · subst he
      obtain rfl := Option.some.inj (hP.symm.trans hQ)
      exact ⟨P', Table.get?_set_self hP P', hstep⟩
    · exact ⟨Q, (Table.get?_set_ne _ he _).trans hQ, .stay⟩
  fresh := by
    rw [h]
    intro e Q hnone hQ
    have he : e ≠ event := by
      rintro rfl
      exact Option.some_ne_none P (hP.symm.trans hnone)
    rw [Table.get?_set_ne _ he, hnone] at hQ
    cases hQ

end ProgramMoves

theorem supersedeIf_step {P : ProgramDecision} {decisionId : DecisionKey} (c : Bool) :
    P.decision.Step mints decisionId (P.supersedeIf c now).decision := by
  unfold ProgramDecision.supersedeIf
  split_ifs
  · exact ControllerDecision.supersedeOpen_step
  · exact .stay

theorem coalesceCheckpoint_programs {programId : String} :
    (L.coalesceCheckpoint programId f now).programDecisions =
      L.programDecisions.map fun event p =>
        p.supersedeIf (event.programId = programId && p.programRevision = f.programRevision &&
          p.decision.generation.inspectionOutcome = some .active) now :=
  rfl

theorem onProgramDecision_programs {capable : Bool} {call : DecisionOp}
    (h : L.onProgramDecision env event capable call now = .ok L') :
    ProgramMoves (call.mints env) L L' := by
  simp only [onProgramDecision, bind_eq_ok] at h
  obtain ⟨-, -, h⟩ := h
  split at h
  · cases h
  rename_i P hP
  simp only [bind_eq_ok, pure_eq_ok] at h
  obtain ⟨-, -, p, hrun, rfl⟩ := h
  exact .of_set hP rfl (run_step hrun).decision

theorem recordProgramEvent_programs {deadline : Option Time}
    (h : L.recordProgramEvent event f deadline now = .ok L') : ProgramMoves mints L L' := by
  simp only [recordProgramEvent, bind_eq_ok] at h
  obtain ⟨-, -, h⟩ := h
  split_ifs at h
  · exact (ProgramMoves.of_map coalesceCheckpoint_programs fun _ _ => supersedeIf_step _).opens
      (ensureProgramDecision_opens h)
  · exact .of_opens (ensureProgramDecision_opens h)

theorem reconcileStaleDecisions_programs {facts : String → ProgramFacts} {isOpen : String → Bool}
    (h : L.reconcileStaleDecisions facts isOpen now = .ok L') : ProgramMoves mints L L' := by
  simp only [reconcileStaleDecisions, bind_eq_ok] at h
  obtain ⟨-, -, h⟩ := h
  exact (ProgramMoves.of_map
    (g := fun event p => p.supersedeIf (p.isStale (facts event.programId)) now) rfl
    fun _ _ => supersedeIf_step _).opens (openCoalesced_opens h)

theorem claimProgramDecision_programs {q : ClaimRequest} {minted : String}
    (h : L.claimProgramDecision env event q f minted now = .ok L') :
    ProgramMoves (fun digest => env.sha256 minted = digest) L L' := by
  simp only [claimProgramDecision, checks_ok] at h
  obtain ⟨-, h⟩ := h
  split at h
  · cases h
  rename_i P hP
  simp only [steps_ok] at h
  obtain ⟨-, -, -, -, -, hstate, -, -, digest, hdigest, rfl⟩ := h
  obtain rfl := claimTokenHash_eq hdigest
  have hopen : P.decision.isClosed = false := by
    simp [ControllerDecision.isClosed, hstate]
  exact .of_set hP rfl (.take _ _ _ P.decision.humanAttentionReason now rfl hopen
    (.inr ⟨rfl, hstate⟩) (.inl rfl))

theorem ProgramSubmitRequest.authorize_state {q : ProgramSubmitRequest} {P : ProgramDecision}
    (h : q.authorize env event f P = .ok ()) : P.decision.state ∈ [.awaitingClaim, .claimed] := by
  simp only [ProgramSubmitRequest.authorize, checks_ok] at h
  obtain ⟨-, h⟩ := h
  split_ifs at h
  · simp only [checks_ok] at h
    generalize P.decision.state = state at h ⊢
    revert h
    cases state <;> simp
  · simp only [checks_ok] at h
    rw [h.1]
    decide

theorem submitProgramActions_programs {q : ProgramSubmitRequest} {effects : Checked Unit}
    (h : L.submitProgramActions env event q f effects now = .ok L') :
    ProgramMoves mints L L' := by
  simp only [submitProgramActions, bind_eq_ok] at h
  obtain ⟨-, -, -, -, h⟩ := h
  split at h
  · cases h
  rename_i P hP
  simp only [bind_eq_ok] at h
  obtain ⟨-, -, -, -, h⟩ := h
  split at h
  · simp only [bind_eq_ok, pure_eq_ok] at h
    obtain ⟨-, -, -, -, rfl⟩ := h
    exact .of_opens (.refl L)
  rename_i houtbox
  simp only [bind_eq_ok] at h
  obtain ⟨⟨⟩, hauthorized, -, -, h⟩ := h
  split at h
  · cases h
  rename_i c hc
  simp only [bind_eq_ok, pure_eq_ok] at h
  obtain ⟨-, -, rfl⟩ := h
  exact .of_set hP rfl (.commit P.decision.supersededAt _ _ _ P.decision.humanAttentionReason now
    (ProgramSubmitRequest.authorize_state hauthorized) (by decide) houtbox (by rw [hc]; rfl))

theorem effect_step {failure : Option String} {closes : Bool} {decisionId : DecisionKey}
    (houtbox : d.outbox.isSome) :
    d.Step mints decisionId ((d.failEffect failure now).closeEffects closes now) := by
  unfold ControllerDecision.failEffect
  split_ifs with hfail
  · simp only [Bool.and_eq_true, decide_eq_true_eq] at hfail
    unfold ControllerDecision.closeEffects
    split_ifs
    · exact .acknowledge _ failure now (.inr ⟨hfail.2, rfl⟩) houtbox
    · exact .fail failure now hfail.2
  · unfold ControllerDecision.closeEffects
    split_ifs
    · exact .acknowledge d none now (.inl rfl) houtbox
    · exact .stay

theorem recordProgramEffect_programs {q : EffectOutcome}
    (h : L.recordProgramEffect event q f now = .ok L') : ProgramMoves mints L L' := by
  unfold recordProgramEffect at h
  split at h
  · cases h
  rename_i P hP
  simp only [checks_ok] at h
  obtain ⟨houtbox, -, -, h⟩ := h
  split_ifs at h
  · exact (ProgramMoves.of_set hP rfl (effect_step houtbox)).opens (ensureProgramDecision_opens h)
  · exact pure_eq_ok.1 h ▸ .of_set hP rfl (effect_step houtbox)

theorem body_programs (h : L.body env op = .ok L') : ProgramMoves (op.mints env) L L' := by
  cases op with
  | acquireHarness nonce lease now =>
    simp only [body, acquireHarness, steps_ok] at h
    obtain ⟨-, -, -, rfl⟩ := h
    exact .of_programs rfl
  | renewHarness epoch nonce lease now =>
    simp only [body, renewHarness, withHarness, steps_ok] at h
    obtain ⟨-, -, rfl⟩ := h
    exact .of_programs rfl
  | requestHarnessShutdown epoch nonce =>
    simp only [body, requestHarnessShutdown, withHarness, steps_ok] at h
    obtain ⟨-, rfl⟩ := h
    exact .of_programs rfl
  | armRefreshFence starts now =>
    simp only [body, armHarnessRefreshFence, bind_eq_ok, pure_eq_ok] at h
    obtain ⟨-, -, -, -, rfl⟩ := h
    exact .of_programs rfl
  | programDecision event capable call now => exact onProgramDecision_programs h
  | programEvent event f deadline now => exact recordProgramEvent_programs h
  | reconcileStaleDecisions facts isOpen now => exact reconcileStaleDecisions_programs h
  | claimProgramDecision event q f minted now => exact claimProgramDecision_programs h
  | programActions event q f effects now => exact submitProgramActions_programs h
  | programEffect event q f now => exact recordProgramEffect_programs h
  | _ => exact .of_programs ((body_moves h).rest rfl).1

/-! ### Every decision -/

def pairAt (L : Ledger) : DecisionKey → Option DecisionRows
  | .dispatch dispatchId kind cycle => (L.dispatches.get? dispatchId).bind (·.pair? kind cycle)
  | .program event => (L.programDecisions.get? event).map fun P => ⟨P.decision, none⟩

variable {key : DecisionKey} {p p' : DecisionRows}

theorem pairAt_decision : (L.pairAt key).map (·.decision) = L.decisionAt key := by
  cases key with
  | dispatch dispatchId kind cycle =>
    cases hr : L.dispatches.get? dispatchId with
    | none => simp [pairAt, decisionAt, hr]
    | some r => simp [pairAt, decisionAt, hr, DispatchRows.pair?, Function.comp_def]
  | program event => simp [pairAt, decisionAt, Function.comp_def]

theorem pairAt_of_decisionAt (h : L.decisionAt key = some d) :
    ∃ wake, L.pairAt key = some ⟨d, wake⟩ := by
  rw [← pairAt_decision] at h
  obtain ⟨⟨d', wake⟩, hp, rfl⟩ := Option.map_eq_some_iff.1 h
  exact ⟨wake, hp⟩

theorem decisionAt_of_pairAt (h : L.pairAt key = some p) : L.decisionAt key = some p.decision := by
  rw [← pairAt_decision, h]
  rfl

theorem next_pair (env : Env) (op : Op) (hp : L.pairAt key = some p) :
    ∃ p', (L.next env op).pairAt key = some p' ∧ p.Step (op.mints env) key p' := by
  obtain hsame | ⟨-, hbody, -⟩ := next_cases env L op
  · exact ⟨p, by rw [hsame, hp], .of_wakes .stay rfl fun _ hw _ => hw⟩
  cases key with
  | dispatch dispatchId kind cycle =>
    obtain ⟨r, hr, hp⟩ := Option.bind_eq_some_iff.1 hp
    obtain ⟨r', hr', hmoves⟩ := (body_moves hbody).rows dispatchId r hr
    obtain ⟨p', hp', hstep⟩ := hmoves.pair hp
    exact ⟨p', by simp [pairAt, hr', hp'], hstep⟩
  | program event =>
    obtain ⟨P, hP, rfl⟩ := Option.map_eq_some_iff.1 hp
    obtain ⟨P', hP', hstep⟩ := (body_programs hbody).steps event P hP
    exact ⟨⟨P'.decision, none⟩, by simp [pairAt, hP'], hstep, fun w hw => (by cases hw)⟩

theorem DispatchRows.WakesValid.decision? {r : DispatchRows} {kind : WakeKind} {cycle : ℕ}
    (h : r.WakesValid) (hnone : r.decision? kind cycle = none) : r.wake? kind cycle = none := by
  by_contra hwake
  obtain ⟨w, hw⟩ := Option.ne_none_iff_exists'.1 hwake
  obtain ⟨hmem, hkind, hcycle⟩ := wake?_spec hw
  obtain ⟨-, ⟨d, hd, hdkind, hdcycle⟩, -⟩ := h.1 w hmem
  refine List.find?_eq_none.1 hnone d hd ?_
  simp [hdkind, hdcycle, hkind, hcycle]

theorem next_pair_fresh (hL : L.Valid env) (op : Op) (hnone : L.pairAt key = none)
    (hp : (L.next env op).pairAt key = some p) : p.Fresh := by
  obtain hsame | ⟨-, hbody, -⟩ := next_cases env L op
  · rw [hsame, hnone] at hp
    cases hp
  cases key with
  | dispatch dispatchId kind cycle =>
    obtain ⟨r', hr', hp⟩ := Option.bind_eq_some_iff.1 hp
    cases hr : L.dispatches.get? dispatchId with
    | none =>
      obtain ⟨q, sequence, now, rfl⟩ := next_new op hr hr'
      cases hp
    | some r =>
      obtain ⟨s, hs, hmoves⟩ := (body_moves hbody).rows dispatchId r hr
      obtain rfl := Option.some.inj (hs.symm.trans hr')
      have hgone : r.decision? kind cycle = none := by
        rw [← pair?_eq_none]
        simpa [pairAt, hr] using hnone
      exact hmoves.fresh hgone ((hL.rows hr).wakes.decision? hgone) hp
  | program event =>
    obtain ⟨P, hP, rfl⟩ := Option.map_eq_some_iff.1 hp
    exact (body_programs hbody).fresh event P (Option.map_eq_none_iff.1 hnone) hP

/-! ### Runs -/

/-- What fresh decisions have and steps keep holds of every decision; a step may use that the rows
were valid before it and after it. -/
theorem run_pair {I : DecisionRows → Prop} {ops : List Op}
    (hfresh : ∀ p, p.Fresh → I p)
    (hstep : ∀ (L : Ledger) op p p', L.Valid env → (L.next env op).Valid env → L.pairAt key = some p →
      (L.next env op).pairAt key = some p' → p.Step (op.mints env) key p' → I p → I p')
    (hL : L.Valid env) (hI : ∀ p, L.pairAt key = some p → I p) :
    ∀ p, (Machine.run (next env) L ops).pairAt key = some p → I p := by
  refine (@Machine.invariant _ _ (next env)
    (fun L => L.Valid env ∧ ∀ p, L.pairAt key = some p → I p) ?_ _ ⟨hL, hI⟩ ops).2
  rintro L op ⟨hL, hI⟩
  refine ⟨next_valid hL op, fun p' hp' => ?_⟩
  cases hp : L.pairAt key with
  | none => exact hfresh p' (next_pair_fresh hL op hp hp')
  | some p =>
    obtain ⟨q, hq, hsteps⟩ := next_pair env op hp
    obtain rfl := Option.some.inj (hq.symm.trans hp')
    exact hstep L op p q hL (next_valid hL op) hp hq hsteps (hI p hp)

theorem Reachable.pair {I : DecisionRows → Prop} (h : L.Reachable env)
    (hfresh : ∀ p, p.Fresh → I p)
    (hstep : ∀ (L : Ledger) op p p', L.Valid env → (L.next env op).Valid env → L.pairAt key = some p →
      (L.next env op).pairAt key = some p' → p.Step (op.mints env) key p' → I p → I p')
    (hp : L.pairAt key = some p) : I p := by
  obtain ⟨ops, rfl⟩ := h
  refine run_pair hfresh hstep (good_empty env).to_valid (fun p hp => ?_) p hp
  cases key <;> cases hp

end CodexFlow.Ledger
