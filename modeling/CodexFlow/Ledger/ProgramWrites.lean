import CodexFlow.Ledger.DecisionFacts

/-!
# Program decisions, call by call

What a call writes to a decision of a program, and what it leaves for a later claim: which
generation waits for its launch, that an open decision has no action, and that every generation that
was replaced is lost.
-/

namespace CodexFlow.Ledger

open Checked DecisionRows

variable {env : Env} {L L' L'' : Ledger} {op : Op} {event : ProgramEvent} {f : ProgramFacts}
  {d d' : ControllerDecision} {p p' : DecisionRows} {now : Time}

/-! ### What is written -/

inductive ProgramWrites (env : Env) (op : Op) (event : ProgramEvent) (d : ControllerDecision) :
    ControllerDecision → Prop
  | stay : ProgramWrites env op event d d
  | calls (capable : Bool) (call : DecisionOp) (now : Time) (context : DecisionContext)
      (p' : DecisionRows) (hop : op = .programDecision event capable call now)
      (hprogram : context.decisionId = .program event) (hcheck : call.check env now = .ok ())
      (hrun : call.run env context now ⟨d, none⟩ = .ok p') :
    ProgramWrites env op event d p'.decision
  | supersedes (now : Time) : ProgramWrites env op event d (d.supersedeOpen now)
  | claims (q : ClaimRequest) (f : ProgramFacts) (minted : String) (now : Time)
      (hop : op = .claimProgramDecision event q f minted now) (hstate : d.state = .awaitingClaim) :
    ProgramWrites env op event d { d with
      state := .claimed, revision := d.revision + 1, generationUsed := d.generationUsed + 1
      claimant := some ⟨q.claimantKind, q.claimantId, env.sha256 minted, now⟩
      claimLeaseExpiresAt := some (now + q.lease), updatedAt := now }
  | commits (q : ProgramSubmitRequest) (c : Claimant) (now : Time) :
    ProgramWrites env op event d (q.committed env c now d)
  | effects (failure : Option String) (closes : Bool) (now : Time) :
    ProgramWrites env op event d ((d.failEffect failure now).closeEffects closes now)

def ProgramWritten (env : Env) (op : Op) (L L' : Ledger) : Prop :=
  ∀ event P, L.programDecisions.get? event = some P → ∃ P', L'.programDecisions.get? event = some P' ∧
    ProgramWrites env op event P.decision P'.decision

namespace ProgramWritten

theorem of_opens (h : ProgramOpens L L') : ProgramWritten env op L L' :=
  fun _ P hP => ⟨P, h.kept _ P hP, .stay⟩

theorem opens (h : ProgramWritten env op L L') (h' : ProgramOpens L' L'') :
    ProgramWritten env op L L'' := by
  intro event P hP
  obtain ⟨P', hP', hwrites⟩ := h event P hP
  exact ⟨P', h'.kept event P' hP', hwrites⟩

theorem of_set {P P' : ProgramDecision} (hP : L.programDecisions.get? event = some P)
    (h : L'.programDecisions = L.programDecisions.set event P')
    (hwrites : ProgramWrites env op event P.decision P'.decision) : ProgramWritten env op L L' := by
  rw [ProgramWritten, h]
  intro e Q hQ
  by_cases he : e = event
  · subst he
    obtain rfl := Option.some.inj (hP.symm.trans hQ)
    exact ⟨P', Table.get?_set_self hP P', hwrites⟩
  · exact ⟨Q, (Table.get?_set_ne _ he _).trans hQ, .stay⟩

theorem of_programs (h : L'.programDecisions = L.programDecisions) :
    ProgramWritten env op L L' :=
  fun _ P hP => ⟨P, h ▸ hP, .stay⟩

theorem of_map (c : ProgramEvent → ProgramDecision → Bool)
    (h : L'.programDecisions =
      L.programDecisions.map fun event P => P.supersedeIf (c event P) now) :
    ProgramWritten env op L L' := by
  rw [ProgramWritten, h]
  intro e P hP
  refine ⟨P.supersedeIf (c e P) now, by rw [Table.get?_map, hP]; rfl, ?_⟩
  unfold ProgramDecision.supersedeIf
  split_ifs
  · exact .supersedes now
  · exact .stay

end ProgramWritten

theorem body_written (h : L.body env op = .ok L') : ProgramWritten env op L L' := by
  cases op with
  | acquireHarness nonce lease now =>
    simp only [body, acquireHarness, steps_ok] at h
    obtain ⟨-, -, -, rfl⟩ := h
    exact .of_programs rfl
  | renewHarness epoch nonce lease now =>
    simp only [body, renewHarness, withHarness, steps_ok] at h
    obtain ⟨-, -, rfl⟩ := h
    exact .of_programs rfl
  | requestHarnessShutdown epoch nonce =>
    simp only [body, requestHarnessShutdown, withHarness, steps_ok] at h
    obtain ⟨-, rfl⟩ := h
    exact .of_programs rfl
  | armRefreshFence starts now =>
    simp only [body, armHarnessRefreshFence, bind_eq_ok, pure_eq_ok] at h
    obtain ⟨-, -, -, -, rfl⟩ := h
    exact .of_programs rfl
  | programDecision event capable call now =>
    simp only [body, onProgramDecision, bind_eq_ok] at h
    obtain ⟨⟨⟩, hcheck, h⟩ := h
    split at h
    · cases h
    rename_i P hP
    simp only [bind_eq_ok, pure_eq_ok] at h
    obtain ⟨-, -, p, hrun, rfl⟩ := h
    exact .of_set hP rfl (.calls capable call now _ p rfl rfl hcheck hrun)
  | programEvent event f deadline now =>
    simp only [body, recordProgramEvent, bind_eq_ok] at h
    obtain ⟨-, -, h⟩ := h
    split_ifs at h
    · exact (ProgramWritten.of_map _ coalesceCheckpoint_programs).opens
        (ensureProgramDecision_opens h)
    · exact .of_opens (ensureProgramDecision_opens h)
  | reconcileStaleDecisions facts isOpen now =>
    simp only [body, reconcileStaleDecisions, bind_eq_ok] at h
    obtain ⟨-, -, h⟩ := h
    exact ProgramWritten.opens (.of_map (fun event p => p.isStale (facts event.programId)) rfl)
      (openCoalesced_opens h)
  | claimProgramDecision event q f minted now =>
    simp only [body, claimProgramDecision, checks_ok] at h
    obtain ⟨-, h⟩ := h
    split at h
    · cases h
    rename_i P hP
    simp only [steps_ok] at h
    obtain ⟨-, -, -, -, -, hstate, -, -, digest, hdigest, rfl⟩ := h
    obtain rfl := claimTokenHash_eq hdigest
    exact .of_set hP rfl (.claims q f minted now rfl hstate)
  | programActions event q f effects now =>
    simp only [body, submitProgramActions, bind_eq_ok] at h
    obtain ⟨-, -, -, -, h⟩ := h
    split at h
    · cases h
    rename_i P hP
    simp only [bind_eq_ok] at h
    obtain ⟨-, -, -, -, h⟩ := h
    split at h
    · simp only [bind_eq_ok, pure_eq_ok] at h
      obtain ⟨-, -, -, -, rfl⟩ := h
      exact .of_opens (.refl L)
    simp only [bind_eq_ok] at h
    obtain ⟨-, -, -, -, h⟩ := h
    split at h
    · cases h
    rename_i c hc
    simp only [bind_eq_ok, pure_eq_ok] at h
    obtain ⟨-, -, rfl⟩ := h
    exact .of_set hP rfl (.commits q c now)
  | programEffect event q f now =>
    simp only [body, recordProgramEffect] at h
    split at h
    · cases h
    rename_i P hP
    simp only [checks_ok] at h
    obtain ⟨-, -, -, h⟩ := h
    split_ifs at h
    · exact ProgramWritten.opens (.of_set hP rfl (.effects q.failure q.closes now))
        (ensureProgramDecision_opens h)
    · exact pure_eq_ok.1 h ▸ .of_set hP rfl (.effects q.failure q.closes now)
  | _ => exact .of_programs ((body_moves h).rest rfl).1

/-! ### What a later claim needs -/

/-- A generation that ended without a result. -/
def ControllerGeneration.isLost (g : ControllerGeneration) : Bool :=
  g.state ∈ [.failed, .interrupted, .unavailable, .ambiguous]

namespace ControllerDecision

def awaitsLaunch (d : ControllerDecision) : Bool :=
  d.state = .awaitingClaim && d.generation.state = .prepared

/-- A claim can be taken, or is held. -/
def isOpen (d : ControllerDecision) : Bool := d.state ∈ [.awaitingClaim, .claimed]

/-- An open decision has no action, and every generation that was replaced is lost. -/
structure Clear (d : ControllerDecision) : Prop where
  action : d.isOpen = true → d.action = none
  earlier : ∀ g ∈ d.earlier, g.isLost = true

/-- What a call other than a claim carries over; only a reset and a replacement make a generation
wait for its launch. -/
structure Carries (reset : Prop) (d d' : ControllerDecision) : Prop where
  used : d'.generationUsed = d.generationUsed
  budget : d'.generationBudget = d.generationBudget
  clear : d'.Clear
  current : d'.currentGeneration = d.currentGeneration ∨
    d'.currentGeneration = d.currentGeneration + 1 ∧ d.currentGeneration < d.generationBudget
  launch : d'.awaitsLaunch → d.awaitsLaunch ∨ d.currentGeneration < d'.currentGeneration ∨ reset

variable {reset : Prop}

theorem Carries.refl (h : d.Clear) : Carries reset d d :=
  ⟨rfl, rfl, h, .inl rfl, .inl⟩

theorem not_awaitsLaunch (h : d.state ≠ .awaitingClaim) : ¬ d.awaitsLaunch = true := by
  unfold awaitsLaunch
  rw [decide_eq_false h]
  exact Bool.false_ne_true

theorem not_awaitsLaunch_of_generation (h : d.generation.state ≠ .prepared) :
    ¬ d.awaitsLaunch = true := by
  unfold awaitsLaunch
  rw [decide_eq_false h, Bool.and_false]
  exact Bool.false_ne_true

/-- The generations, the action and the counters are kept, and no open state is entered. -/
theorem Carries.of_same (h : d.Clear) (hused : d'.generationUsed = d.generationUsed)
    (hbudget : d'.generationBudget = d.generationBudget) (haction : d'.action = d.action)
    (hearlier : d'.earlier = d.earlier)
    (hopen : d'.isOpen = true → d.isOpen = true)
    (hlaunch : d'.awaitsLaunch → d.awaitsLaunch ∨ reset) : Carries reset d d' where
  used := hused
  budget := hbudget
  clear := ⟨fun hstate => haction.trans (h.action (hopen hstate)), hearlier ▸ h.earlier⟩
  current := .inl (by unfold currentGeneration; rw [hearlier])
  launch hlaunched := (hlaunch hlaunched).imp_right .inr

/-- The decision leaves the open states. -/
theorem Carries.of_closed (h : d.Clear) (hused : d'.generationUsed = d.generationUsed)
    (hbudget : d'.generationBudget = d.generationBudget) (hearlier : d'.earlier = d.earlier)
    (hclosed : d'.isOpen = false) : Carries reset d d' where
  used := hused
  budget := hbudget
  clear := ⟨fun hopen => absurd hopen (by rw [hclosed]; decide), hearlier ▸ h.earlier⟩
  current := .inl (by unfold currentGeneration; rw [hearlier])
  launch hlaunched := by
    refine absurd hlaunched (not_awaitsLaunch fun hawaits => ?_)
    unfold isOpen at hclosed
    rw [hawaits] at hclosed
    exact absurd hclosed (by decide)

/-- A prepared generation follows the others, the last of which is lost. -/
theorem Carries.of_replaced {g : ControllerGeneration} (h : d.Clear)
    (hused : d'.generationUsed = d.generationUsed)
    (hbudget : d'.generationBudget = d.generationBudget) (haction : d.action = none)
    (haction' : d'.action = d.action) (hearlier : d'.earlier = d.earlier ++ [g])
    (hlost : g.isLost = true) (hcan : d.currentGeneration < d.generationBudget) :
    Carries reset d d' := by
  have hcurrent : d'.currentGeneration = d.currentGeneration + 1 := by
    unfold currentGeneration
    rw [hearlier, List.length_append]
    rfl
  refine ⟨hused, hbudget, ⟨fun _ => haction'.trans haction, ?_⟩, .inr ⟨hcurrent, hcan⟩, fun _ =>
    .inr (.inl (by omega))⟩
  rw [hearlier]
  intro g' hmem
  obtain hold | hnew := List.mem_append.1 hmem
  · exact h.earlier g' hold
  · exact List.mem_singleton.1 hnew ▸ hlost

end ControllerDecision

open ControllerDecision

variable {reset : Prop} {decisionId : DecisionKey}

theorem acknowledge_carries (h : d.Clear) : Carries reset d (d.acknowledge now) := by
  unfold ControllerDecision.acknowledge
  dsimp only
  split_ifs with hstate hattention
  · exact .of_closed h rfl rfl rfl rfl
  · exact .of_closed h rfl rfl rfl rfl
  · exact .of_same h rfl rfl rfl rfl id .inl

theorem found_isLost {g : ControllerGeneration} {outcome : ControllerGenerationState}
    {terminalAt : Option Time} {i : ControllerInspection} (h : outcome.isLoss = true) :
    (g.found outcome terminalAt i).isLost = true := by
  cases outcome <;> first | rfl | cases h

theorem completeInspection_carries {programRevision : ProgramRevision} {q : CompleteRequest}
    (hclear : p.decision.Clear)
    (h : p.completeInspection env decisionId programRevision q now = .ok p')
    (hvalid : p'.decision.generation.Valid env) : Carries reset p.decision p'.decision := by
  obtain ⟨hstate, -, i, i', terminalAt, inspected, settled, hi, -, -, -, houtcome, -, rfl, rfl,
    rfl⟩ := completeInspection_cases h
  have hopen : p.decision.isOpen = true := decide_eq_true hstate
  have haction := hclear.action hopen
  generalize readOutcome q.outcome = outcome at *
  dsimp only at hvalid ⊢
  by_cases hactive : outcome = .active
  · rw [if_pos hactive]
    exact .of_same hclear rfl rfl rfl rfl id fun hlaunch =>
      absurd hlaunch (not_awaitsLaunch_of_generation (by rw [hactive]; exact nofun))
  rw [if_neg hactive] at hvalid ⊢
  unfold settleInspection at hvalid ⊢
  by_cases hcompleted : outcome = .completed
  · rw [if_pos hcompleted]
    exact .of_same hclear rfl rfl rfl rfl (fun _ => hopen) fun hlaunch =>
      absurd hlaunch (not_awaitsLaunch_of_generation (by rw [hcompleted]; exact nofun))
  rw [if_neg hcompleted] at hvalid ⊢
  by_cases hreplaced : p.decision.canReplace outcome now = true
  · rw [if_pos hreplaced]
    simp only [canReplace, Bool.and_eq_true, decide_eq_true_eq] at hreplaced
    obtain ⟨⟨hloss, hcan⟩, -⟩ := hreplaced
    exact .of_replaced hclear rfl rfl haction rfl rfl (found_isLost hloss) hcan
  rw [if_neg hreplaced] at hvalid ⊢
  split_ifs at hvalid ⊢ with hterminal
  · exact .of_closed hclear rfl rfl rfl rfl
  · refine .of_same hclear rfl rfl rfl rfl (fun _ => hopen) fun hlaunch => ?_
    simp only [awaitsLaunch, Bool.and_eq_true, decide_eq_true_eq] at hlaunch
    obtain ⟨-, -, -, -, hlegal, -⟩ := hvalid.1 i' rfl
    obtain ⟨hlegal, hsame⟩ := hlegal outcome houtcome
    rw [← hsame, hlaunch.2] at hlegal
    exact absurd hlegal (by decide)

/-- A reset of the current generation; the earlier ones are lost, so that none of them starts. -/
theorem resetDelivery_carries {q : ResetRequest} (hclear : p.decision.Clear)
    (h : p.resetDelivery env q now = .ok p') : Carries True p.decision p'.decision := by
  unfold resetDelivery at h
  dsimp only at h
  split at h
  · cases h
  rename_i g hg
  simp only [checks_ok] at h
  obtain ⟨⟨hstarting, -⟩, -, h⟩ := h
  have hcurrent : q.generation = p.decision.currentGeneration := by
    by_contra hne
    obtain ⟨hpos, hg⟩ := generationAt_eq_some.1 hg
    have hlt := (List.getElem?_eq_some_iff.1 hg).1
    unfold generations at hlt hg
    rw [List.length_append, List.length_singleton] at hlt
    unfold currentGeneration at hne
    have hearlier : q.generation - 1 < p.decision.earlier.length := by omega
    rw [List.getElem?_append_left hearlier] at hg
    have hlost := hclear.earlier g (List.mem_of_getElem? hg)
    unfold ControllerGeneration.isLost at hlost
    rw [hstarting] at hlost
    exact absurd hlost (by decide)
  have hreset : p.decision.isOpen = true → Carries True p.decision
      (if p.decision.state = .claimed then
        (p.decision.mapGeneration q.generation fun g => { g with state := .prepared }).release now
      else p.decision.mapGeneration q.generation fun g => { g with state := .prepared }) := by
    intro hopen
    unfold mapGeneration
    rw [if_pos hcurrent]
    split_ifs
    · exact .of_same hclear rfl rfl rfl rfl (fun _ => hopen) fun _ => .inr trivial
    · exact .of_same hclear rfl rfl rfl rfl (fun _ => hopen) fun _ => .inr trivial
  unfold isOpen at hreset
  split at h
  · simp only [steps_ok] at h
    obtain ⟨-, -, -, ⟨-, -, hclaimed⟩, rfl⟩ := h
    exact hreset (by rw [hclaimed]; rfl)
  · simp only [steps_ok] at h
    obtain ⟨⟨hawaits, -⟩, rfl⟩ := h
    exact hreset (by rw [hawaits]; rfl)

theorem authorizeReplacement_carries {revision : ℕ} (hclear : p.decision.Clear)
    (h : p.authorizeReplacement revision now = .ok p') : Carries reset p.decision p'.decision := by
  simp only [authorizeReplacement, steps_ok] at h
  obtain ⟨-, ⟨-, haction, -, hambiguous, -, -⟩, hcan, rfl⟩ := h
  refine .of_replaced hclear rfl rfl (Option.isNone_iff_eq_none.1 haction) rfl rfl ?_ hcan
  unfold ControllerGeneration.isLost
  rw [hambiguous]
  rfl

theorem run_carries {context : DecisionContext} {call : DecisionOp}
    (hprogram : context.decisionId = .program event) (hcheck : call.check env now = .ok ())
    (hclear : d.Clear) (h : call.run env context now ⟨d, none⟩ = .ok p')
    (hvalid : p'.decision.generation.Valid env) :
    Carries (∃ q, call = .resetDelivery q) d p'.decision := by
  have hdispatch : context.decisionId.dispatchId? = none := by
    rw [hprogram]
    rfl
  cases call with
  | claim q minted =>
    have hclaim : claim env q minted now ⟨d, none⟩ = .ok p' := h
    obtain ⟨-, -, ⟨rfl, -⟩ | ⟨w, -, -, -, hw, -⟩⟩ := claim_cases hclaim
    · exact .refl hclear
    · cases hw
  | renew q =>
    simp only [DecisionOp.run, renew, steps_ok] at h
    obtain ⟨-, -, -, rfl⟩ := h
    exact .of_same hclear rfl rfl rfl rfl id .inl
  | deferRateLimit q =>
    simp only [DecisionOp.run, deferRateLimit, steps_ok] at h
    obtain ⟨-, -, -, rfl⟩ := h
    exact .of_same hclear rfl rfl rfl rfl id .inl
  | acknowledge q =>
    simp only [DecisionOp.run, DecisionRows.acknowledge] at h
    split at h
    · cases h
    simp only [checks_ok] at h
    obtain ⟨-, -, -, h⟩ := h
    split_ifs at h
    · simp only [steps_ok] at h
      obtain ⟨-, -, rfl⟩ := h
      exact .refl hclear
    · simp only [steps_ok] at h
      obtain ⟨-, rfl⟩ := h
      exact acknowledge_carries hclear
  | expireInspection =>
    cases h
    split_ifs
    · exact .of_closed hclear rfl rfl rfl rfl
    · exact .refl hclear
  | reserveInspection minted =>
    simp only [DecisionOp.run, reserveInspection, steps_ok] at h
    obtain ⟨-, -, -, -, -, digest, -, rfl⟩ := h
    exact .of_same hclear rfl rfl rfl rfl id .inl
  | completeInspection q => exact completeInspection_carries hclear h hvalid
  | reap =>
    cases reap_cases h with
    | nothing => exact .refl hclear
    | _ hreaped => exact absurd hdispatch hreaped
  | prepareGeneration generation prompt =>
    simp only [DecisionOp.run, prepareGeneration, steps_ok] at h
    obtain ⟨-, -, -, -, -, rfl⟩ := h
    exact .of_same hclear rfl rfl rfl rfl id fun hlaunch =>
      absurd hlaunch (not_awaitsLaunch_of_generation (by rintro ⟨⟩))
  | bindThread generation thread =>
    simp only [DecisionOp.run, bindThread, checks_ok] at h
    obtain ⟨-, h⟩ := h
    split at h
    · simp only [steps_ok] at h
      exact h.2 ▸ .refl hclear
    · simp only [steps_ok] at h
      obtain ⟨-, rfl⟩ := h
      exact .of_same hclear rfl rfl rfl rfl id fun hlaunch =>
        absurd hlaunch (not_awaitsLaunch_of_generation (by rintro ⟨⟩))
  | bindTurn q =>
    simp only [DecisionOp.run, bindTurn, checks_ok] at h
    obtain ⟨-, -, h⟩ := h
    split_ifs at h
    · exact pure_eq_ok.1 h ▸ .refl hclear
    · simp only [steps_ok] at h
      obtain ⟨-, -, -, -, rfl⟩ := h
      exact .of_same hclear rfl rfl rfl rfl id .inl
  | completeGeneration generation outcome =>
    simp only [DecisionOp.check, ensure_eq_ok] at hcheck
    simp only [DecisionOp.run, completeGeneration, checks_ok] at h
    obtain ⟨-, h⟩ := h
    split_ifs at h
    · cases h
      refine .of_same hclear rfl rfl rfl rfl id fun hlaunch =>
        absurd hlaunch (not_awaitsLaunch_of_generation ?_)
      rintro (rfl : outcome = .prepared)
      exact absurd hcheck (by decide)
    · simp only [steps_ok] at h
      exact h.2 ▸ .refl hclear
  | recordProfileDrift generation reason =>
    simp only [DecisionOp.run, recordProfileDrift, checks_ok] at h
    obtain ⟨-, -, h⟩ := h
    split_ifs at h
    · exact pure_eq_ok.1 h ▸ .refl hclear
    · simp only [steps_ok] at h
      obtain ⟨-, -, rfl⟩ := h
      exact .of_closed hclear rfl rfl rfl rfl
  | resetDelivery q =>
    have hcarries := resetDelivery_carries hclear h
    exact { hcarries with launch := fun hlaunch =>
      (hcarries.launch hlaunch).imp_right (.imp_right fun _ => ⟨q, rfl⟩) }
  | markLaunchAmbiguous q =>
    simp only [DecisionOp.run, markLaunchAmbiguous, steps_ok] at h
    obtain ⟨-, -, rfl⟩ := h
    exact .of_closed hclear rfl rfl rfl rfl
  | authorizeReplacement revision reason => exact authorizeReplacement_carries hclear h
  | claimWake =>
    cases h
  | recordDelivery outcome turn =>
    cases h
  | reconcileDelivery turn =>
    cases h

theorem supersedeOpen_carries (hclear : d.Clear) : Carries reset d (d.supersedeOpen now) := by
  unfold ControllerDecision.supersedeOpen
  split_ifs
  · exact .of_closed hclear rfl rfl rfl rfl
  · exact .refl hclear

theorem effects_carries {failure : Option String} {closes : Bool} (hclear : d.Clear) :
    Carries reset d ((d.failEffect failure now).closeEffects closes now) := by
  unfold ControllerDecision.failEffect ControllerDecision.closeEffects
  split_ifs
  · exact .of_closed hclear rfl rfl rfl rfl
  · exact .of_closed hclear rfl rfl rfl rfl
  · exact acknowledge_carries hclear
  · exact .refl hclear

/-- A claim, or a call that carries over what a claim needs. -/
theorem ProgramWrites.carries (h : ProgramWrites env op event d d') (hclear : d.Clear)
    (hvalid : d'.generation.Valid env) :
    Carries (∃ capable q now, op = .programDecision event capable (.resetDelivery q) now) d d' ∨
      ∃ q f minted now, op = .claimProgramDecision event q f minted now ∧
        d.state = .awaitingClaim ∧ d' = { d with
          state := .claimed, revision := d.revision + 1, generationUsed := d.generationUsed + 1
          claimant := some ⟨q.claimantKind, q.claimantId, env.sha256 minted, now⟩
          claimLeaseExpiresAt := some (now + q.lease), updatedAt := now } := by
  cases h with
  | stay => exact .inl (.refl hclear)
  | calls capable call now context p' hop hprogram hcheck hrun =>
    have hcarries := run_carries hprogram hcheck hclear hrun hvalid
    refine .inl { hcarries with launch := fun hlaunch =>
      (hcarries.launch hlaunch).imp_right (.imp_right ?_) }
    rintro ⟨q, rfl⟩
    exact ⟨capable, q, now, hop⟩
  | supersedes now => exact .inl (supersedeOpen_carries hclear)
  | claims q f minted now hop hstate => exact .inr ⟨q, f, minted, now, hop, hstate, rfl⟩
  | commits q c now => exact .inl (.of_closed hclear rfl rfl rfl rfl)
  | effects failure closes now => exact .inl (effects_carries hclear)

end CodexFlow.Ledger
