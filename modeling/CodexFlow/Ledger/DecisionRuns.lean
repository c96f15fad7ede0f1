import CodexFlow.Ledger.DecisionCalls

/-!
# The runs of a decision

A decision with its wake is followed through the calls on the ledger: it appears fresh, and every
call after that is a step of it.
-/

namespace CodexFlow.Ledger

open Checked DecisionRows

variable {env : Env} {L L' : Ledger} {dispatchId : DispatchId} {r r' r'' s : DispatchRows}
  {op : Op} {mints : String → Prop} {decisionId : DecisionKey} {d d' : ControllerDecision}
  {p p' : DecisionRows} {kind : WakeKind} {cycle : ℕ} {now : Time}

/-! ### Steps -/

namespace ControllerDecision

theorem Regenerates.kept (h : d.Regenerates d') :
    d'.kind = d.kind ∧ d'.cycleSequence = d.cycleSequence := by
  rw [h.same]
  exact ⟨rfl, rfl⟩

theorem Step.kept (h : d.Step mints decisionId d') :
    d'.kind = d.kind ∧ d'.cycleSequence = d.cycleSequence := by
  cases h with
  | regenerate _ h => exact h.kept
  | attend _ h => exact h.kept
  | release _ h => exact h.kept
  | reopen _ h => exact h.kept
  | conclude _ h => exact h.kept
  | acknowledge d₁ _ _ hd₁ =>
    obtain rfl | ⟨-, rfl⟩ := hd₁ <;> unfold ControllerDecision.acknowledge <;>
      split_ifs <;> exact ⟨rfl, rfl⟩
  | _ => exact ⟨rfl, rfl⟩

theorem supersede_step (keep : Bool) : d.Step mints decisionId (d.supersede keep now) := by
  unfold supersede
  split_ifs with h
  · refine .close none now ?_
    simp only [Bool.and_eq_true, decide_eq_true_eq] at h
    have hopen := h.2
    generalize d.state = state at hopen ⊢
    revert hopen
    cases state <;> decide
  · exact .stay

@[simp] theorem supersede_claimant (keep : Bool) :
    (d.supersede keep now).claimant = d.claimant := by
  unfold supersede
  split_ifs <;> rfl

theorem supersede_kept (keep : Bool) :
    (d.supersede keep now).kind = d.kind ∧
      (d.supersede keep now).cycleSequence = d.cycleSequence :=
  (@supersede_step (fun _ => False) (.dispatch "" .terminal 1) _ _ keep).kept

theorem supersede_supersede :
    (d.supersede false now).supersede false now = d.supersede false now := by
  unfold supersede
  split_ifs with h h'
  · simp at h'
  · rfl
  · rfl

theorem supersedeOpen_step : d.Step mints decisionId (d.supersedeOpen now) := by
  unfold supersedeOpen
  split_ifs with h
  · refine .close none now ?_
    simp only [Bool.and_eq_true, decide_eq_true_eq] at h
    exact List.mem_cons_of_mem _ h.2
  · exact .stay

end ControllerDecision

/-- The wakes that are starting were there before, and the claimant is kept. -/
theorem DecisionRows.Step.of_wakes {wake : Option Wake}
    (h : p.decision.Step mints decisionId d') (hclaimant : d'.claimant = p.decision.claimant)
    (hwake : ∀ w ∈ wake, w.state = .starting → w ∈ p.wake) :
    p.Step mints decisionId ⟨d', wake⟩ where
  decision := h
  starting := fun w hw hstarting => .inr ⟨hwake w hw hstarting, hclaimant.trans⟩

structure DecisionRows.Fresh (p : DecisionRows) : Prop where
  state : p.decision.state ∈ [.pendingDelivery, .awaitingClaim, .legacyClosed]
  revision : p.decision.revision = 0
  earlier : p.decision.earlier = []
  generation : p.decision.generation = .prepared
  claimant : p.decision.claimant = none
  action : p.decision.action = none
  outbox : p.decision.outbox = none
  acknowledged : p.decision.acknowledgedAt = none
  superseded : p.decision.supersededAt = none
  budget : p.decision.generationBudget = 2
  unused : p.decision.generationUsed = 0
  wake : ∀ w ∈ p.wake, w.state ∈ [.suppressed, .pending, .notApplicable]

/-! ### The pair of a decision and its wake -/

namespace DispatchRows

variable (r) in
def pair? (kind : WakeKind) (cycle : ℕ) : Option DecisionRows :=
  (r.decision? kind cycle).map fun d => ⟨d, r.wake? kind cycle⟩

theorem pair?_eq_some :
    r.pair? kind cycle = some p ↔
      r.decision? kind cycle = some p.decision ∧ r.wake? kind cycle = p.wake := by
  unfold pair?
  constructor
  · intro h
    obtain ⟨d, hd, rfl⟩ := Option.map_eq_some_iff.1 h
    exact ⟨hd, rfl⟩
  · rintro ⟨hd, hw⟩
    rw [hd, hw]
    rfl

theorem pair?_eq_none : r.pair? kind cycle = none ↔ r.decision? kind cycle = none :=
  Option.map_eq_none_iff

theorem decision?_spec (h : r.decision? kind cycle = some d) :
    d ∈ r.decisions ∧ d.kind = kind ∧ d.cycleSequence = cycle := by
  have hkey := List.find?_some h
  simp only [Bool.and_eq_true, decide_eq_true_eq] at hkey
  exact ⟨List.mem_of_find?_eq_some h, hkey⟩

theorem wake?_spec {w : Wake} (h : r.wake? kind cycle = some w) :
    w ∈ r.wakes ∧ w.kind = kind ∧ w.cycleSequence = cycle := by
  have hkey := List.find?_some h
  simp only [Bool.and_eq_true, decide_eq_true_eq] at hkey
  exact ⟨List.mem_of_find?_eq_some h, hkey⟩

theorem decision?_of_map {f : ControllerDecision → ControllerDecision}
    (hf : ∀ d, (f d).kind = d.kind ∧ (f d).cycleSequence = d.cycleSequence)
    (h : r'.decisions = r.decisions.map f) :
    r'.decision? kind cycle = (r.decision? kind cycle).map f := by
  unfold decision?
  rw [h, List.find?_map]
  refine congrArg (fun key => (r.decisions.find? key).map f) (funext fun d => ?_)
  simp only [Function.comp_apply, hf d]

theorem wake?_of_map {f : Wake → Wake} (hf : ∀ w, (f w).key = w.key)
    (h : r'.wakes = r.wakes.map f) : r'.wake? kind cycle = (r.wake? kind cycle).map f := by
  unfold wake?
  rw [h, List.find?_map]
  refine congrArg (fun key => (r.wakes.find? key).map f) (funext fun w => ?_)
  obtain ⟨hkind, hcycle⟩ := Prod.mk.inj (hf w)
  simp only [Function.comp_apply, hkind, hcycle]

/-- Rewriting the decisions and wakes under their keys. -/
theorem pair?_of_map {f : ControllerDecision → ControllerDecision} {g : Wake → Wake}
    (hf : ∀ d, (f d).kind = d.kind ∧ (f d).cycleSequence = d.cycleSequence)
    (hg : ∀ w, (g w).key = w.key) (hd : r'.decisions = r.decisions.map f)
    (hw : r'.wakes = r.wakes.map g) :
    r'.pair? kind cycle = (r.pair? kind cycle).map fun p => ⟨f p.decision, p.wake.map g⟩ := by
  unfold pair?
  rw [decision?_of_map hf hd, wake?_of_map hg hw, Option.map_map, Option.map_map]
  rfl

theorem pair_of_map {f : ControllerDecision → ControllerDecision} {g : Wake → Wake}
    (hp : r.pair? kind cycle = some p)
    (hf : ∀ d, (f d).kind = d.kind ∧ (f d).cycleSequence = d.cycleSequence)
    (hg : ∀ w, (g w).key = w.key) (hd : r'.decisions = r.decisions.map f)
    (hw : r'.wakes = r.wakes.map g) :
    r'.pair? kind cycle = some ⟨f p.decision, p.wake.map g⟩ := by
  rw [pair?_of_map hf hg hd hw, hp]
  rfl

theorem Tables.pair? (h : r.Tables r') : r'.pair? kind cycle = r.pair? kind cycle := by
  unfold DispatchRows.pair? decision? wake?
  rw [h.decisions, h.wakes]

/-- A cancelled dispatch keeps its terminal wake only. -/
theorem cancel_wake? {retain : Bool} :
    (r.cancel retain now).wake? kind cycle =
      if kind = .checkpoint then none else r.wake? kind cycle := by
  show (r.wakes.filter (·.kind ≠ .checkpoint)).find? _ = _
  rw [List.find?_filter]
  split_ifs with hkind
  · refine List.find?_eq_none.2 fun w _ h => ?_
    simp only [Bool.and_eq_true, decide_eq_true_eq] at h
    exact h.1 (h.2.1.trans hkind)
  · refine congrArg r.wakes.find? (funext fun w => ?_)
    by_cases hw : w.kind = kind
    · simp [hw, hkind]
    · simp [hw]

theorem cancel_pair? {retain : Bool} :
    (r.cancel retain now).pair? kind cycle = (r.pair? kind cycle).map fun p =>
      ⟨p.decision.supersede false now, if kind = .checkpoint then none else p.wake⟩ := by
  unfold DispatchRows.pair?
  rw [decision?_of_map (f := .supersede false now) (fun d => d.supersede_kept false) rfl,
    cancel_wake?, Option.map_map, Option.map_map]
  rfl

/-- A second cancellation finds nothing to do in the controller tables. -/
theorem cancel_keeps {retain retain' : Bool} (h : (r.cancel retain now).Keeps r') :
    (r.cancel retain now).Keeps (r'.cancel retain' now) where
  decisions := by
    show r'.decisions.map _ = r.decisions.map _
    rw [h.decisions]
    show (r.decisions.map _).map _ = _
    rw [List.map_map]
    exact List.map_congr_left fun d _ => d.supersede_supersede
  wakes := by
    show r'.wakes.filter _ = _
    rw [h.wakes]
    show (r.wakes.filter _).filter _ = r.wakes.filter _
    rw [List.filter_filter]
    simp
  successorOutbox := h.successorOutbox
  notificationOutbox := h.notificationOutbox
  terminalStatus := rfl

end DispatchRows

open DispatchRows

/-! ### Inserted wakes -/

theorem NewWake.state_cases (w : NewWake) : w.state ∈ [.suppressed, .pending, .notApplicable] := by
  unfold NewWake.state
  split_ifs <;> decide

theorem newDecisionState_mem (state : WakeState) (queueState : QueueState)
    (thread : Option String) : newDecisionState state queueState thread ∈
      [.pendingDelivery, .awaitingClaim, .legacyClosed] := by
  unfold newDecisionState
  split_ifs <;> decide

theorem NewWake.fresh (w : NewWake) (deadline : Time) {wake : Option Wake}
    (hwake : ∀ v ∈ wake, v.state ∈ [.suppressed, .pending, .notApplicable]) :
    DecisionRows.Fresh ⟨w.decisionUntil now deadline, wake⟩ where
  state := newDecisionState_mem ..
  revision := rfl
  earlier := rfl
  generation := rfl
  claimant := rfl
  action := rfl
  outbox := rfl
  acknowledged := rfl
  superseded := rfl
  budget := rfl
  unused := rfl
  wake := hwake

structure DispatchRows.Grows (w : NewWake) (deadline created now : Time) (r r' : DispatchRows) :
    Prop where
  decisions : r'.decisions = if r.hasDecision w.kind w.cycleSequence then r.decisions
    else r.decisions ++ [w.decisionUntil now deadline]
  wakes : r'.wakes = r.wakes ∨ r'.wakes = r.wakes ++ [w.wake created]

namespace DispatchRows.Grows

variable {w : NewWake} {deadline created : Time}

theorem of_inserts (h : r.Inserts w deadline created now r') :
    r.Grows w deadline created now r' := ⟨h.decisions, .inr h.wakes⟩

/-- A wake that is there stays, a new one was never started. -/
theorem wake? (h : r.Grows w deadline created now r') {v : Wake}
    (hv : r'.wake? kind cycle = some v) :
    r.wake? kind cycle = some v ∨
      r.wake? kind cycle = none ∧ v.state ∈ [.suppressed, .pending, .notApplicable] := by
  unfold DispatchRows.wake? at hv ⊢
  obtain hwakes | hwakes := h.wakes
  · rw [hwakes] at hv
    exact .inl hv
  rw [hwakes, List.find?_append] at hv
  cases hold : r.wakes.find? _ with
  | some v' => exact .inl (by rw [hold] at hv; exact hv)
  | none =>
    rw [hold, Option.none_or] at hv
    obtain rfl := List.mem_singleton.1 (List.mem_of_find?_eq_some hv)
    exact .inr ⟨rfl, w.state_cases⟩

theorem pair (h : r.Grows w deadline created now r') (hp : r.pair? kind cycle = some p) :
    ∃ wake, r'.pair? kind cycle = some ⟨p.decision, wake⟩ ∧
      ∀ v ∈ wake, v.state = .starting → v ∈ p.wake := by
  obtain ⟨hd, hw⟩ := pair?_eq_some.1 hp
  have hd' : r'.decision? kind cycle = some p.decision := by
    have hdecisions := h.decisions
    unfold decision? at hd ⊢
    split_ifs at hdecisions
    · rw [hdecisions, hd]
    · rw [hdecisions, List.find?_append, hd]
      rfl
  refine ⟨r'.wake? kind cycle, pair?_eq_some.2 ⟨hd', rfl⟩, fun v hv hstarting => ?_⟩
  obtain hold | ⟨-, hfresh⟩ := h.wake? hv
  · exact hw ▸ hold
  · rw [hstarting] at hfresh
    exact absurd hfresh (by decide)

theorem fresh (h : r.Grows w deadline created now r') (hnone : r.decision? kind cycle = none)
    (hwake : r.wake? kind cycle = none) (hp : r'.pair? kind cycle = some p) : p.Fresh := by
  obtain ⟨hd, hw⟩ := pair?_eq_some.1 hp
  have hdecisions := h.decisions
  unfold decision? at hd hnone
  split_ifs at hdecisions
  · rw [hdecisions, hnone] at hd
    cases hd
  · rw [hdecisions, List.find?_append, hnone, Option.none_or] at hd
    have hnew := List.mem_singleton.1 (List.mem_of_find?_eq_some hd)
    obtain ⟨decision, wake⟩ := p
    obtain rfl : decision = _ := hnew
    refine w.fresh deadline fun v hv => ?_
    obtain hold | ⟨-, hfresh⟩ := h.wake? (hw.trans hv)
    · rw [hwake] at hold
      cases hold
    · exact hfresh

end DispatchRows.Grows

/-! ### Committed bundles -/

/-- The effects of a bundle keep the controller tables, or cancel. -/
theorem controllerEffect_cases {action : ControllerAction}
    (h : L.controllerEffect now r action = .ok r') :
    r.Keeps r' ∨ (r.cancel false now).Keeps r' := by
  cases action with
  | acknowledgeOnly =>
    cases h
    exact .inl (.refl r)
  | requireHumanAttention =>
    cases h
    exact .inl (.refl r)
  | rearmCheckpoint duration =>
    cases h
    exact .inl ⟨⟨rfl, rfl, rfl, rfl⟩, rfl⟩
  | changeRetryBudget control change =>
    dsimp only [controllerEffect] at h
    split at h
    · cases h
    · cases h
      exact .inl ⟨⟨rfl, rfl, rfl, rfl⟩, rfl⟩
  | retryDispatch control =>
    simp only [controllerEffect, steps_ok] at h
    obtain ⟨-, rfl⟩ := h
    exact .inl ⟨⟨rfl, rfl, rfl, rfl⟩, rfl⟩
  | cancelDispatch control =>
    simp only [controllerEffect, bind_eq_ok, pure_eq_ok] at h
    obtain ⟨cancelled, hcancelled, rfl⟩ := h
    obtain rfl | rfl := cancelQueueRow_cases hcancelled
    · exact .inl ⟨⟨rfl, rfl, rfl, rfl⟩, rfl⟩
    · exact .inr ⟨⟨rfl, rfl, rfl, rfl⟩, rfl⟩

theorem controllerEffects_cases {actions : List ControllerAction}
    (h : L.controllerEffects dispatchId now actions r = .ok r') :
    r.Keeps r' ∨ (r.cancel false now).Keeps r' := by
  induction actions generalizing r with
  | nil => exact pure_eq_ok.1 h ▸ .inl (.refl r)
  | cons action actions ih =>
    simp only [controllerEffects, checks_ok] at h
    obtain ⟨-, r₁, hfirst, hrest⟩ := h
    obtain hkeeps | hcancels := controllerEffect_cases hfirst
    · obtain hrest | hrest := ih hrest
      · exact .inl (hkeeps.trans hrest)
      · exact .inr (hkeeps.cancel.trans hrest)
    · obtain hrest | hrest := ih hrest
      · exact .inr (hcancels.trans hrest)
      · exact .inr ((cancel_keeps hcancels).trans hrest)

theorem effects_pair (h : r.Keeps r' ∨ (r.cancel false now).Keeps r')
    (hp : r.pair? kind cycle = some p) :
    ∃ d wake, r'.pair? kind cycle = some ⟨d, wake⟩ ∧
      (d = p.decision ∨ d = p.decision.supersede false now) ∧ ∀ w ∈ wake, w ∈ p.wake := by
  obtain h | h := h
  · exact ⟨p.decision, p.wake, h.pair?.trans hp, .inl rfl, fun _ => id⟩
  · refine ⟨_, if kind = .checkpoint then none else p.wake, ?_, .inr rfl, fun w hw => ?_⟩
    · rw [h.pair?, cancel_pair?, hp]
      rfl
    · split_ifs at hw
      · cases hw
      · exact hw

theorem mapDecision_pair? {f : ControllerDecision → ControllerDecision} {kind' : WakeKind}
    {cycle' : ℕ} (hf : ∀ d, (f d).kind = d.kind ∧ (f d).cycleSequence = d.cycleSequence) :
    (r.mapDecision kind' cycle' f).pair? kind cycle = (r.pair? kind cycle).map fun p =>
      { p with decision := if kind = kind' ∧ cycle = cycle' then f p.decision else p.decision } := by
  have hmap := @pair?_of_map r (r.mapDecision kind' cycle' f) kind cycle
    (fun d => if d.kind = kind' && d.cycleSequence = cycle' then f d else d) id (fun d => by split_ifs; exacts [hf d, ⟨rfl, rfl⟩]) (fun _ => rfl) rfl
    (List.map_id _).symm
  rw [hmap]
  cases hp : r.pair? kind cycle with
  | none => rfl
  | some p =>
    obtain ⟨-, hkind, hcycle⟩ := decision?_spec (pair?_eq_some.1 hp).1
    simp only [Option.map_some, Option.map_id, id, hkind, hcycle, Bool.and_eq_true,
      decide_eq_true_eq]

theorem SubmitRequest.authorize_state {q : SubmitRequest} (h : q.authorize env now d = .ok ()) :
    d.state ∈ [.awaitingClaim, .claimed] := by
  simp only [SubmitRequest.authorize, checks_ok] at h
  obtain ⟨-, h⟩ := h
  split_ifs at h
  · simp only [checks_ok] at h
    generalize d.state = state at h ⊢
    revert h
    cases state <;> simp
  · simp only [checks_ok] at h
    rw [h.1]
    decide

/-- The decision of a committed bundle, cancelled by its effects or not. -/
theorem SubmitRequest.committed_step {q : SubmitRequest} {c : Claimant}
    (hstate : d.state ∈ [.awaitingClaim, .claimed]) (hclaimant : d.claimant = some c)
    (houtbox : d.outbox = none) (hd' : d' = d ∨ d' = d.supersede false now) :
    d.Step mints decisionId (q.committed env c d.revision now d') := by
  have hto : (if q.attentionReason.isSome then ControllerDecisionState.humanAttentionRequired
      else .actionCommitted) ∈ [.humanAttentionRequired, .actionCommitted] := by
    split_ifs <;> decide
  obtain rfl | rfl := hd'
  · exact .commit d'.supersededAt _ _ _ _ now hstate hto houtbox (by rw [hclaimant]; rfl)
  · unfold ControllerDecision.supersede
    split_ifs
    · exact .commit (some now) _ _ _ _ now hstate hto houtbox (by rw [hclaimant]; rfl)
    · exact .commit d.supersededAt _ _ _ _ now hstate hto houtbox (by rw [hclaimant]; rfl)

/-- The rows that the effects of a committed bundle leave, and the claimant it names. -/
theorem Commits.effects {q : SubmitRequest} {kind' : WakeKind} {cycle' : ℕ}
    (h : Commits env L q now d kind' cycle' dispatchId r r') :
    ∃ r₁ c, (r.Keeps r₁ ∨ (r.cancel false now).Keeps r₁) ∧ d.claimant = some c ∧
      d.outbox = none ∧
      r' = r₁.mapDecision kind' cycle' (q.committed env c d.revision now) := by
  have hbody := h.body
  simp only [commitBundle, applyControllerActions, checks_ok] at hbody
  obtain ⟨-, r₁, ⟨-, -, -, -, heffects⟩, hbody⟩ := hbody
  split at hbody
  · cases hbody
  rename_i c hc
  simp only [steps_ok] at hbody
  obtain ⟨houtbox, rfl⟩ := hbody
  exact ⟨r₁, c, controllerEffects_cases heffects, hc, Option.isNone_iff_eq_none.1 houtbox, rfl⟩

theorem SubmitRequest.committed_kept (q : SubmitRequest) (c : Claimant) (revision : ℕ)
    (d : ControllerDecision) : (q.committed env c revision now d).kind = d.kind ∧
      (q.committed env c revision now d).cycleSequence = d.cycleSequence :=
  ⟨rfl, rfl⟩

theorem commits_pair {q : SubmitRequest} {kind' : WakeKind} {cycle' : ℕ}
    (h : Commits env L q now d kind' cycle' dispatchId r r') (hp : r.pair? kind cycle = some p) :
    ∃ p', r'.pair? kind cycle = some p' ∧ p.Step mints decisionId p' := by
  obtain ⟨r₁, c, heffects, hc, houtbox, rfl⟩ := h.effects
  obtain ⟨d₁, wake, hp₁, hd₁, hwake⟩ := effects_pair heffects hp
  have hclaimant : d₁.claimant = p.decision.claimant := by
    obtain rfl | rfl := hd₁
    · rfl
    · exact p.decision.supersede_claimant false
  refine ⟨_, (mapDecision_pair? (q.committed_kept c d.revision)).trans (congrArg _ hp₁), ?_⟩
  dsimp only
  split_ifs with hkey
  · obtain ⟨rfl, rfl⟩ := hkey
    obtain rfl : d = p.decision := Option.some.inj (h.decision.symm.trans (pair?_eq_some.1 hp).1)
    exact .of_wakes (SubmitRequest.committed_step (SubmitRequest.authorize_state h.authorized) hc
      houtbox hd₁) hclaimant fun w hw _ => hwake w hw
  · refine .of_wakes ?_ hclaimant fun w hw _ => hwake w hw
    obtain rfl | rfl := hd₁
    · exact .stay
    · exact p.decision.supersede_step false

theorem commits_none {q : SubmitRequest} {kind' : WakeKind} {cycle' : ℕ}
    (h : Commits env L q now d kind' cycle' dispatchId r r') (hp : r.pair? kind cycle = none) :
    r'.pair? kind cycle ≠ some p := by
  obtain ⟨r₁, c, heffects, hc, houtbox, rfl⟩ := h.effects
  have hp₁ : r₁.pair? kind cycle = none := by
    obtain hkeeps | hcancels := heffects
    · exact hkeeps.pair?.trans hp
    · rw [hcancels.pair?, cancel_pair?, hp]
      rfl
  rw [mapDecision_pair? (q.committed_kept c d.revision), hp₁]
  exact fun hsome => nomatch hsome

/-! ### Steps of a dispatch -/

theorem setDecision_pair? {kind' : WakeKind} {cycle' : ℕ} {d : ControllerDecision}
    (hd : r.decision? kind' cycle' = some d)
    (hkept : p'.decision.kind = d.kind ∧ p'.decision.cycleSequence = d.cycleSequence)
    (hkey : p'.wake.map Wake.key = (r.wake? kind' cycle').map Wake.key) :
    (r.setDecision kind' cycle' p').pair? kind cycle =
      if kind = kind' ∧ cycle = cycle' then some p' else r.pair? kind cycle := by
  obtain ⟨-, hkind, hcycle⟩ := decision?_spec hd
  have hf : ∀ e : ControllerDecision,
      (if e.kind = kind' && e.cycleSequence = cycle' then p'.decision else e).kind = e.kind ∧
        (if e.kind = kind' && e.cycleSequence = cycle' then p'.decision else e).cycleSequence =
          e.cycleSequence := by
    intro e
    split_ifs with he
    · simp only [Bool.and_eq_true, decide_eq_true_eq] at he
      rw [hkept.1, hkept.2, hkind, hcycle, he.1, he.2]
      exact ⟨rfl, rfl⟩
    · exact ⟨rfl, rfl⟩
  have hwakeKey : ∀ w ∈ p'.wake, w.key = (kind', cycle') := by
    intro w hw
    rw [Option.mem_def.1 hw] at hkey
    obtain ⟨v, hv, hvkey⟩ := Option.map_eq_some_iff.1 hkey.symm
    obtain ⟨-, hvkind, hvcycle⟩ := wake?_spec hv
    rw [← hvkey]
    exact Prod.ext hvkind hvcycle
  have hg : ∀ w : Wake,
      (if w.kind = kind' && w.cycleSequence = cycle' then p'.wake.getD w else w).key = w.key := by
    intro w
    split_ifs with hw
    · simp only [Bool.and_eq_true, decide_eq_true_eq] at hw
      cases hp' : p'.wake with
      | none => rfl
      | some v => exact (hwakeKey v hp').trans (Prod.ext hw.1.symm hw.2.symm)
    · rfl
  rw [pair?_of_map hf hg rfl rfl]
  split_ifs with hsame
  · obtain ⟨rfl, rfl⟩ := hsame
    have hp : r.pair? kind cycle = some ⟨d, r.wake? kind cycle⟩ := pair?_eq_some.2 ⟨hd, rfl⟩
    rw [hp]
    obtain ⟨decision, wake⟩ := p'
    simp only [Option.map_some, hkind, hcycle, decide_true, Bool.and_self, if_true,
      Option.some.injEq, DecisionRows.mk.injEq, true_and]
    cases hw : r.wake? kind cycle with
    | none =>
      rw [hw] at hkey
      exact (Option.map_eq_none_iff.1 hkey).symm
    | some v =>
      obtain ⟨-, hvkind, hvcycle⟩ := wake?_spec hw
      rw [hw] at hkey
      obtain ⟨v', hv', -⟩ := Option.map_eq_some_iff.1 hkey
      simp [hvkind, hvcycle, show wake = some v' from hv']
  · cases hp : r.pair? kind cycle with
    | none => rfl
    | some p =>
      obtain ⟨hd', hw'⟩ := pair?_eq_some.1 hp
      obtain ⟨-, hkind', hcycle'⟩ := decision?_spec hd'
      have hdecision : ¬(p.decision.kind = kind' && p.decision.cycleSequence = cycle') := by
        simpa [hkind', hcycle'] using hsame
      have hwake : p.wake.map (fun w =>
          if w.kind = kind' && w.cycleSequence = cycle' then p'.wake.getD w else w) = p.wake := by
        cases hv : p.wake with
        | none => rfl
        | some v =>
          obtain ⟨-, hvkind, hvcycle⟩ := wake?_spec (hw'.trans hv)
          have hother : ¬(v.kind = kind' && v.cycleSequence = cycle') := by
            simpa [hvkind, hvcycle] using hsame
          rw [Option.map_some, if_neg hother]
      rw [Option.map_some, if_neg hdecision, hwake]

theorem start_ambiguous {w : Wake} :
    (if w.state = .starting then w.moveTo .ambiguous now else w).state ≠ .starting := by
  split_ifs with h
  · exact WakeState.noConfusion
  · exact h

theorem refresh_step {q : ProfileRefresh} (h : r.refreshes q d) :
    d.Step mints decisionId (d.refresh now) ∧ (d.refresh now).claimant = d.claimant := by
  have hopen : d.isRefreshable := by
    simp only [refreshes, Bool.and_eq_true] at h
    exact h.1.2
  unfold ControllerDecision.refresh
  split_ifs with hstate
  · have hgenerations : d.Regenerates
        (d.withGeneration fun g => { g with state := .prepared, terminalAt := none }) :=
      ControllerDecision.regenerates_withGeneration (.of_eq rfl)
    simp only [ControllerDecision.isRefreshable, Bool.and_eq_true] at hopen
    exact ⟨.reopen _ hgenerations _ now hstate (Option.isNone_iff_eq_none.1 hopen.1.1.1.1)
      (Option.isNone_iff_eq_none.1 hopen.1.1.1.2), rfl⟩
  · exact ⟨.stay, rfl⟩

theorem refresh_kept : (d.refresh now).kind = d.kind ∧
    (d.refresh now).cycleSequence = d.cycleSequence := by
  unfold ControllerDecision.refresh
  split_ifs <;> exact ⟨rfl, rfl⟩

theorem refreshProfile_frame_rows {q : ProfileRefresh} :
    (r.refreshProfile q now).wakes = r.wakes ∧
      (r.refreshProfile q now).decisions =
        r.decisions.map fun d => if r.refreshes q d then d.refresh now else d := by
  unfold refreshProfile
  by_cases hany : r.decisions.any (r.refreshes q) = true
  · rw [if_pos hany]
    exact ⟨rfl, rfl⟩
  · rw [if_neg hany]
    refine ⟨rfl, (List.map_id _).symm.trans (List.map_congr_left fun d hd => ?_)⟩
    have hkept : ¬r.refreshes q d = true := fun h => hany (List.any_eq_true.2 ⟨d, hd, h⟩)
    rw [if_neg hkept]
    rfl

theorem refreshProfile_pair? {q : ProfileRefresh} :
    (r.refreshProfile q now).pair? kind cycle = (r.pair? kind cycle).map fun p =>
      { p with decision := if r.refreshes q p.decision then p.decision.refresh now else p.decision } := by
  obtain ⟨hwakes, hdecisions⟩ := @refreshProfile_frame_rows r now q
  rw [pair?_of_map (g := id) (fun d => ?_) (fun _ => rfl) hdecisions
    (hwakes.trans (List.map_id _).symm)]
  · simp only [Option.map_id, id]
  · split_ifs
    · exact refresh_kept
    · exact ⟨rfl, rfl⟩

theorem refreshProfile_step {q : ProfileRefresh} : p.Step mints decisionId
    { p with decision := if r.refreshes q p.decision then p.decision.refresh now else p.decision } := by
  split_ifs with hrefreshes
  · obtain ⟨hstep, hclaimant⟩ := refresh_step hrefreshes
    exact .of_wakes hstep hclaimant fun _ hw _ => hw
  · exact .of_wakes .stay rfl fun _ hw _ => hw

theorem reconcileExhausted_pair? :
    (r.reconcileExhausted now).pair? kind cycle = (r.pair? kind cycle).map fun p =>
      { p with decision := if r.isExhausted p.decision then p.decision.reopen now else p.decision } := by
  rw [@pair?_of_map r (r.reconcileExhausted now) _ _
    (fun d => if r.isExhausted d then d.reopen now else d) id (fun d => ?_) (fun _ => rfl) rfl
    (List.map_id _).symm]
  · simp only [Option.map_id, id]
  · split_ifs
    · exact ⟨rfl, rfl⟩
    · exact ⟨rfl, rfl⟩

theorem reconcileExhausted_step : p.Step mints decisionId
    { p with decision := if r.isExhausted p.decision then p.decision.reopen now else p.decision } := by
  split_ifs with hexhausted
  · simp only [isExhausted, Bool.and_eq_true, decide_eq_true_eq] at hexhausted
    exact .of_wakes (.reopen p.decision (.refl _) _ now hexhausted.1.1.1.1.1.1.1
      (Option.isNone_iff_eq_none.1 hexhausted.1.1.1.1.1.1.2)
      (Option.isNone_iff_eq_none.1 hexhausted.1.1.1.1.1.2)) rfl fun _ hw _ => hw
  · exact .of_wakes .stay rfl fun _ hw _ => hw

theorem reconcileInflight_pair? :
    (r.reconcileInflight now).pair? kind cycle = (r.pair? kind cycle).map fun p =>
      { p with wake := p.wake.map fun w =>
        if w.state = .starting then w.moveTo .ambiguous now else w } := by
  rw [@pair?_of_map r (r.reconcileInflight now) _ _ id
    (fun w => if w.state = .starting then w.moveTo .ambiguous now else w)
    (fun _ => ⟨rfl, rfl⟩) (fun w => ?_) (List.map_id _).symm rfl]
  · rfl
  · split_ifs
    · rfl
    · rfl

theorem reconcileInflight_step : p.Step mints decisionId
    { p with wake := p.wake.map fun w =>
      if w.state = .starting then w.moveTo .ambiguous now else w } := by
  refine .of_wakes .stay rfl fun w hw hstarting => ?_
  obtain ⟨v, -, rfl⟩ := Option.map_eq_some_iff.1 hw
  exact absurd hstarting start_ambiguous

theorem openDecision_grows {q : OpenRequest} (h : r.openDecision q now = .ok r') :
    ∃ w : NewWake, r.Grows w q.deadline now now r' := by
  simp only [openDecision, ensureControllerDecision, steps_ok] at h
  obtain ⟨-, r₁, ⟨-, rfl⟩, rfl⟩ := h
  let w : NewWake := { kind := q.kind, cycleSequence := 1, sourceThreadId := q.sourceThreadId
                       payload := q.payload, queueState := r.queue.state }
  refine ⟨w, ?_⟩
  by_cases hdecision : r.hasDecision q.kind 1
  · rw [if_pos hdecision]
    split_ifs
    · exact ⟨(if_pos hdecision).symm, .inl rfl⟩
    · exact ⟨(if_pos hdecision).symm, .inr rfl⟩
  · rw [if_neg hdecision]
    split_ifs
    · exact ⟨(if_neg hdecision).symm, .inl rfl⟩
    · exact ⟨(if_neg hdecision).symm, .inr rfl⟩

def ControllerDecision.replanned (now : Time) (d : ControllerDecision) : ControllerDecision :=
  { d with
    state := .superseded, supersededAt := some now, humanAttentionReason := none, updatedAt := now }

theorem ControllerDecision.replanned_kept (d : ControllerDecision) :
    (d.replanned now).kind = d.kind ∧ (d.replanned now).cycleSequence = d.cycleSequence :=
  ⟨rfl, rfl⟩

/-- A replan closes its decision and inserts the wake of a new cycle. -/
theorem replan_cases {kind' : WakeKind} {cycle' revision : ℕ}
    (h : r.replan kind' cycle' revision now = .ok r') :
    ∃ d r₁ w, r.decision? kind' cycle' = some d ∧ d.state = .humanAttentionRequired ∧
      (r.mapDecision kind' cycle' (.replanned now)).Inserts w (now + seconds 300) now now r₁ ∧
      r₁.Keeps r' := by
  unfold replan at h
  split at h
  · cases h
  rename_i d hd
  simp only [steps_ok] at h
  obtain ⟨-, ⟨hstate, -⟩, -, r₁, hinsert, rfl⟩ := h
  exact ⟨d, r₁, _, hd, hstate, insertWake_inserts hinsert, ⟨⟨rfl, rfl, rfl, rfl⟩, rfl⟩⟩

theorem suppress_key_rows {w : Wake} : (r.suppress now w).key = w.key := by
  unfold DispatchRows.suppress
  split_ifs <;> rfl

theorem suppress_starting_rows {w : Wake} (h : (r.suppress now w).state = .starting) :
    r.suppress now w = w := by
  unfold DispatchRows.suppress at h ⊢
  split_ifs at h ⊢
  rfl

/-- A finalization closes the checkpoint decisions. -/
theorem terminate_pair {terminal : QueueState} {task : Option String}
    (hp : r.pair? kind cycle = some p) :
    (r.terminate terminal task now).pair? kind cycle =
      some ⟨p.decision.supersede true now, p.wake.map (r.suppress now)⟩ :=
  pair_of_map hp (fun d => d.supersede_kept true) (fun _ => suppress_key_rows) rfl rfl

/-- What a call makes of a decision that was there. -/
theorem Moves.pair (h : Moves env L op dispatchId r s) (hp : r.pair? kind cycle = some p) :
    ∃ p', s.pair? kind cycle = some p' ∧
      p.Step (op.mints env) (.dispatch dispatchId kind cycle) p' := by
  have hstay : p.Step (op.mints env) (.dispatch dispatchId kind cycle) p :=
    .of_wakes .stay rfl fun _ hw _ => hw
  cases h with
  | keeps h => exact ⟨p, h.pair?.trans hp, hstay⟩
  | accepts h _ => exact ⟨p, h.pair?.trans hp, hstay⟩
  | cancels retain now h =>
    refine ⟨_, by rw [h.pair?, cancel_pair?, hp]; rfl, ?_⟩
    refine .of_wakes (p.decision.supersede_step false) (p.decision.supersede_claimant false)
      fun w hw _ => ?_
    split_ifs at hw
    · cases hw
    · exact hw
  | finalizes hkeeps terminal _ task now _ h =>
    obtain ⟨wake, hs, hwake⟩ := (Grows.of_inserts h).pair (terminate_pair (hkeeps.pair?.trans hp))
    refine ⟨_, hs, .of_wakes (p.decision.supersede_step true) (p.decision.supersede_claimant true)
      fun w hw hstarting => ?_⟩
    obtain ⟨v, hv, rfl⟩ := Option.map_eq_some_iff.1 (hwake w hw hstarting)
    rw [suppress_starting_rows hstarting]
    exact hv
  | serves w current now _ h =>
    obtain ⟨wake, hs, hwake⟩ := (Grows.of_inserts h).pair hp
    exact ⟨_, hs, .of_wakes .stay rfl hwake⟩
  | decides kind' cycle' call now d p' hop hcheck hd hrun =>
    have hcall := run_step hrun
    rw [setDecision_pair? hd hcall.decision.kept hcall.key]
    split_ifs with hkey
    · obtain ⟨rfl, rfl⟩ := hkey
      have hpair : r.pair? kind cycle = some ⟨d, r.wake? kind cycle⟩ :=
        pair?_eq_some.2 ⟨hd, rfl⟩
      obtain rfl := Option.some.inj (hp.symm.trans hpair)
      subst hop
      exact ⟨p', rfl, hcall.toStep⟩
    · exact ⟨p, hp, hstay⟩
  | commits q now kind' cycle' d _ h => exact commits_pair h hp
  | opens q now h =>
    obtain ⟨w, hgrows⟩ := openDecision_grows h
    obtain ⟨wake, hs, hwake⟩ := hgrows.pair hp
    exact ⟨_, hs, .of_wakes .stay rfl hwake⟩
  | replans kind' cycle' revision now h =>
    obtain ⟨d, r₁, w, hd, hstate, hinserts, hkeeps⟩ := replan_cases h
    have hmapped := (@mapDecision_pair? r kind cycle _ kind' cycle'
      (fun d => @ControllerDecision.replanned_kept now d)).trans (congrArg _ hp)
    obtain ⟨wake, hs, hwake⟩ := (Grows.of_inserts hinserts).pair hmapped
    refine ⟨_, hkeeps.pair?.trans hs, ?_⟩
    dsimp only at hwake ⊢
    split_ifs with hkey
    · obtain ⟨rfl, rfl⟩ := hkey
      have hdecision := Option.some.inj (hd.symm.trans (pair?_eq_some.1 hp).1)
      refine .of_wakes (.close p.decision.claimLeaseExpiresAt now ?_) rfl hwake
      rw [← hdecision, hstate]
      decide
    · exact .of_wakes .stay rfl hwake
  | reconcilesInflight now =>
    exact ⟨_, reconcileInflight_pair?.trans (congrArg _ hp), reconcileInflight_step⟩
  | reconcilesExhausted now =>
    exact ⟨_, reconcileExhausted_pair?.trans (congrArg _ hp), reconcileExhausted_step⟩
  | refreshes q now =>
    exact ⟨_, refreshProfile_pair?.trans (congrArg _ hp), refreshProfile_step⟩

theorem Moves.fresh (h : Moves env L op dispatchId r s) (hnone : r.decision? kind cycle = none)
    (hwake : r.wake? kind cycle = none) (hp : s.pair? kind cycle = some p) : p.Fresh := by
  have hgone : r.pair? kind cycle = none := pair?_eq_none.2 hnone
  have hkept : ∀ {t : DispatchRows} {f : DecisionRows → DecisionRows},
      t.pair? kind cycle = (r.pair? kind cycle).map f → t.pair? kind cycle = some p → p.Fresh := by
    intro t f ht hsome
    rw [ht, hgone] at hsome
    cases hsome
  cases h with
  | keeps h =>
    rw [h.pair?, hgone] at hp
    cases hp
  | accepts h _ =>
    rw [h.pair?, hgone] at hp
    cases hp
  | cancels retain now h => exact hkept cancel_pair? (h.pair? ▸ hp)
  | @finalizes r₁ _ hkeeps terminal _ task now _ h =>
    have hnone₁ : (r₁.terminate terminal task now).decision? kind cycle = none := by
      refine (decision?_of_map (fun d => d.supersede_kept true) rfl).trans ?_
      rw [pair?_eq_none.1 (hkeeps.pair?.trans hgone)]
      rfl
    have hwake₁ : (r₁.terminate terminal task now).wake? kind cycle = none := by
      refine (wake?_of_map (fun _ => suppress_key_rows) rfl).trans ?_
      rw [show r₁.wake? kind cycle = r.wake? kind cycle by unfold wake?; rw [hkeeps.wakes], hwake]
      rfl
    exact (Grows.of_inserts h).fresh hnone₁ hwake₁ hp
  | serves w current now _ h => exact (Grows.of_inserts h).fresh hnone hwake hp
  | decides kind' cycle' call now d p' hop hcheck hd hrun =>
    have hcall := run_step hrun
    rw [setDecision_pair? hd hcall.decision.kept hcall.key] at hp
    split_ifs at hp with hkey
    · obtain ⟨rfl, rfl⟩ := hkey
      exact absurd (hd.symm.trans hnone) (Option.some_ne_none d)
    · rw [hgone] at hp
      cases hp
  | commits q now kind' cycle' d _ h => exact absurd hp (commits_none h hgone)
  | opens q now h =>
    obtain ⟨w, hgrows⟩ := openDecision_grows h
    exact hgrows.fresh hnone hwake hp
  | replans kind' cycle' revision now h =>
    obtain ⟨d, r₁, w, hd, hstate, hinserts, hkeeps⟩ := replan_cases h
    have hnone₁ : (r.mapDecision kind' cycle' (.replanned now)).decision? kind cycle = none :=
      pair?_eq_none.1 ((mapDecision_pair? fun d => @ControllerDecision.replanned_kept now d).trans
        (congrArg _ hgone))
    exact (Grows.of_inserts hinserts).fresh hnone₁ hwake (hkeeps.pair? ▸ hp)
  | reconcilesInflight now => exact hkept reconcileInflight_pair? hp
  | reconcilesExhausted now => exact hkept reconcileExhausted_pair? hp
  | refreshes q now => exact hkept refreshProfile_pair? hp

end CodexFlow.Ledger
