import CodexFlow.Ledger.WakeOutcomes

/-!
# Authority over a decision

The capability of a claim is live while its decision is claimed. There is one at a time, the
revision counts what becomes of it, and once it has ended it authorizes nothing until it is minted
again. A generation is inspected once, and what its inspection has found is what is committed.
-/

namespace CodexFlow.Ledger

open Checked DecisionRows DispatchRows

variable {env : Env} {L L' : Ledger} {key : DecisionKey} {mints : String → Prop}
  {d d' : ControllerDecision} {p p' : DecisionRows} {now : Time} {digest : String}

/-! ### The rows of a decision -/

namespace Valid

theorem decisionAt (hL : L.Valid env) (hd : L.decisionAt key = some d) :
    d.GenerationsValid env key ∧ ∀ o ∈ d.outbox, o.generation = d.currentGeneration ∧
      ∀ inspected ∈ d.generation.inspected, inspected = (o.bundle, o.bundleSha256) := by
  have hreceipt : ∀ {bundleRevision : ℕ → ActionBundle → Prop},
      d.ReceiptValid env key bundleRevision → ∀ o ∈ d.outbox, o.generation = d.currentGeneration ∧
        ∀ inspected ∈ d.generation.inspected, inspected = (o.bundle, o.bundleSha256) := by
    intro bundleRevision h o ho
    obtain ⟨-, -, hgeneration, -, -, -, -, -, -, -, -, -, -, hinspected⟩ := h.2 o ho
    exact ⟨hgeneration, hinspected⟩
  cases key with
  | dispatch dispatchId kind cycle =>
    obtain ⟨wake, hp⟩ := pairAt_of_decisionAt hd
    have hvalid := (hL.decisionValid hp).1
    exact ⟨hvalid.generations, hreceipt hvalid.receipt⟩
  | program event =>
    obtain ⟨P, hP, rfl⟩ := Option.map_eq_some_iff.1 hd
    have hvalid := hL.2 (event, P) (Table.get?_eq_some.1 hP)
    exact ⟨hvalid.generations, hreceipt hvalid.receipt⟩

end Valid

namespace ControllerDecision

theorem GenerationsValid.inspection (h : d.GenerationsValid env key) {g : ControllerGeneration}
    (hg : g ∈ d.generations) {i : ControllerInspection} (hi : g.inspection = some i) :
    g.InspectionValid i := (h.2.2.2.1 g hg).1 i hi

theorem GenerationsValid.completed (h : d.GenerationsValid env key) {g : ControllerGeneration}
    (hg : g ∈ d.generations) {i : ControllerInspection} (hi : g.inspection = some i)
    (hbundle : i.bundle.isSome) : i.completedAt.isSome := by
  obtain ⟨-, -, -, hcompleted, -, hinspected⟩ := h.inspection hg hi
  rw [hbundle] at hinspected
  rw [hcompleted, of_decide_eq_true hinspected.symm]
  rfl

theorem GenerationsValid.inspected (h : d.GenerationsValid env key) {g : ControllerGeneration}
    (hg : g ∈ d.generations) (hcompleted : g.inspectionCompleted) : g.inspected.isSome := by
  obtain ⟨i, hi, hcompleted⟩ := (Option.any_eq_true _ _).1 hcompleted
  obtain ⟨-, -, -, -, -, hbundle⟩ := h.inspection hg hi
  unfold ControllerGeneration.inspected
  rw [Option.mem_def.1 hi]
  show i.bundle.isSome
  rw [hbundle]
  exact (Bool.and_eq_true_iff.1 hcompleted).2

theorem GenerationsValid.uninspected (h : d.GenerationsValid env key) (hnone : d.claimant = none) :
    ∀ g ∈ d.generations, g.inspected = none := by
  intro g hg
  by_contra hsome
  have hmodel := h.isModelClaim hg (Option.isSome_iff_ne_none.2 hsome)
  unfold ControllerDecision.isModelClaim at hmodel
  rw [hnone] at hmodel
  cases hmodel

/-! ### One step of the capability -/

def liveCapability (d : ControllerDecision) : Option String :=
  if d.state = .claimed then d.claimant.map (·.claimTokenSha256) else none

theorem liveCapability_of_ne (h : d.state ≠ .claimed) : d.liveCapability = none := if_neg h

theorem liveCapability_congr (hstate : d'.state = d.state) (hclaimant : d'.claimant = d.claimant) :
    d'.liveCapability = d.liveCapability := by
  unfold liveCapability
  rw [hstate, hclaimant]

theorem liveCapability_eq_some : d.liveCapability = some digest ↔
    d.state = .claimed ∧ ∃ c, d.claimant = some c ∧ c.claimTokenSha256 = digest := by
  unfold liveCapability
  split_ifs with h <;> simp [h]

/-- The claimant that a decision keeps while it waits for a claim has no read in flight. -/
def AuditClear (d : ControllerDecision) : Prop :=
  d.state = .awaitingClaim → d.claimant.isSome → d.generation.inspectionPending = false

theorem Step.liveCapability (h : d.Step mints key d') (hclear : d.AuditClear) :
    d'.liveCapability = d.liveCapability ∨ d'.liveCapability = none ∨
      d.liveCapability = none ∧ d.revision < d'.revision ∧
        ∃ c, d'.liveCapability = some c ∧ mints c := by
  cases h with
  | stay => exact .inl rfl
  | take c lease used reason now hmint hopen hfree hclaim =>
    refine .inr (.inr ⟨?_, Nat.lt_succ_self _, c.claimTokenSha256, rfl, hmint⟩)
    obtain hnone | ⟨-, hstate⟩ := hfree
    · unfold ControllerDecision.liveCapability
      rw [hnone]
      split_ifs <;> rfl
    · exact liveCapability_of_ne (by rw [hstate]; decide)
  | extend => exact .inl rfl
  | regenerate _ h =>
    rw [h.same]
    exact .inl rfl
  | attend | release | reopen | close => exact .inr (.inl rfl)
  | conclude _ h now hstate hmodel hpending =>
    obtain hstate | hstate : d.state = .awaitingClaim ∨ d.state = .claimed := by
      simpa using hstate
    · obtain ⟨c, hc, -⟩ := (Option.any_eq_true _ _).1 hmodel
      have hread := hclear hstate (by rw [Option.mem_def.1 hc]; rfl)
      rw [hpending] at hread
      cases hread
    · refine .inl ?_
      rw [h.same]
      exact liveCapability_congr hstate.symm rfl
  | deactivate => exact .inr (.inl rfl)
  | deliver state _ _ _ _ _ _ hto =>
    refine .inr (.inl (liveCapability_of_ne ?_))
    rintro rfl
    exact absurd hto (by decide)
  | commit _ _ _ state _ _ _ hto =>
    refine .inr (.inl (liveCapability_of_ne ?_))
    rintro rfl
    exact absurd hto (by decide)
  | acknowledge d₁ _ now hd₁ _ =>
    have hclaimant := (@failed_acknowledge_kept _ now _ _ _ hd₁).2.1
    by_cases hstate : (d₁.acknowledge now).state = .claimed
    · refine .inl (liveCapability_congr ?_ hclaimant)
      obtain rfl | ⟨-, rfl⟩ := hd₁
      · unfold ControllerDecision.acknowledge at hstate ⊢
        split_ifs at hstate ⊢
        exact rfl
      · cases hstate
    · exact .inr (.inl (liveCapability_of_ne hstate))
  | fail => exact .inr (.inl rfl)

/-- The lease of an inspected model claim is the one that ends under the same revision, and a
superseded claim was not given back. -/
theorem Step.ended (h : d.Step mints key d') {digest : String}
    (hlive : d.liveCapability = some digest) (hended : d'.liveCapability ≠ some digest) :
    d.revision < d'.revision ∨ d'.state = .superseded ∨
      d.isModelClaim ∧ d.generation.inspectionCompleted ∧ ∃ now, d' = d.deactivate now := by
  obtain ⟨hstate, c, hc, hdigest⟩ := liveCapability_eq_some.1 hlive
  cases h with
  | stay | extend => exact absurd (liveCapability_eq_some.2 ⟨hstate, c, hc, hdigest⟩) hended
  | regenerate _ h =>
    rw [h.same] at hended
    exact absurd hlive hended
  | take => exact .inl (Nat.lt_succ_self _)
  | attend _ h | release _ h =>
    rw [h.same]
    exact .inl (Nat.lt_succ_self _)
  | reopen _ _ _ _ hattended =>
    rw [hattended] at hstate
    cases hstate
  | conclude _ h =>
    refine absurd ((liveCapability_congr hstate.symm ?_).trans hlive) hended
    rw [h.same]
  | deactivate now _ hmodel hinspected => exact .inr (.inr ⟨hmodel, hinspected.1, now, rfl⟩)
  | deliver _ _ _ _ _ _ hpending =>
    rw [hpending] at hstate
    cases hstate
  | close => exact .inr (.inl rfl)
  | commit => exact .inl (Nat.lt_succ_self _)
  | acknowledge d₁ _ now hd₁ _ =>
    obtain rfl | ⟨hcommitted, -⟩ := hd₁
    · refine absurd ((liveCapability_congr ?_ (acknowledge_kept _).2.1).trans hlive) hended
      unfold ControllerDecision.acknowledge
      rw [hstate]
      rfl
    · rw [hcommitted] at hstate
      cases hstate
  | fail _ _ hcommitted =>
    rw [hcommitted] at hstate
    cases hstate

theorem Step.committed (h : d.Step mints key d') (hnone : d.action = none)
    (hsome : d'.action.isSome) : d.revision < d'.revision := by
  have hkept : d'.action = d.action → d.revision < d'.revision := by
    intro hsame
    rw [hsame, hnone] at hsome
    cases hsome
  cases h with
  | commit => exact Nat.lt_succ_self _
  | regenerate _ h | attend _ h | release _ h | reopen _ h | conclude _ h =>
    have haction := congrArg ControllerDecision.action h.same
    exact hkept haction
  | acknowledge _ _ now hd₁ _ => exact hkept (@failed_acknowledge_kept _ now _ _ _ hd₁).2.2.1
  | _ => exact hkept rfl

/-! ### Inspections of one step -/

/-- Only the current generation has an inspected bundle. -/
def EarlierUninspected (d : ControllerDecision) : Prop := ∀ g ∈ d.earlier, g.inspected = none

theorem EarlierUninspected.congr (h : d.EarlierUninspected)
    (hearlier : d'.earlier.map (·.inspection) = d.earlier.map (·.inspection)) :
    d'.EarlierUninspected := by
  intro g hg
  have hmem : g.inspection ∈ d.earlier.map (·.inspection) := hearlier ▸ List.mem_map_of_mem hg
  obtain ⟨g', hg', hsame⟩ := List.mem_map.1 hmem
  have hnone := h g' hg'
  unfold ControllerGeneration.inspected at hnone ⊢
  rw [← hsame]
  exact hnone

theorem earlierUninspected_of_free (h : d.GenerationsValid env key) (hfree : d.claimant = none) :
    d.EarlierUninspected :=
  fun g hg => h.uninspected hfree g (List.mem_append_left _ hg)

theorem Step.earlierUninspected (h : d.Step mints key d') (hvalid : d'.GenerationsValid env key)
    (hd : d.EarlierUninspected) : d'.EarlierUninspected := by
  cases h with
  | regenerate _ _ _ hearlier => exact hd.congr hearlier
  | attend | release => exact earlierUninspected_of_free hvalid rfl
  | reopen _ h _ _ _ _ hnone =>
    refine earlierUninspected_of_free hvalid ?_
    rw [h.same]
    exact hnone
  | conclude _ _ _ _ _ _ hearlier => exact hd.congr (congrArg _ hearlier)
  | acknowledge _ _ now hd₁ _ =>
    exact hd.congr (congrArg _ (@failed_acknowledge_kept _ now _ _ _ hd₁).2.2.2.2.1)
  | _ => exact hd.congr rfl

end ControllerDecision

/-! ### Every reachable ledger -/

theorem Reachable.valid (hL : L.Reachable env) : L.Valid env := hL.good.to_valid

theorem Reachable.next (hL : L.Reachable env) (op : Op) : (L.next env op).Reachable env := by
  obtain ⟨ops, rfl⟩ := hL
  exact ⟨ops ++ [op], (Machine.run_concat ..).symm⟩

theorem Reachable.run (hL : L.Reachable env) (ops : List Op) :
    (Machine.run (Ledger.next env) L ops).Reachable env :=
  Machine.invariant (I := fun L : Ledger => L.Reachable env) (fun _ op h => h.next op) hL ops

/-- A decision of a program that waits for a claim has no claimant. -/
theorem Reachable.programFree (hL : L.Reachable env) (hkey : key.dispatchId? = none)
    (hp : L.pairAt key = some p) :
    p.decision.state ∈ [.pendingDelivery, .awaitingClaim] → p.decision.claimant = none := by
  refine hL.pair (I := fun p => p.decision.state ∈ [.pendingDelivery, .awaitingClaim] →
    p.decision.claimant = none) (fun p hfresh _ => hfresh.claimant) ?_ hp
  intro L op p p' _ _ _ _ hstep hfree hstate
  have hne : ∀ {state : ControllerDecisionState}, state ∈ [.pendingDelivery, .awaitingClaim] →
      state ∉ [.claimed, .superseded, .humanAttentionRequired, .actionCommitted, .acknowledged] := by
    intro state
    cases state <;> decide
  obtain hstep := hstep.decision
  generalize p.decision = d at hstep hfree
  generalize p'.decision = d' at hstep hstate ⊢
  cases hstep with
  | stay => exact hfree hstate
  | take => exact absurd (by simp) (hne hstate)
  | extend _ _ _ hclaimed =>
    refine absurd ?_ (hne hstate)
    show d.state ∈ _
    rw [hclaimed]
    decide
  | regenerate _ h =>
    rw [h.same] at hstate ⊢
    exact hfree hstate
  | attend | release => rfl
  | reopen _ h _ _ _ _ hnone =>
    rw [h.same]
    exact hnone
  | conclude => exact absurd (by simp) (hne hstate)
  | deactivate _ _ _ _ hdispatch => exact absurd hkey hdispatch
  | deliver _ _ _ _ _ _ hpending => exact hfree (by rw [hpending]; decide)
  | close => exact absurd (by simp) (hne hstate)
  | commit _ _ _ state _ _ _ hto =>
    refine absurd ?_ (hne hstate)
    show state ∈ _
    revert hto
    cases state <;> decide
  | acknowledge d₁ _ now hd₁ _ =>
    have hclaimant := (@ControllerDecision.failed_acknowledge_kept _ now _ _ _ hd₁).2.1
    rw [hclaimant]
    unfold ControllerDecision.acknowledge at hstate
    split_ifs at hstate with hcommitted hattended
    · exact absurd (by simp) (hne hstate)
    · exact absurd (by simp) (hne hstate)
    · obtain rfl | ⟨-, rfl⟩ := hd₁
      · exact hfree hstate
      · exact absurd (by simp) (hne hstate)
  | fail => exact absurd (by simp) (hne hstate)

theorem Reachable.auditClear (hL : L.Reachable env) (hp : L.pairAt key = some p) :
    p.decision.AuditClear := by
  intro hstate hclaimant
  cases key with
  | dispatch dispatchId kind cycle =>
    have hvalid := (hL.valid.decisionValid hp).1
    obtain ⟨-, -, hinspected⟩ := hvalid.unclaimed (by rw [hstate]; decide) hclaimant
    obtain ⟨bundle, hbundle⟩ := Option.isSome_iff_exists.1 hinspected
    obtain ⟨i, hi, hbundle⟩ := Option.bind_eq_some_iff.1 hbundle
    have hover := hvalid.generations.completed (List.mem_append_right _ List.mem_cons_self) hi
      (by rw [hbundle]; rfl)
    unfold ControllerGeneration.inspectionPending ControllerInspection.isPending
    rw [hi, Option.any_some, ← Option.not_isSome, hover]
    rfl
  | program event =>
    have hnone := hL.programFree rfl hp (by rw [hstate]; decide)
    rw [hnone] at hclaimant
    cases hclaimant

theorem Reachable.earlierUninspected (hL : L.Reachable env) (hp : L.pairAt key = some p) :
    p.decision.EarlierUninspected := by
  refine hL.pair (I := fun p => p.decision.EarlierUninspected) (fun p hfresh g hg => ?_) ?_ hp
  · rw [hfresh.earlier] at hg
    cases hg
  · intro L op p p' _ hvalid _ hp' hstep hd
    exact hstep.decision.earlierUninspected (hvalid.decisionAt (decisionAt_of_pairAt hp')).1 hd

/-! ### Calls on a decision -/

def decisionOp (key : DecisionKey) (capable : Bool) (call : DecisionOp) (now : Time) : Op :=
  match key with
  | .dispatch dispatchId kind cycle => .decision dispatchId kind cycle call now
  | .program event => .programDecision event capable call now

theorem perform_call {capable : Bool} {call : DecisionOp}
    (h : L.perform env (decisionOp key capable call now) = .ok L') :
    ∃ p p' context, L.pairAt key = some p ∧ call.run env context now p = .ok p' ∧
      L'.decisionAt key = some p'.decision := by
  obtain ⟨-, hbody, -⟩ := perform_ok.1 h
  cases key with
  | dispatch dispatchId kind cycle =>
    simp only [decisionOp, body, onDispatchDecision, bind_eq_ok] at hbody
    obtain ⟨⟨⟩, hcheck, hbody⟩ := hbody
    unfold onDispatch at hbody
    split at hbody
    · cases hbody
    rename_i r hr
    simp only [bind_eq_ok, pure_eq_ok] at hbody
    obtain ⟨r', hr', rfl⟩ := hbody
    unfold onDecision at hr'
    split at hr'
    · cases hr'
    rename_i d hd
    simp only [bind_eq_ok, pure_eq_ok] at hr'
    obtain ⟨p', hrun, rfl⟩ := hr'
    refine ⟨⟨d, r.wake? kind cycle⟩, p', _, ?_, hrun, ?_⟩
    · exact Option.bind_eq_some_iff.2 ⟨r, hr, pair?_eq_some.2 ⟨hd, rfl⟩⟩
    · refine decisionAt_of_pairAt ((pairAt_set hr).trans ?_)
      have hcall := run_step hrun
      rw [setDecision_pair? hd hcall.decision.kept hcall.key, if_pos ⟨rfl, rfl⟩]
  | program event =>
    simp only [decisionOp, body, onProgramDecision, bind_eq_ok] at hbody
    obtain ⟨⟨⟩, -, hbody⟩ := hbody
    split at hbody
    · cases hbody
    rename_i P hP
    simp only [steps_ok] at hbody
    obtain ⟨-, p', hrun, rfl⟩ := hbody
    refine ⟨⟨P.decision, none⟩, p', _, ?_, hrun, ?_⟩
    · simp [pairAt, hP]
    · simp [decisionAt, Table.get?_set_self hP]

/-! ### The revision -/

/-- What the revision says of a step: it never falls, and it rises with every claim, with every
commit and when a claim is given back. Only the lease of an inspected model claim ends under the
revision that its bundle was made for. -/
structure ControllerDecision.Advances (d d' : ControllerDecision) : Prop where
  le : d.revision ≤ d'.revision
  claimed : ∀ digest, d'.liveCapability = some digest → d.liveCapability ≠ some digest →
    d.revision < d'.revision
  released : ∀ digest, d.liveCapability = some digest → d'.liveCapability ≠ some digest →
    d.revision < d'.revision ∨ d'.state = .superseded ∨
      d.isModelClaim ∧ d.generation.inspectionCompleted ∧ ∃ now, d' = d.deactivate now
  committed : d.action = none → d'.action.isSome → d.revision < d'.revision

theorem Reachable.advances (hL : L.Reachable env) (hd : L.decisionAt key = some d) (op : Op) :
    ∃ d', (L.next env op).decisionAt key = some d' ∧ d.Advances d' := by
  obtain ⟨wake, hp⟩ := pairAt_of_decisionAt hd
  obtain ⟨p', hp', hstep⟩ := next_pair env op hp
  have hstep := hstep.decision
  refine ⟨p'.decision, decisionAt_of_pairAt hp', hstep.revision_le, ?_, ?_, hstep.committed⟩
  · intro digest hlive hnot
    obtain hsame | hnone | ⟨-, hlt, -⟩ := hstep.liveCapability (hL.auditClear hp)
    · exact absurd (hsame.symm.trans hlive) hnot
    · rw [hnone] at hlive
      cases hlive
    · exact hlt
  · exact fun digest => hstep.ended

def DecisionOp.keepsClaim : DecisionOp → Bool
  | .renew _ => true
  | .deferRateLimit _ => true
  | _ => false

/-- The digest of the capability that such a call presents. -/
def DecisionOp.presents (env : Env) : DecisionOp → Option String
  | .renew q => some (env.sha256 q.token)
  | .deferRateLimit q => some (env.sha256 q.token)
  | _ => none

theorem heldBy_live {claimantId : String} (hheld : d.heldBy digest claimantId)
    (hstate : d.state = .claimed) : d.liveCapability = some digest := by
  obtain ⟨c, hc, hheld⟩ := (Option.any_eq_true _ _).1 hheld
  exact ControllerDecision.liveCapability_eq_some.2
    ⟨hstate, c, hc, of_decide_eq_true (Bool.and_eq_true_iff.1 hheld).1⟩

/-- A renewal or a deferral presents the live capability and raises the revision. -/
theorem keepsClaim_spec {capable : Bool} {call : DecisionOp} (hcall : call.keepsClaim)
    (h : L.perform env (decisionOp key capable call now) = .ok L') :
    ∃ d d', L.decisionAt key = some d ∧ L'.decisionAt key = some d' ∧
      d.liveCapability = call.presents env ∧ d'.revision = d.revision + 1 := by
  obtain ⟨p, p', context, hp, hrun, hd'⟩ := perform_call h
  refine ⟨p.decision, p'.decision, decisionAt_of_pairAt hp, hd', ?_⟩
  cases call with
  | renew q =>
    have hrenew : p.renew env q now = .ok p' := hrun
    simp only [renew, steps_ok] at hrenew
    obtain ⟨hheld, ⟨-, hstate⟩, -, rfl⟩ := hrenew
    exact ⟨heldBy_live hheld hstate, rfl⟩
  | deferRateLimit q =>
    have hdefer : p.deferRateLimit env q now = .ok p' := hrun
    simp only [deferRateLimit, steps_ok] at hdefer
    obtain ⟨-, ⟨-, -, hstate, -, hheld, -⟩, -, rfl⟩ := hdefer
    exact ⟨heldBy_live hheld hstate, rfl⟩
  | _ => cases hcall

/-- A submission under a capability is answered with an earlier receipt, or presents the live
capability. -/
theorem submission_spec {q : SubmitRequest} (hcapability : q.allowRecovered = false)
    (h : L.perform env (.controllerActions q now) = .ok L') :
    L' = L ∨ ∃ d, L.decisionAt q.bundle.decisionId = some d ∧
      d.liveCapability = some (env.sha256 q.token) := by
  obtain ⟨-, hbody, -⟩ := perform_ok.1 h
  simp only [body, submitControllerActions, bind_eq_ok] at hbody
  obtain ⟨⟨⟩, -, ⟨⟩, -, hbody⟩ := hbody
  split at hbody
  · simp only [bind_eq_ok, pure_eq_ok] at hbody
    obtain ⟨⟨⟩, -, rfl⟩ := hbody
    exact .inl rfl
  split at hbody
  · cases hbody
  rename_i d hd
  simp only [bind_eq_ok] at hbody
  obtain ⟨⟨⟩, hauthorize, -⟩ := hbody
  refine .inr ⟨d, hd, ?_⟩
  unfold SubmitRequest.authorize SubmitRequest.isHeld at hauthorize
  rw [hcapability] at hauthorize
  simp only [Bool.false_or, checks_ok, Bool.false_eq_true, if_false] at hauthorize
  exact heldBy_live hauthorize.1 hauthorize.2.1

/-! ### Capabilities that have ended -/

def liveCapabilities (L : Ledger) (key : DecisionKey) : List String :=
  (L.decisions.filter (·.1 = key)).filterMap (·.2.liveCapability)

theorem liveCapabilities_length (hL : L.Valid env) (key : DecisionKey) :
    (L.liveCapabilities key).length ≤ 1 := by
  have hcount := List.nodup_iff_count_le_one.1 (decisions_nodup hL) key
  rw [List.count, List.countP_map, List.countP_eq_length_filter] at hcount
  exact (List.length_filterMap_le ..).trans hcount

structure Unauthorized (env : Env) (L : Ledger) (key : DecisionKey) (digest : String) : Prop where
  keeps : ∀ capable (call : DecisionOp) now, call.presents env = some digest →
    ∃ e, L.perform env (decisionOp key capable call now) = .error e
  submits : ∀ (q : SubmitRequest) now, q.bundle.decisionId = key → q.allowRecovered = false →
    env.sha256 q.token = digest → L.next env (.controllerActions q now) = L

theorem unauthorized_of_ended (hd : L.decisionAt key = some d)
    (hended : d.liveCapability ≠ some digest) : L.Unauthorized env key digest where
  keeps := by
    intro capable call now hpresents
    have hkeeps : call.keepsClaim := by
      cases call <;> first | rfl | cases hpresents
    cases h : L.perform env (decisionOp key capable call now) with
    | error e => exact ⟨e, rfl⟩
    | ok L' =>
      obtain ⟨d₁, -, hd₁, -, hlive, -⟩ := keepsClaim_spec hkeeps h
      obtain rfl := Option.some.inj (hd.symm.trans hd₁)
      exact absurd (hlive.trans hpresents) hended
  submits := by
    rintro q now rfl hcapability rfl
    unfold next
    cases h : L.perform env (.controllerActions q now) with
    | error e => rfl
    | ok L' =>
      obtain rfl | ⟨d₁, hd₁, hlive⟩ := submission_spec hcapability h
      · rfl
      · obtain rfl := Option.some.inj (hd.symm.trans hd₁)
        exact absurd hlive hended

/-- A capability that has ended stays so until it is minted again. -/
theorem Reachable.ended (hL : L.Reachable env) (hd : L.decisionAt key = some d)
    (hended : d.liveCapability ≠ some digest) (ops : List Op)
    (hfresh : ∀ op ∈ ops, ¬op.mints env digest) :
    ∃ d', (Machine.run (Ledger.next env) L ops).decisionAt key = some d' ∧
      d'.liveCapability ≠ some digest := by
  induction ops generalizing L d with
  | nil => exact ⟨d, hd, hended⟩
  | cons op ops ih =>
    obtain ⟨wake, hp⟩ := pairAt_of_decisionAt hd
    obtain ⟨p', hp', hstep⟩ := next_pair env op hp
    refine ih (hL.next op) (decisionAt_of_pairAt hp') ?_ fun op hop =>
      hfresh op (List.mem_cons_of_mem _ hop)
    obtain hsame | hnone | ⟨-, -, c, hc, hmints⟩ :=
      hstep.decision.liveCapability (hL.auditClear hp)
    · rw [hsame]
      exact hended
    · rw [hnone]
      exact fun h => nomatch h
    · rw [hc]
      rintro ⟨⟩
      exact hfresh op List.mem_cons_self hmints

/-! ### One inspection for each generation -/

def inspectionAt (L : Ledger) (key : DecisionKey) (n : ℕ) : Option ControllerInspection :=
  ((L.decisionAt key).bind (·.generationAt n)).bind (·.inspection)

def inspectedAt (L : Ledger) (key : DecisionKey) (n : ℕ) : Option (ActionBundle × String) :=
  (L.inspectionAt key n).bind (·.bundle)

theorem inspectionAt_eq_some {n : ℕ} {i : ControllerInspection} :
    L.inspectionAt key n = some i ↔ ∃ d g, L.decisionAt key = some d ∧ d.generationAt n = some g ∧
      g.inspection = some i := by
  simp only [inspectionAt, Option.bind_eq_some_iff]
  constructor
  · rintro ⟨g, ⟨d, hd, hg⟩, hi⟩
    exact ⟨d, g, hd, hg, hi⟩
  · rintro ⟨d, g, hd, hg, hi⟩
    exact ⟨g, ⟨d, hd, hg⟩, hi⟩

theorem next_inspectionAt {n : ℕ} {i : ControllerInspection} (hi : L.inspectionAt key n = some i)
    (op : Op) : ∃ i', (L.next env op).inspectionAt key n = some i' ∧ i'.startedAt = i.startedAt ∧
      (i.completedAt.isSome → i' = i) := by
  obtain ⟨d, g, hd, hg, hi⟩ := inspectionAt_eq_some.1 hi
  obtain ⟨wake, hp⟩ := pairAt_of_decisionAt hd
  obtain ⟨p', hp', hstep⟩ := next_pair env op hp
  obtain ⟨g', hg', hcontinues⟩ := hstep.decision.generationAt hg
  obtain ⟨i', hi', hstarted, hover⟩ := hcontinues i hi
  exact ⟨i', inspectionAt_eq_some.2 ⟨p'.decision, g', decisionAt_of_pairAt hp', hg', hi'⟩,
    hstarted, hover⟩

theorem next_inspectedAt (hL : L.Valid env) {n : ℕ} {bundle : ActionBundle × String}
    (hbundle : L.inspectedAt key n = some bundle) (op : Op) :
    (L.next env op).inspectedAt key n = some bundle := by
  obtain ⟨i, hi, hbundle⟩ := Option.bind_eq_some_iff.1 hbundle
  obtain ⟨d, g, hd, hg, hgi⟩ := inspectionAt_eq_some.1 hi
  have hover := (hL.decisionAt hd).1.completed
    (List.mem_of_getElem? (ControllerDecision.generationAt_eq_some.1 hg).2) hgi (by rw [hbundle]; rfl)
  obtain ⟨i', hi', -, hsame⟩ := next_inspectionAt hi op
  rw [hsame hover] at hi'
  exact Option.bind_eq_some_iff.2 ⟨i, hi', hbundle⟩

def Op.decisionCall? : Op → Option (DecisionKey × DecisionOp)
  | .decision dispatchId kind cycle call _ => some (.dispatch dispatchId kind cycle, call)
  | .programDecision event _ call _ => some (.program event, call)
  | _ => none

/-- The call reserves the inspection of the `n`th generation of a decision. -/
def reserves (env : Env) (key : DecisionKey) (n : ℕ) (L : Ledger) (op : Op) : Bool :=
  match op.decisionCall? with
  | some (key', .reserveInspection _) =>
    key' = key && (L.decisionAt key).any (·.currentGeneration = n) &&
      (L.perform env op).toOption.isSome
  | _ => false

/-- The call changes the bundle that the `n`th generation of a decision has stored. -/
def storesBundle (env : Env) (key : DecisionKey) (n : ℕ) (L : Ledger) (op : Op) : Bool :=
  (L.next env op).inspectedAt key n ≠ L.inspectedAt key n

theorem reserves_spec {n : ℕ} {op : Op} (h : L.reserves env key n op) :
    L.inspectionAt key n = none ∧ ((L.next env op).inspectionAt key n).isSome := by
  unfold reserves at h
  split at h
  swap
  · cases h
  rename_i key' minted hop
  simp only [Bool.and_eq_true, decide_eq_true_eq] at h
  obtain ⟨⟨rfl, hcurrent⟩, hok⟩ := h
  obtain ⟨capable, now, rfl⟩ : ∃ capable now, op = decisionOp key' capable (.reserveInspection minted) now := by
    unfold Op.decisionCall? at hop
    split at hop
    · cases hop
      exact ⟨true, _, rfl⟩
    · cases hop
      exact ⟨_, _, rfl⟩
    · cases hop
  obtain ⟨d, hd, hn⟩ := (Option.any_eq_true _ _).1 hcurrent
  obtain rfl := of_decide_eq_true hn
  cases hperform : L.perform env (decisionOp key' capable (.reserveInspection minted) now) with
  | error e =>
    rw [hperform] at hok
    cases hok
  | ok L' =>
    obtain ⟨p, p', context, hp, hrun, hd'⟩ := perform_call hperform
    obtain rfl := Option.some.inj ((decisionAt_of_pairAt hp).symm.trans hd)
    have hreserve : p.reserveInspection env minted now = .ok p' := hrun
    simp only [reserveInspection, steps_ok] at hreserve
    obtain ⟨-, -, -, -, hnone, digest, -, rfl⟩ := hreserve
    constructor
    · have hgeneration := p.decision.generationAt_current
      simp [inspectionAt, Option.mem_def.1 hd, hgeneration, Option.isNone_iff_eq_none.1 hnone]
    · rw [next_of_perform hperform]
      refine Option.isSome_iff_exists.2 ⟨_, inspectionAt_eq_some.2
        ⟨_, _, hd', ControllerDecision.generationAt_current _, rfl⟩⟩

theorem count_reserves (hL : L.Valid env) (key : DecisionKey) (n : ℕ) (ops : List Op) :
    Machine.count (next env) (reserves env key n) L ops ≤ 1 := by
  have hcount := @Machine.count_le_one _ _ (next env) (fun L => L.Valid env) (reserves env key n)
    (fun L => (L.inspectionAt key n).isSome) (fun L op hL => next_valid hL op) ?_ ?_ _ hL ops
  · split_ifs at hcount <;> omega
  · intro L op hL hdone
    obtain ⟨i, hi⟩ := Option.isSome_iff_exists.1 hdone
    obtain ⟨i', hi', -⟩ := next_inspectionAt hi op
    show ((L.next env op).inspectionAt key n).isSome
    rw [hi']
    rfl
  · intro L op hL hreserves
    obtain ⟨hnone, hsome⟩ := reserves_spec hreserves
    refine ⟨?_, hsome⟩
    show (L.inspectionAt key n).isSome = false
    rw [hnone]
    rfl

theorem count_storesBundle (hL : L.Valid env) (key : DecisionKey) (n : ℕ) (ops : List Op) :
    Machine.count (next env) (storesBundle env key n) L ops ≤ 1 := by
  have hcount := @Machine.count_le_one _ _ (next env) (fun L => L.Valid env)
    (storesBundle env key n) (fun L => (L.inspectedAt key n).isSome)
    (fun L op hL => next_valid hL op) ?_ ?_ _ hL ops
  · split_ifs at hcount <;> omega
  · intro L op hL hdone
    obtain ⟨bundle, hbundle⟩ := Option.isSome_iff_exists.1 hdone
    show ((L.next env op).inspectedAt key n).isSome
    rw [next_inspectedAt hL hbundle op]
    rfl
  · intro L op hL hstores
    have hchanged : (L.next env op).inspectedAt key n ≠ L.inspectedAt key n :=
      of_decide_eq_true hstores
    have hnone : L.inspectedAt key n = none := by
      by_contra hsome
      obtain ⟨bundle, hbundle⟩ := Option.ne_none_iff_exists'.1 hsome
      exact hchanged ((next_inspectedAt hL hbundle op).trans hbundle.symm)
    rw [hnone] at hchanged
    refine ⟨?_, Option.isSome_iff_ne_none.2 hchanged⟩
    show (L.inspectedAt key n).isSome = false
    rw [hnone]
    rfl

/-- What is committed after a completed inspection is what the inspection has found. -/
theorem Reachable.committed (hL : L.Reachable env) (hd : L.decisionAt key = some d)
    {o : ActionOutbox} (ho : d.outbox = some o) {g : ControllerGeneration}
    (hg : g ∈ d.generations) (hcompleted : g.inspectionCompleted) :
    g.inspected = some (o.bundle, o.bundleSha256) := by
  obtain ⟨wake, hp⟩ := pairAt_of_decisionAt hd
  obtain ⟨hgenerations, hreceipt⟩ := hL.valid.decisionAt hd
  have hinspected := hgenerations.inspected hg hcompleted
  obtain hearlier | rfl : g ∈ d.earlier ∨ g = d.generation := by
    simpa [ControllerDecision.generations] using hg
  · rw [hL.earlierUninspected hp g hearlier] at hinspected
    cases hinspected
  · obtain ⟨inspected, hinspected⟩ := Option.isSome_iff_exists.1 hinspected
    rw [hinspected, (hreceipt o ho).2 inspected hinspected]

/-! ### The authority over a decision -/

/-- A decision of any reachable ledger has one live capability, and any call advances it. A
capability that has ended authorizes nothing until it is minted again: what may still be answered
is a repeated submission, with the receipt of the bundle that was committed. Each generation is
inspected once, and an inspected bundle is the one that is committed. -/
theorem controller_authority (hL : L.Reachable env) (hd : L.decisionAt key = some d) :
    (L.liveCapabilities key).length ≤ 1 ∧
      (∀ op, ∃ d', (L.next env op).decisionAt key = some d' ∧ d.Advances d') ∧
      (∀ capable (call : DecisionOp) now L', call.keepsClaim →
        L.perform env (decisionOp key capable call now) = .ok L' →
        ∃ d', L'.decisionAt key = some d' ∧ d.revision < d'.revision) ∧
      (∀ digest, d.liveCapability ≠ some digest → ∀ ops : List Op,
        (∀ op ∈ ops, ¬op.mints env digest) →
          Unauthorized env (Machine.run (next env) L ops) key digest) ∧
      (∀ n (ops : List Op), Machine.count (next env) (reserves env key n) L ops ≤ 1 ∧
        Machine.count (next env) (storesBundle env key n) L ops ≤ 1) ∧
      ∀ o ∈ d.outbox, ∀ g ∈ d.generations, g.inspectionCompleted →
        g.inspected = some (o.bundle, o.bundleSha256) := by
  refine ⟨liveCapabilities_length hL.valid key, hL.advances hd, ?_, ?_, ?_, ?_⟩
  · intro capable call now L' hcall h
    obtain ⟨d₁, d', hd₁, hd', -, hrevision⟩ := keepsClaim_spec hcall h
    obtain rfl := Option.some.inj (hd.symm.trans hd₁)
    exact ⟨d', hd', hrevision ▸ Nat.lt_succ_self _⟩
  · intro digest hended ops hfresh
    obtain ⟨d', hd', hended'⟩ := hL.ended hd hended ops hfresh
    exact unauthorized_of_ended hd' hended'
  · exact fun n ops => ⟨count_reserves hL.valid key n ops, count_storesBundle hL.valid key n ops⟩
  · exact fun o ho g hg hcompleted => hL.committed hd ho hg hcompleted

/-! ### A claim that ends in a completed inspection -/

def Env.digesting : Env :=
  { Env.sample with sha256 := fun text => if text = "token" then tokenSha256 else nonceSha256 }

def inspectedRun : List Op :=
  opened ++ [decisionOp sampleKey true (sampleClaim .model) 3,
    decisionOp sampleKey true (.reserveInspection "read") 4,
    decisionOp sampleKey true (.completeInspection
      { outcome := some .completed, token := some "read"
        bundle := some (.dispatch (sampleBundle [.acknowledgeOnly])) }) 5]

def reapedRun : List Op := inspectedRun ++ [decisionOp sampleKey true .reap (seconds 600)]

/-- A recovery commits what the inspection has found. -/
def recovery : Op :=
  .controllerActions
    { bundle := sampleBundle [.acknowledgeOnly], claimantId := "", token := "", allowRecovered := true }
    (seconds 601)

theorem inspectedRun_claimed :
    ∃ d, (Machine.run (next .digesting) {} inspectedRun).decisionAt sampleKey = some d ∧
      d.liveCapability = some tokenSha256 ∧ d.revision = 1 := by
  have hrun : ((Machine.run (next .digesting) {} inspectedRun).decisionAt sampleKey).any fun d =>
      d.liveCapability = some tokenSha256 && d.revision = 1 := by
    decide +kernel
  obtain ⟨d, hd, h⟩ := (Option.any_eq_true _ _).1 hrun
  rw [Bool.and_eq_true, decide_eq_true_eq, decide_eq_true_eq] at h
  exact ⟨d, hd, h⟩

theorem reapedRun_waits :
    ∃ d, (Machine.run (next .digesting) {} reapedRun).decisionAt sampleKey = some d ∧
      d.liveCapability = none ∧ d.state = .awaitingClaim ∧ d.revision = 1 := by
  have hrun : ((Machine.run (next .digesting) {} reapedRun).decisionAt sampleKey).any fun d =>
      d.liveCapability = none && (d.state = .awaitingClaim && d.revision = 1) := by
    decide +kernel
  obtain ⟨d, hd, h⟩ := (Option.any_eq_true _ _).1 hrun
  rw [Bool.and_eq_true, Bool.and_eq_true, decide_eq_true_eq, decide_eq_true_eq,
    decide_eq_true_eq] at h
  exact ⟨d, hd, h⟩

/-- The reaped capability is minted by no call of a recovery. -/
theorem reapedRun_unauthorized :
    Unauthorized .digesting
      (Machine.run (next .digesting) (Machine.run (next .digesting) {} reapedRun) [recovery])
      sampleKey tokenSha256 := by
  obtain ⟨d, hd, hended, -⟩ := reapedRun_waits
  refine (controller_authority ⟨_, rfl⟩ hd).2.2.2.1 tokenSha256 ?_ [recovery] ?_
  · rw [hended]
    exact fun h => nomatch h
  · intro op hop
    obtain rfl := List.mem_singleton.1 hop
    exact id

/-- The reap gives the claim back under the same revision, and the capability that it ended is still
answered with the receipt of what was recovered. -/
theorem reapedRun_same_revision :
    (¬∀ (env : Env) (L : Ledger) (key : DecisionKey) (op : Op) (digest : String)
        (d d' : ControllerDecision), L.Reachable env → L.decisionAt key = some d →
        (L.next env op).decisionAt key = some d' → d.liveCapability = some digest →
        d'.liveCapability ≠ some digest → d'.state ≠ .superseded → d.revision < d'.revision) ∧
      ¬∀ (env : Env) (L : Ledger) (d : ControllerDecision) (q : SubmitRequest) (ops : List Op)
        (now : Time), L.Reachable env → L.decisionAt q.bundle.decisionId = some d →
        q.allowRecovered = false → d.liveCapability ≠ some (env.sha256 q.token) →
        (∀ op ∈ ops, ¬op.mints env (env.sha256 q.token)) →
        ∃ e, (Machine.run (next env) L ops).perform env (.controllerActions q now) = .error e := by
  constructor
  · intro h
    obtain ⟨d, hd, hlive, hrevision⟩ := inspectedRun_claimed
    obtain ⟨d', hd', hended, hstate, hrevision'⟩ := reapedRun_waits
    have hlast : Machine.run (next .digesting) {} reapedRun =
        (Machine.run (next .digesting) {} inspectedRun).next .digesting
          (decisionOp sampleKey true .reap (seconds 600)) := Machine.run_concat ..
    have hlt := h .digesting _ sampleKey (decisionOp sampleKey true .reap (seconds 600))
      tokenSha256 d d' ⟨_, rfl⟩ hd (by rw [← hlast]; exact hd') hlive (by rw [hended]; simp)
      (by rw [hstate]; decide)
    omega
  · intro h
    obtain ⟨d, hd, hended, -⟩ := reapedRun_waits
    obtain ⟨e, he⟩ := h .digesting _ d (sampleSubmission [.acknowledgeOnly]) [recovery]
      (seconds 602) ⟨reapedRun, rfl⟩ hd rfl (by rw [hended]; exact fun h => nomatch h)
      fun op hop => by
        obtain rfl := List.mem_singleton.1 hop
        exact id
    have hrun : ((Machine.run (next .digesting) (Machine.run (next .digesting) {} reapedRun)
        [recovery]).perform .digesting (.controllerActions (sampleSubmission [.acknowledgeOnly])
          (seconds 602))).toOption.isSome := by
      decide +kernel
    rw [he] at hrun
    cases hrun

end CodexFlow.Ledger
