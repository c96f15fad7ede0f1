import CodexFlow.Ledger.Authority
import CodexFlow.Ledger.ProgramWrites
import Mathlib

/-!
# Accounting for generations

The generations of a decision that models have claimed, beside the counter that the two ways of
claiming keep. The claim of a dispatch decision raises the counter to the generation that it takes;
the claim of a program decision adds one to it, also where a launch that failed before its identity
gave the same generation back.
-/

namespace CodexFlow.Ledger

open Checked DecisionRows DispatchRows

/-! ### The generations that models claimed -/

/-- The decision that a call takes afresh, and for whom. A claim with a token repeats an earlier
one. -/
def Op.freshClaim : Op → Option (DecisionKey × ControllerClaimantKind)
  | .decision dispatchId kind cycle (.claim q _) _ =>
    if q.token.isNone then some (.dispatch dispatchId kind cycle, q.claimantKind) else none
  | .claimProgramDecision event q _ _ _ => some (.program event, q.claimantKind)
  | _ => none

def accepts (env : Env) (L : Ledger) (op : Op) : Bool := (L.perform env op).toOption.isSome

def currentGeneration (L : Ledger) (key : DecisionKey) : ℕ :=
  ((L.decisionAt key).map (·.currentGeneration)).getD 0

/-- A ledger with the generations of each decision that a model has claimed. -/
structure Audited where
  ledger : Ledger
  claimed : DecisionKey → Finset ℕ

namespace Audited

def claims (env : Env) (s : Audited) (op : Op) (key : DecisionKey) : Bool :=
  op.freshClaim = some (key, .model) && s.ledger.accepts env op

def next (env : Env) (s : Audited) (op : Op) : Audited where
  ledger := s.ledger.next env op
  claimed key :=
    if s.claims env op key then insert (s.ledger.currentGeneration key) (s.claimed key)
    else s.claimed key

/-- No call was made yet. -/
def empty : Audited := ⟨{}, fun _ => ∅⟩

end Audited

/-- A claim of the decision that nothing but the counter could refuse is accepted. -/
def Claimable (env : Env) (L : Ledger) (event : ProgramEvent) : Prop :=
  ∀ q f minted now L', L.claimProgramDecision env event q f minted now = .ok L' →
    L.perform env (.claimProgramDecision event q f minted now) = .ok L'

/-- The counter of every decision is within its budget and counts the generations that models
claimed, and a decision of a program whose generation waits for its launch can be claimed. -/
def Audited.Agrees (env : Env) (s : Audited) : Prop :=
  ∀ key d, s.ledger.decisionAt key = some d →
    d.generationUsed ≤ d.generationBudget ∧ d.generationUsed = (s.claimed key).card ∧
      ∀ event, key = .program event → d.awaitsLaunch → s.ledger.Claimable env event

/-- A claim for a model finds every earlier generation claimed by one, a decision of a program is
claimed by models only and once in a generation, and it is reset within its budget. -/
def Audited.Counted (env : Env) (s : Audited) (op : Op) : Prop :=
  s.ledger.accepts env op → match op with
    | .decision dispatchId kind cycle (.claim q _) _ =>
      q.token.isNone → q.claimantKind = .model →
        ∀ n, 1 ≤ n → n < s.ledger.currentGeneration (.dispatch dispatchId kind cycle) →
          n ∈ s.claimed (.dispatch dispatchId kind cycle)
    | .claimProgramDecision event q _ _ _ =>
      q.claimantKind = .model ∧
        s.ledger.currentGeneration (.program event) ∉ s.claimed (.program event)
    | .programDecision event _ (.resetDelivery _) _ =>
      ∀ d, s.ledger.decisionAt (.program event) = some d → d.generationUsed < d.generationBudget
    | _ => True

variable {env : Env} {L L' : Ledger} {op : Op} {key : DecisionKey} {event : ProgramEvent}
  {mints : String → Prop} {d d' : ControllerDecision} {p p' : DecisionRows} {now : Time}

/-! ### Calls -/

theorem ControllerDecision.Step.used (h : d.Step mints key d') (hmints : ∀ digest, ¬ mints digest) :
    d'.generationUsed = d.generationUsed := by
  cases h with
  | take _ _ _ _ _ hmint => exact absurd hmint (hmints _)
  | regenerate _ h | reopen _ h | conclude _ h =>
    rw [h.same]
  | attend _ h | release _ h =>
    rw [h.same]
    rfl
  | acknowledge d₁ _ now hd₁ =>
    obtain rfl | ⟨-, rfl⟩ := hd₁
    · unfold ControllerDecision.acknowledge
      split_ifs <;> rfl
    · rfl
  | _ => rfl

/-- The generations are numbered from one, and none is taken away. -/
theorem ControllerDecision.Step.currentGeneration_le (h : d.Step mints key d') :
    d.currentGeneration ≤ d'.currentGeneration := by
  obtain ⟨g, hg, -⟩ := h.generationAt d.generationAt_current
  obtain ⟨-, hg⟩ := generationAt_eq_some.1 hg
  have hlt := (List.getElem?_eq_some_iff.1 hg).1
  unfold ControllerDecision.generations at hlt
  unfold ControllerDecision.currentGeneration at hlt ⊢
  rw [List.length_append, List.length_singleton] at hlt
  omega

theorem onDispatchDecision_pair {dispatchId : DispatchId} {kind : WakeKind} {cycle : ℕ}
    {call : DecisionOp} (h : L.onDispatchDecision env dispatchId kind cycle call now = .ok L') :
    (∃ context p p', L.pairAt (.dispatch dispatchId kind cycle) = some p ∧
      call.run env context now p = .ok p' ∧
      L'.pairAt (.dispatch dispatchId kind cycle) = some p') ∧
    ∀ key, key ≠ .dispatch dispatchId kind cycle → L'.pairAt key = L.pairAt key := by
  obtain ⟨-, r, d, p', hr, hd, hrun, rfl⟩ := onDispatchDecision_ok.1 h
  have hcall := run_step hrun
  have hpair := fun kind₁ cycle₁ =>
    @setDecision_pair? _ _ kind₁ cycle₁ _ _ _ hd hcall.decision.kept hcall.key
  constructor
  · refine ⟨_, ⟨d, r.wake? kind cycle⟩, p', ?_, hrun, ?_⟩
    · exact Option.bind_eq_some_iff.2 ⟨r, hr, pair?_eq_some.2 ⟨hd, rfl⟩⟩
    · rw [pairAt_set hr, hpair, if_pos ⟨rfl, rfl⟩]
  · intro key hne
    cases key with
    | dispatch dispatchId' kind' cycle' =>
      by_cases hsame : dispatchId' = dispatchId
      · subst hsame
        have hother : ¬(kind' = kind ∧ cycle' = cycle) := by
          rintro ⟨rfl, rfl⟩
          exact hne rfl
        rw [pairAt_set hr, hpair, if_neg hother]
        show _ = (L.dispatches.get? dispatchId').bind _
        rw [hr]
        rfl
      · show ((L.dispatches.set dispatchId _).get? dispatchId').bind _ = _
        rw [Table.get?_set_ne _ hsame]
        rfl
    | program event => rfl

theorem claim_token {q : ClaimRequest} {minted : String} (h : p.claim env q minted now = .ok p') :
    if q.token.isNone then p'.decision = p.decision.takenBy q (env.sha256 minted) now
    else p' = p := by
  obtain ⟨-, -, ⟨rfl, c, hc, hreplay⟩ | ⟨w, hfree, -, -, -, -, rfl⟩⟩ := claim_cases h
  · have htoken : ¬ q.token.isNone = true := by
      intro hnone
      unfold ControllerDecision.replayClaim at hreplay
      rw [Option.isNone_iff_eq_none.1 hnone] at hreplay
      cases hreplay
    rw [if_neg htoken]
  · have htoken : q.token.isNone = true := by
      simp only [claim, checks_ok, hfree] at h
      exact h.2.2.2.2.2.1
    rw [if_pos htoken]

theorem claimProgramDecision_pair {q : ClaimRequest} {f : ProgramFacts} {minted : String}
    (h : L.claimProgramDecision env event q f minted now = .ok L') :
    (∃ d d', L.decisionAt (.program event) = some d ∧ L'.decisionAt (.program event) = some d' ∧
      d.state = .awaitingClaim ∧ d' = { d with
        state := .claimed, revision := d.revision + 1, generationUsed := d.generationUsed + 1
        claimant := some ⟨q.claimantKind, q.claimantId, env.sha256 minted, now⟩
        claimLeaseExpiresAt := some (now + q.lease), updatedAt := now }) ∧
    ∀ key, key ≠ .program event → L'.pairAt key = L.pairAt key := by
  simp only [claimProgramDecision, checks_ok] at h
  obtain ⟨-, h⟩ := h
  split at h
  · cases h
  rename_i P hP
  simp only [steps_ok] at h
  obtain ⟨-, -, -, -, -, hstate, -, -, digest, hdigest, rfl⟩ := h
  obtain rfl := claimTokenHash_eq hdigest
  constructor
  · refine ⟨P.decision, _, ?_, ?_, hstate, rfl⟩
    · show (L.programDecisions.get? event).map _ = _
      rw [hP]
      rfl
    · show ((L.programDecisions.set event _).get? event).map _ = _
      rw [Table.get?_set_self hP]
      rfl
  · intro key hne
    cases key with
    | dispatch dispatchId kind cycle => rfl
    | program event' =>
      have hother : event' ≠ event := by
        rintro rfl
        exact hne rfl
      show ((L.programDecisions.set event _).get? event').map _ = _
      rw [Table.get?_set_ne _ hother]
      rfl

/-- A call that is no fresh claim keeps the counter of every decision of a dispatch. -/
theorem body_used {dispatchId : DispatchId} {kind : WakeKind} {cycle : ℕ}
    (h : L.body env op = .ok L') (hfresh : op.freshClaim = none)
    (hp : L.pairAt (.dispatch dispatchId kind cycle) = some p)
    (hp' : L'.pairAt (.dispatch dispatchId kind cycle) = some p')
    (hstep : p.decision.Step (op.mints env) (.dispatch dispatchId kind cycle) p'.decision) :
    p'.decision.generationUsed = p.decision.generationUsed := by
  have hsame : L'.pairAt (.dispatch dispatchId kind cycle) =
      L.pairAt (.dispatch dispatchId kind cycle) →
        p'.decision.generationUsed = p.decision.generationUsed := by
    intro hpair
    obtain rfl := Option.some.inj (hp'.symm.trans (hpair.trans hp))
    rfl
  cases op with
  | decision dispatchId' kind' cycle' call now =>
    cases call with
    | claim q minted =>
      obtain ⟨⟨context, r, r', hr, hclaim, hr'⟩, hothers⟩ := onDispatchDecision_pair h
      by_cases hkey : DecisionKey.dispatch dispatchId kind cycle = .dispatch dispatchId' kind' cycle'
      · have htoken : ¬ q.token.isNone = true := by
          intro hnone
          have hsome : (if q.token.isNone then some (DecisionKey.dispatch dispatchId' kind' cycle',
              q.claimantKind) else none) = none := hfresh
          rw [if_pos hnone] at hsome
          cases hsome
        have hrepeats := claim_token (show r.claim env q minted now = .ok r' from hclaim)
        rw [if_neg htoken] at hrepeats
        exact hsame (by rw [hkey, hr, hr', hrepeats])
      · exact hsame (hothers _ hkey)
    | _ => exact hstep.used fun _ => id
  | programDecision event capable call now =>
    refine hsame ?_
    simp only [body, onProgramDecision, bind_eq_ok] at h
    obtain ⟨-, -, h⟩ := h
    split at h
    · cases h
    simp only [bind_eq_ok, pure_eq_ok] at h
    obtain ⟨-, -, -, -, rfl⟩ := h
    rfl
  | claimProgramDecision => cases hfresh
  | _ => exact hstep.used fun _ => id

theorem Valid.programGeneration (hL : L.Valid env) {P : ProgramDecision}
    (hP : L.programDecisions.get? event = some P) : P.decision.generation.Valid env :=
  (hL.2 (event, P) (Table.get?_eq_some.1 hP)).generations.2.2.2.1 _
    (List.mem_append_right _ (List.mem_singleton_self _))

/-! ### Counting -/

namespace ControllerDecision

/-- The generations that models claimed are some of those there are, and the counter is their
number. -/
structure Accounted (S : Finset ℕ) (d : ControllerDecision) : Prop where
  within : ∀ n ∈ S, 1 ≤ n ∧ n ≤ d.currentGeneration
  counted : d.generationUsed = S.card

variable {S : Finset ℕ}

theorem Accounted.used_le (h : d.Accounted S) : d.generationUsed ≤ d.currentGeneration := by
  have hsubset : S ⊆ Finset.Icc 1 d.currentGeneration := fun n hn =>
    Finset.mem_Icc.2 (h.within n hn)
  have hcard := Finset.card_le_card hsubset
  rw [Nat.card_Icc] at hcard
  rw [h.counted]
  omega

theorem Accounted.kept (h : d.Accounted S) (hused : d'.generationUsed = d.generationUsed)
    (hcurrent : d.currentGeneration ≤ d'.currentGeneration) : d'.Accounted S where
  within n hn := ⟨(h.within n hn).1, (h.within n hn).2.trans hcurrent⟩
  counted := hused.trans h.counted

theorem Accounted.insert_within (h : d.Accounted S)
    (hcurrent : d'.currentGeneration = d.currentGeneration) :
    ∀ n ∈ insert d.currentGeneration S, 1 ≤ n ∧ n ≤ d'.currentGeneration := by
  intro n hn
  rw [hcurrent]
  obtain rfl | hold := Finset.mem_insert.1 hn
  · exact ⟨Nat.succ_pos _, le_rfl⟩
  · exact h.within n hold

/-- Where every earlier generation was claimed, the greatest is their number. -/
theorem Accounted.raised (h : d.Accounted S)
    (hearlier : ∀ n, 1 ≤ n → n < d.currentGeneration → n ∈ S)
    (hused : d'.generationUsed = max d.generationUsed d.currentGeneration)
    (hcurrent : d'.currentGeneration = d.currentGeneration) :
    d'.Accounted (insert d.currentGeneration S) where
  within := h.insert_within hcurrent
  counted := by
    have hall : insert d.currentGeneration S = Finset.Icc 1 d.currentGeneration := by
      ext n
      rw [Finset.mem_insert, Finset.mem_Icc]
      constructor
      · rintro (rfl | hn)
        · exact ⟨Nat.succ_pos _, le_rfl⟩
        · exact h.within n hn
      · rintro ⟨hpos, hle⟩
        obtain rfl | hlt := hle.eq_or_lt
        · exact .inl rfl
        · exact .inr (hearlier n hpos hlt)
    have hle := h.used_le
    rw [hused, hall, Nat.card_Icc]
    omega

theorem Accounted.added (h : d.Accounted S) (hnew : d.currentGeneration ∉ S)
    (hused : d'.generationUsed = d.generationUsed + 1)
    (hcurrent : d'.currentGeneration = d.currentGeneration) :
    d'.Accounted (insert d.currentGeneration S) where
  within := h.insert_within hcurrent
  counted := by rw [hused, Finset.card_insert_of_notMem hnew, h.counted]

/-- A decision of a program whose counter leaves room for the claim of a generation that waits for
its launch. -/
structure HasRoom (d : ControllerDecision) : Prop where
  clear : d.Clear
  room : d.awaitsLaunch → d.generationUsed < d.generationBudget

/-- The room is kept by what is no claim, a reset included that leaves it. -/
theorem HasRoom.carried {reset : Prop} (h : d.HasRoom) (hle : d.generationUsed ≤ d.currentGeneration)
    (hcarries : Carries reset d d') (hreset : reset → d.generationUsed < d.generationBudget) :
    d'.HasRoom where
  clear := hcarries.clear
  room hlaunch := by
    rw [hcarries.used, hcarries.budget]
    obtain hbefore | hreplaced | hback := hcarries.launch hlaunch
    · exact h.room hbefore
    · obtain hsame | ⟨-, hlt⟩ := hcarries.current
      · omega
      · omega
    · exact hreset hback

end ControllerDecision

/-! ### Claiming a generation that was not launched -/

theorem ControllerGeneration.inspected_none {g : ControllerGeneration} (h : g.Valid env)
    (hstate : g.state ≠ .completed) : g.inspected = none := by
  unfold ControllerGeneration.inspected
  cases hi : g.inspection with
  | none => rfl
  | some i =>
    obtain ⟨-, -, -, -, hlegal, hbundle⟩ := h.1 i hi
    show i.bundle = none
    rw [← Option.not_isSome_iff_eq_none, hbundle, decide_eq_true_eq]
    intro houtcome
    exact hstate (hlegal _ houtcome).2

theorem ControllerDecision.HasRoom.inspected (h : d.HasRoom) (hlaunch : d.awaitsLaunch = true)
    (hvalid : ∀ g ∈ d.generations, g.Valid env) : ∀ g ∈ d.generations, g.inspected = none := by
  intro g hmem
  refine ControllerGeneration.inspected_none (hvalid g hmem) fun hcompleted => ?_
  obtain hearlier | hcurrent := List.mem_append.1 hmem
  · have hlost := h.clear.earlier g hearlier
    unfold ControllerGeneration.isLost at hlost
    rw [hcompleted] at hlost
    exact absurd hlost (by decide)
  · obtain rfl := List.mem_singleton.1 hcurrent
    refine absurd hlaunch (ControllerDecision.not_awaitsLaunch_of_generation ?_)
    rw [hcompleted]
    exact nofun

theorem ProgramDecision.Valid.claimed_valid {P : ProgramDecision} (h : P.Valid env event)
    (hroom : P.decision.HasRoom) (hlaunch : P.decision.awaitsLaunch = true) (c : Claimant)
    (lease now : Time) :
    ProgramDecision.Valid env event { P with decision := { P.decision with
      state := .claimed, revision := P.decision.revision + 1
      generationUsed := P.decision.generationUsed + 1, claimant := some c
      claimLeaseExpiresAt := some lease, updatedAt := now } } := by
  obtain ⟨hcurrent, hbudget, -, hgenerations, -⟩ := h.generations
  have hinspected := hroom.inspected hlaunch hgenerations
  have hawaits : P.decision.state = .awaitingClaim := by
    simp only [ControllerDecision.awaitsLaunch, Bool.and_eq_true, decide_eq_true_eq] at hlaunch
    exact hlaunch.1
  have haction : P.decision.action = none := hroom.clear.action (by
    unfold ControllerDecision.isOpen
    rw [hawaits]
    rfl)
  have houtbox : P.decision.outbox = none := by
    have hreceipt := h.receipt.1
    rw [haction] at hreceipt
    exact Option.not_isSome_iff_eq_none.1 (by rw [← hreceipt]; decide)
  have hplaces : ControllerDecisionState.claimed ∉
      [ControllerDecisionState.actionCommitted, .acknowledged] ∧
        ControllerDecisionState.claimed ≠ .acknowledged := by
    decide
  refine ⟨⟨hcurrent, hbudget, hroom.room hlaunch, hgenerations, ?_⟩, fun _ => ⟨rfl, rfl⟩,
    fun hmem => absurd hmem hplaces.1, ⟨h.receipt.1, ?_⟩, ⟨?_, fun hstate => absurd hstate hplaces.2⟩,
    ?_⟩
  · intro entry hmem inspected hsome
    have hnone := hinspected entry.1 (List.fst_mem_of_mem_zipIdx hmem)
    rw [hnone] at hsome
    cases hsome
  · intro o ho
    have hsome : P.decision.outbox = some o := ho
    rw [houtbox] at hsome
    cases hsome
  · intro hsome
    have hacted : P.decision.action.isSome = true := hsome
    rw [haction] at hacted
    cases hacted
  · have hreason := h.reason
    rw [hawaits] at hreason
    exact hreason

theorem claimable_of_room (hL : L.Valid env) (hd : L.decisionAt (.program event) = some d)
    (hroom : d.HasRoom) (hlaunch : d.awaitsLaunch = true) : L.Claimable env event := by
  intro q f minted now L' hbody
  refine perform_ok.2 ⟨hL, hbody, ?_⟩
  obtain ⟨P, hP, rfl⟩ := Option.map_eq_some_iff.1 hd
  simp only [claimProgramDecision, hP, steps_ok] at hbody
  obtain ⟨-, -, ⟨⟩, -, -, -, -, -, -, digest, -, rfl⟩ := hbody
  refine ⟨hL.1, ?_⟩
  rintro ⟨event', P'⟩ hmem
  have hP' := Table.get?_eq_some.2 hmem
  by_cases hevent : event' = event
  · subst hevent
    rw [Table.get?_set_self hP] at hP'
    obtain rfl := Option.some.inj hP'
    exact (hL.2 _ (Table.get?_eq_some.1 hP)).claimed_valid hroom hlaunch _ _ _
  · rw [Table.get?_set_ne _ hevent] at hP'
    exact hL.2 _ (Table.get?_eq_some.1 hP')

namespace Audited

variable {s : Audited}

/-- What holds of a ledger after calls that are counted. -/
structure Audit (env : Env) (s : Audited) : Prop where
  valid : s.ledger.Valid env
  unopened : ∀ key, s.ledger.decisionAt key = none → s.claimed key = ∅
  accounted : ∀ key d, s.ledger.decisionAt key = some d → d.Accounted (s.claimed key)
  room : ∀ event d, s.ledger.decisionAt (.program event) = some d → d.HasRoom

@[simp] theorem ledger_next : (s.next env op).ledger = s.ledger.next env op := rfl

theorem ledger_run (s : Audited) (ops : List Op) :
    (Machine.run (Audited.next env) s ops).ledger = Machine.run (Ledger.next env) s.ledger ops := by
  induction ops generalizing s with
  | nil => rfl
  | cons op ops ih => exact ih (s.next env op)

theorem claimed_of_claims (h : s.claims env op key = true) :
    (s.next env op).claimed key = insert (s.ledger.currentGeneration key) (s.claimed key) :=
  if_pos h

theorem claimed_of_not (h : ¬ s.claims env op key = true) :
    (s.next env op).claimed key = s.claimed key := if_neg h

theorem next_refused (h : s.ledger.accepts env op = false) : s.next env op = s := by
  unfold next claims
  rw [h]
  simp only [Bool.and_false, Bool.false_eq_true, if_false]
  unfold accepts at h
  unfold Ledger.next
  cases hperform : s.ledger.perform env op with
  | error e => rfl
  | ok L' =>
    rw [hperform] at h
    cases h

theorem body_of_accepts (h : L.accepts env op = true) :
    L.body env op = .ok (L.next env op) ∧ (L.next env op).Valid env := by
  unfold accepts at h
  cases hperform : L.perform env op with
  | error e =>
    rw [hperform] at h
    cases h
  | ok L' =>
    unfold Ledger.next
    rw [hperform]
    exact (perform_ok.1 hperform).2

theorem not_claims (h : op.freshClaim = none) : ¬ s.claims env op key = true := by
  unfold claims
  rw [h]
  exact Bool.false_ne_true

theorem not_claims_of_ne {key' : DecisionKey} {kind : ControllerClaimantKind}
    (h : op.freshClaim = some (key', kind)) (hne : key ≠ key' ∨ kind ≠ .model) :
    ¬ s.claims env op key = true := by
  unfold claims
  rw [h, Bool.and_eq_true, decide_eq_true_eq]
  rintro ⟨hsame, -⟩
  obtain ⟨rfl, rfl⟩ := Prod.mk.inj (Option.some.inj hsame)
  exact hne.elim (fun h => h rfl) fun h => h rfl

theorem pairAt_of_claims (h : s.claims env op key = true) :
    ∃ p, s.ledger.pairAt key = some p := by
  unfold claims at h
  rw [Bool.and_eq_true, decide_eq_true_eq] at h
  obtain ⟨hfresh, haccepts⟩ := h
  obtain ⟨hbody, -⟩ := body_of_accepts haccepts
  cases op with
  | decision dispatchId kind cycle call now =>
    cases call with
    | claim q minted =>
      obtain ⟨⟨context, r, r', hr, -, -⟩, -⟩ := onDispatchDecision_pair hbody
      unfold Op.freshClaim at hfresh
      dsimp only at hfresh
      split_ifs at hfresh
      obtain ⟨rfl, -⟩ := Prod.mk.inj (Option.some.inj hfresh)
      exact ⟨r, hr⟩
    | _ => cases hfresh
  | claimProgramDecision event q f minted now =>
    obtain ⟨⟨d, d', hd, -⟩, -⟩ := claimProgramDecision_pair hbody
    obtain ⟨rfl, -⟩ := Prod.mk.inj (Option.some.inj hfresh)
    obtain ⟨wake, hp⟩ := pairAt_of_decisionAt hd
    exact ⟨_, hp⟩
  | _ => cases hfresh

/-- A decision that a call opens was not claimed. -/
theorem Audit.fresh (h : s.Audit env) (hnone : s.ledger.pairAt key = none)
    (hp : (s.ledger.next env op).pairAt key = some p) :
    p.decision.Accounted ((s.next env op).claimed key) := by
  have hfresh := next_pair_fresh h.valid op hnone hp
  have hgone : s.ledger.decisionAt key = none := by
    rw [← pairAt_decision, hnone]
    rfl
  have hclaims : ¬ s.claims env op key = true := by
    intro hclaims
    obtain ⟨p, hp⟩ := pairAt_of_claims hclaims
    rw [hnone] at hp
    cases hp
  rw [claimed_of_not hclaims, h.unopened key hgone]
  exact ⟨nofun, hfresh.unused⟩

theorem hasRoom_of_fresh (h : p.Fresh) : p.decision.HasRoom where
  clear := ⟨fun _ => h.action, fun g hg => by rw [h.earlier] at hg; cases hg⟩
  room _ := by
    have hunused := h.unused
    have hbudget := h.budget
    omega

theorem currentGeneration_of (h : L.decisionAt key = some d) :
    L.currentGeneration key = d.currentGeneration := by
  unfold Ledger.currentGeneration
  rw [h]
  rfl

theorem Audit.same (h : s.Audit env) (hp : s.ledger.pairAt key = some p)
    (hpair : (s.ledger.next env op).pairAt key = s.ledger.pairAt key)
    (hp' : (s.ledger.next env op).pairAt key = some p') (hclaims : ¬ s.claims env op key = true) :
    p'.decision.Accounted ((s.next env op).claimed key) := by
  obtain rfl := Option.some.inj (hp'.symm.trans (hpair.trans hp))
  rw [claimed_of_not hclaims]
  exact h.accounted key _ (decisionAt_of_pairAt hp)

/-- The accounts of a decision after a counted call. -/
theorem Audit.step (h : s.Audit env) (hcounted : s.Counted env op)
    (haccepts : s.ledger.accepts env op = true) (hp : s.ledger.pairAt key = some p)
    (hp' : (s.ledger.next env op).pairAt key = some p')
    (hstep : p.decision.Step (op.mints env) key p'.decision) :
    p'.decision.Accounted ((s.next env op).claimed key) := by
  obtain ⟨hbody, hvalid'⟩ := body_of_accepts haccepts
  have hd := decisionAt_of_pairAt hp
  have haccounted := h.accounted key _ hd
  have hcurrent := currentGeneration_of hd
  have hcounted := hcounted haccepts
  -- a call that is no fresh claim keeps the counters
  have hother : op.freshClaim = none →
      p'.decision.Accounted ((s.next env op).claimed key) := by
    intro hfresh
    rw [claimed_of_not (not_claims hfresh)]
    refine haccounted.kept ?_ hstep.currentGeneration_le
    cases key with
    | dispatch dispatchId kind cycle => exact body_used hbody hfresh hp hp' hstep
    | program event =>
      obtain ⟨P, hP, rfl⟩ := Option.map_eq_some_iff.1 hp
      obtain ⟨P', hP', rfl⟩ := Option.map_eq_some_iff.1 hp'
      obtain ⟨Q, hQ, hwrites⟩ := body_written hbody event P hP
      obtain rfl := Option.some.inj (hP'.symm.trans hQ)
      obtain hcarries | ⟨q, f, minted, now, rfl, -⟩ :=
        hwrites.carries (h.room event _ hd).clear (hvalid'.programGeneration hP')
      · exact hcarries.used
      · cases hfresh
  cases op with
  | decision dispatchId kind cycle call now =>
    cases call with
    | claim q minted =>
      by_cases htoken : q.token.isNone = true
      · have hfresh : (Op.decision dispatchId kind cycle (.claim q minted) now).freshClaim =
            some (.dispatch dispatchId kind cycle, q.claimantKind) := if_pos htoken
        obtain ⟨⟨context, r, r', hr, hclaim, hr'⟩, hothers⟩ := onDispatchDecision_pair hbody
        by_cases hkey : key = .dispatch dispatchId kind cycle
        · subst hkey
          obtain rfl := Option.some.inj (hp.symm.trans hr)
          obtain rfl := Option.some.inj (hp'.symm.trans hr')
          have htaken := claim_token (show p.claim env q minted now = .ok p' from hclaim)
          rw [if_pos htoken] at htaken
          rw [htaken]
          by_cases hmodel : q.claimantKind = .model
          · have hclaims : s.claims env _ _ = true := Bool.and_eq_true_iff.2
              ⟨decide_eq_true (hmodel ▸ hfresh), haccepts⟩
            rw [claimed_of_claims hclaims, hcurrent]
            refine haccounted.raised (hcurrent ▸ hcounted htoken hmodel) ?_ rfl
            exact if_pos hmodel
          · rw [claimed_of_not (not_claims_of_ne hfresh (.inr hmodel))]
            exact haccounted.kept (if_neg hmodel) le_rfl
        · exact h.same hp (hothers key hkey) hp' (not_claims_of_ne hfresh (.inl hkey))
      · exact hother (if_neg htoken)
    | _ => exact hother rfl
  | claimProgramDecision event q f minted now =>
    have hfresh : (Op.claimProgramDecision event q f minted now).freshClaim =
        some (.program event, q.claimantKind) := rfl
    obtain ⟨⟨d, d', hd₁, hd₂, -, htaken⟩, hothers⟩ := claimProgramDecision_pair hbody
    by_cases hkey : key = .program event
    · subst hkey
      obtain rfl := Option.some.inj (hd.symm.trans hd₁)
      obtain rfl := Option.some.inj ((decisionAt_of_pairAt hp').symm.trans hd₂)
      have hclaims : s.claims env _ _ = true := Bool.and_eq_true_iff.2
        ⟨decide_eq_true (hcounted.1 ▸ hfresh), haccepts⟩
      rw [claimed_of_claims hclaims, hcurrent, htaken]
      exact haccounted.added (hcurrent ▸ hcounted.2) rfl rfl
    · exact h.same hp (hothers key hkey) hp' (not_claims_of_ne hfresh (.inl hkey))
  | _ => exact hother rfl

theorem Audit.hasRoom (h : s.Audit env) (hcounted : s.Counted env op)
    (haccepts : s.ledger.accepts env op = true) {P P' : ProgramDecision}
    (hP : s.ledger.programDecisions.get? event = some P)
    (hP' : (s.ledger.next env op).programDecisions.get? event = some P') : P'.decision.HasRoom := by
  obtain ⟨hbody, hvalid'⟩ := body_of_accepts haccepts
  have hd : s.ledger.decisionAt (.program event) = some P.decision := by
    show (s.ledger.programDecisions.get? event).map _ = _
    rw [hP]
    rfl
  have hroom := h.room event _ hd
  obtain ⟨Q, hQ, hwrites⟩ := body_written hbody event P hP
  obtain rfl := Option.some.inj (hP'.symm.trans hQ)
  obtain hcarries | ⟨q, f, minted, now, -, hstate, hclaimed⟩ :=
    hwrites.carries hroom.clear (hvalid'.programGeneration hP')
  · refine hroom.carried (h.accounted _ _ hd).used_le hcarries ?_
    rintro ⟨capable, q, now, rfl⟩
    exact hcounted haccepts _ hd
  · rw [hclaimed]
    refine ⟨⟨fun _ => hroom.clear.action ?_, hroom.clear.earlier⟩, fun hlaunch => ?_⟩
    · unfold ControllerDecision.isOpen
      rw [hstate]
      rfl
    · exact absurd hlaunch (ControllerDecision.not_awaitsLaunch nofun)

theorem Audit.next (h : s.Audit env) (hcounted : s.Counted env op) : (s.next env op).Audit env := by
  cases haccepts : s.ledger.accepts env op with
  | false =>
    rw [next_refused haccepts]
    exact h
  | true =>
    refine ⟨next_valid h.valid op, fun key hnone => ?_, fun key d' hd' => ?_, fun event d' hd' => ?_⟩
    · have hgone : s.ledger.pairAt key = none := by
        by_contra hsome
        obtain ⟨p, hp⟩ := Option.ne_none_iff_exists'.1 hsome
        obtain ⟨p', hp', -⟩ := next_pair env op hp
        rw [ledger_next, decisionAt_of_pairAt hp'] at hnone
        cases hnone
      have hclaims : ¬ s.claims env op key = true := by
        intro hclaims
        obtain ⟨p, hp⟩ := pairAt_of_claims hclaims
        rw [hgone] at hp
        cases hp
      rw [claimed_of_not hclaims]
      refine h.unopened key ?_
      rw [← pairAt_decision, hgone]
      rfl
    · obtain ⟨wake, hp'⟩ := pairAt_of_decisionAt hd'
      cases hp : s.ledger.pairAt key with
      | none => exact h.fresh hp hp'
      | some p =>
        obtain ⟨p₁, hp₁, hstep⟩ := next_pair env op hp
        obtain rfl := Option.some.inj (hp₁.symm.trans hp')
        exact h.step hcounted haccepts hp hp' hstep.decision
    · obtain ⟨P', hP', rfl⟩ := Option.map_eq_some_iff.1 hd'
      cases hP : s.ledger.programDecisions.get? event with
      | none =>
        have hp' : (s.ledger.next env op).pairAt (.program event) = some ⟨P'.decision, none⟩ := by
          show ((s.ledger.next env op).programDecisions.get? event).map _ = _
          rw [← ledger_next, hP']
          rfl
        have hp : s.ledger.pairAt (.program event) = none := by
          show (s.ledger.programDecisions.get? event).map _ = _
          rw [hP]
          rfl
        exact hasRoom_of_fresh (next_pair_fresh h.valid op hp hp')
      | some P => exact h.hasRoom hcounted haccepts hP hP'

theorem Audit.agrees (h : s.Audit env) : s.Agrees env := by
  intro key d hd
  refine ⟨(h.valid.decisionAt hd).1.2.2.1, (h.accounted key d hd).counted, ?_⟩
  rintro event rfl hlaunch
  exact claimable_of_room h.valid hd (h.room event d hd) hlaunch

theorem audit_empty : Audit env empty where
  valid := (good_empty env).to_valid
  unopened _ _ := rfl
  accounted := by
    intro key d hd
    cases key <;> cases hd
  room := by
    intro event d hd
    cases hd

end Audited

/-- In a run of counted calls the counters agree with the claims of models in every ledger. -/
theorem generations_accounted (env : Env) (ops : List Op)
    (h : Machine.Along (Audited.next env) (Audited.Counted env) .empty ops) :
    Machine.Always (Audited.next env) (Audited.Agrees env) .empty ops := by
  intro before hfront
  exact (Machine.invariant_along (fun _ _ => Audited.Audit.next) Audited.audit_empty
    (h.initial hfront)).agrees

/-! ### A launch that fails before its identity -/

def milestoneEvent : ProgramEvent := ⟨"run", .checkpoint, "revision/1"⟩

def sampleFacts : ProgramFacts where
  capable := true
  programRevision := 1
  planDigest := ""
  trunkHead := ""

def claimAt (revision : ℕ) (now : Time) : Op :=
  .claimProgramDecision milestoneEvent
    { claimantKind := .model, claimantId := "controller", expectedRevision := revision } sampleFacts
    "token" now

def failedLaunch (revision : ℕ) (now : Time) : List Op :=
  [claimAt revision now, .programDecision milestoneEvent true (.prepareGeneration 1 none) now,
    .programDecision milestoneEvent true
      (.resetDelivery ⟨1, revision + 1, "controller", "token"⟩) now]

def failedOnce : List Op := .programEvent milestoneEvent sampleFacts none 0 :: failedLaunch 0 1

/-- After one failed launch the generation can be claimed again. -/
theorem failedOnce_agrees :
    (Machine.run (Audited.next Env.sample) .empty failedOnce).Agrees Env.sample := by
  refine generations_accounted Env.sample failedOnce ?_ _ (List.prefix_refl _)
  refine ⟨fun _ => trivial, fun _ => ⟨rfl, by decide⟩, fun _ => trivial, fun _ d hd => ?_,
    trivial⟩
  have hroom : ((Machine.run (Audited.next Env.sample) .empty
      (failedOnce.take 3)).ledger.decisionAt (.program milestoneEvent)).all
        (fun d => d.generationUsed < d.generationBudget) = true := by decide
  have hd : (Machine.run (Audited.next Env.sample) .empty
    (failedOnce.take 3)).ledger.decisionAt (.program milestoneEvent) = some d := hd
  rw [hd] at hroom
  exact of_decide_eq_true hroom

def failedTwice : List Op := failedOnce ++ failedLaunch 2 2

/-- After two of them the counter has passed the claims, and it refuses the third claim. -/
theorem failedTwice_refused :
    ¬ (Machine.run (Audited.next Env.sample) .empty failedTwice).Agrees Env.sample ∧
      ¬ (Machine.run (Audited.next Env.sample) .empty failedTwice).ledger.Claimable Env.sample
        milestoneEvent := by
  constructor
  · intro h
    have hused : ((Machine.run (Audited.next Env.sample) .empty failedTwice).ledger.decisionAt
        (.program milestoneEvent)).map (·.generationUsed) = some 2 := by decide
    have hclaimed : ((Machine.run (Audited.next Env.sample) .empty failedTwice).claimed
        (.program milestoneEvent)).card = 1 := by decide
    obtain ⟨d, hd, hused⟩ := Option.map_eq_some_iff.1 hused
    obtain ⟨-, hcounted, -⟩ := h _ d hd
    rw [hused, hclaimed] at hcounted
    exact absurd hcounted (by decide)
  · intro h
    have hbody : ((Machine.run (Audited.next Env.sample) .empty failedTwice).ledger.body Env.sample
        (claimAt 4 3)).toOption.isSome = true := by decide
    have hrefused : (Machine.run (Audited.next Env.sample) .empty failedTwice).ledger.accepts
        Env.sample (claimAt 4 3) = false := by decide
    cases hclaimed : (Machine.run (Audited.next Env.sample) .empty failedTwice).ledger.body
        Env.sample (claimAt 4 3) with
    | error e =>
      rw [hclaimed] at hbody
      cases hbody
    | ok L' =>
      have haccepts : (Machine.run (Audited.next Env.sample) .empty failedTwice).ledger.accepts
          Env.sample (claimAt 4 3) = true := by
        unfold accepts claimAt
        rw [h _ _ _ _ L' hclaimed]
        rfl
      rw [hrefused] at haccepts
      cases haccepts

end CodexFlow.Ledger
