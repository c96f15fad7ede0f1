import CodexFlow.Ledger.Gates
import Mathlib

/-!
# Due checkpoints

A call of `claim_due_checkpoint` makes progress exactly when the first due dispatch has a cycle
left, and repeated calls serve everything that is due exactly when every due dispatch has one. The
disarm of a dispatch without a cycle is rolled back, and the dispatch stays first.
-/

namespace CodexFlow.Ledger

open Checked DispatchRows

variable {env : Env} {L L' : Ledger} {keys : List DispatchId} {dispatchId : DispatchId}
  {r r' : DispatchRows} {epoch : ℕ} {current now : Time}

def dueCount (L : Ledger) (current : Time) : ℕ :=
  L.dispatches.entries.countP fun entry => entry.2.checkpointDue current

/-- The call in its transaction, with the dispatch it returns the wake of. -/
def claimCheckpoint (env : Env) (L : Ledger) (epoch : ℕ) (current now : Time) :
    Checked (Ledger × Option DispatchId) :=
  L.transaction env Prod.fst (L.claimDueCheckpoint epoch current now)

/-- The next checkpoint cycle is within the budget of 64, and no decision is left over for it. -/
def DispatchRows.InBudget (r : DispatchRows) : Prop :=
  r.latestCycle < 64 ∧ ¬r.hasDecision .checkpoint (r.latestCycle + 1)

instance (r : DispatchRows) : Decidable r.InBudget := by unfold InBudget; infer_instance

/-- A due dispatch is disarmed and gets one wake and one decision of a new cycle. -/
def DispatchRows.Served (current : Time) (r r' : DispatchRows) : Prop :=
  r.checkpointDue current ∧ ¬r'.checkpointDue current ∧
    ∃ wake decision, r'.wakes = r.wakes ++ [wake] ∧ r'.decisions = r.decisions ++ [decision] ∧
      wake.kind = .checkpoint ∧ decision.kind = .checkpoint ∧
      decision.cycleSequence = wake.cycleSequence

/-- A call serves a due dispatch, or disarms one whose cycles are spent, or returns nothing because
nothing is due. -/
def Progress (env : Env) (L : Ledger) : Op → Prop
  | .claimCheckpoint epoch current now =>
    let L' := L.next env (.claimCheckpoint epoch current now)
    (L'.dueCount current < L.dueCount current ∧
      ((∃ d r r', L.dispatches.get? d = some r ∧ Served current r r' ∧
          L' = { L with dispatches := L.dispatches.set d r' } ∧
          L.claimCheckpoint env epoch current now = .ok (L', some d)) ∨
        ∃ d r, L.dispatches.get? d = some r ∧ r.checkpointDue current ∧ 64 ≤ r.latestCycle ∧
          L' = { L with
            dispatches := L.dispatches.set d { r with binding := r.binding.disarm current } })) ∨
      L.dueCount current = 0 ∧ L.claimCheckpoint env epoch current now = .ok (L, none)
  | _ => True

/-- Repeated calls under one deadline bound, each with its own reading of the clock. -/
def claims (epoch : ℕ) (current : Time) (clocks : List Time) : List Op :=
  clocks.map fun now => .claimCheckpoint epoch current now

/-! ### Serving one dispatch -/

theorem foldr_max_range' (n : ℕ) : (List.range' 1 n).foldr max 0 = n := by
  apply Nat.le_antisymm
  · refine List.max_le_of_forall_le (List.range' 1 n) n fun x hx => ?_
    have := (List.mem_range'_1.1 hx).2
    omega
  · cases n with
    | zero => exact Nat.zero_le _
    | succ n =>
      have hlast : n + 1 ∈ List.range' 1 (n + 1) := List.mem_range'_1.2 ⟨by omega, by omega⟩
      exact List.le_max_of_le' 0 hlast (Nat.le_refl _)

/-- The cycles of valid rows are numbered from 1 without a gap. -/
theorem latestCycle_eq (h : r.WakesValid) : r.latestCycle = r.checkpointCycles.length := by
  unfold latestCycle
  rw [h.2.2.1.foldr_eq 0, foldr_max_range']

def DispatchRows.served (r : DispatchRows) (current now : Time) : DispatchRows :=
  { r with
    binding := r.binding.disarm current
    wakes := r.wakes ++ [r.checkpointWake.wake current]
    decisions := r.decisions ++ [r.checkpointWake.decision now current] }

theorem checkpointCycles_served :
    (r.served current now).checkpointCycles = r.checkpointCycles ++ [r.latestCycle + 1] := by
  simp [checkpointCycles, served, checkpointWake, NewWake.wake]

theorem disarm_sourceThreadId (b : QueueBinding) :
    (b.disarm now).sourceThreadId = b.sourceThreadId := by
  unfold QueueBinding.disarm
  split_ifs <;> rfl

theorem checkpointDue_disarm {b : QueueBinding} (h : r.binding = b.disarm now) :
    ¬r.checkpointDue current := by
  have : r.binding.checkpointDeadline = none := by
    rw [h]
    unfold QueueBinding.disarm
    split_ifs with harmed
    · rfl
    · simpa using harmed
  simp [checkpointDue, this]

theorem state_of_due (hdue : r.checkpointDue current) : r.queue.state ∈
    [.claimed, .starting, .running, .resultSubmitted, .humanAttentionRequired] :=
  of_decide_eq_true (Bool.and_eq_true_iff.1 hdue).1

theorem wakeValid_served {w : Wake} (h : r.WakeValid w) : (r.served current now).WakeValid w := by
  obtain ⟨hcycle, ⟨decision, hmem, hdecision⟩, hsource, hrest⟩ := h
  refine ⟨hcycle, ⟨decision, List.mem_append_left _ hmem, hdecision⟩, ?_, hrest⟩
  rwa [show (r.served current now).binding = r.binding.disarm current from rfl,
    disarm_sourceThreadId]

theorem NewWake.state_fresh (w : NewWake) (hshown : w.suppressed = false) :
    (if w.sourceThreadId.isSome then w.state ≠ .notApplicable
      else w.state ∈ [.notApplicable, .suppressed]) ∧
    w.state ≠ .delivered ∧ w.state ≠ .failed := by
  unfold NewWake.state
  rw [hshown]
  cases w.sourceThreadId with
  | none => decide
  | some thread => simp

theorem wakeValid_checkpointWake (hdue : r.checkpointDue current) (hlatest : r.latestCycle < 64) :
    (r.served current now).WakeValid (r.checkpointWake.wake current) := by
  have hpayload : (r.served current now).payloadValid (r.checkpointWake.wake current) := by
    simp only [payloadValid, checkpointWake, NewWake.wake, DispatchRows.served, decide_true,
      Bool.true_and, decide_eq_true_eq]
    exact state_of_due hdue
  have hsource : (r.checkpointWake.wake current).sourceThreadId =
      (r.served current now).binding.sourceThreadId := (disarm_sourceThreadId r.binding).symm
  obtain ⟨happlies, hdelivered, hfailed⟩ := r.checkpointWake.state_fresh rfl
  exact ⟨⟨Nat.succ_pos _, hlatest⟩, ⟨_, List.mem_append_right _ List.mem_cons_self, rfl, rfl⟩,
    .inl hsource, happlies, (decide_eq_false hdelivered).symm, Nat.zero_le _,
    fun _ => Nat.zero_lt_two, fun h => absurd h hfailed, hpayload⟩

/-! ### A fresh decision -/

theorem prepared_valid (env : Env) : ControllerGeneration.prepared.Valid env := by
  refine ⟨fun i hi => ?_, rfl, fun h => h, fun h => ?_, fun h => ?_, fun _ => rfl⟩
  · cases hi
  · cases h
  · revert h
    decide

/-- A decision starts before its claim, or closed. -/
theorem newDecisionState_cases (state : WakeState) (queueState : QueueState)
    (thread : Option String) :
    newDecisionState state queueState thread = .pendingDelivery ∨
      newDecisionState state queueState thread = .legacyClosed ∨
        newDecisionState state queueState thread = .awaitingClaim := by
  unfold newDecisionState
  split_ifs
  · exact .inl rfl
  · exact .inr (.inl rfl)
  · exact .inr (.inr rfl)

theorem NewWake.decisionUntil_valid {w : NewWake} {deadline : Time} (decisionId : DecisionKey)
    (hcycle : 1 ≤ w.cycleSequence ∧ w.cycleSequence ≤ 64) :
    (w.decisionUntil now deadline).Valid env decisionId := by
  have hstate : (w.decisionUntil now deadline).state = .pendingDelivery ∨
      (w.decisionUntil now deadline).state = .legacyClosed ∨
        (w.decisionUntil now deadline).state = .awaitingClaim := newDecisionState_cases ..
  have hgenerations : (w.decisionUntil now deadline).generations = [.prepared] := rfl
  have hvalid : (w.decisionUntil now deadline).GenerationsValid env decisionId := by
    refine ⟨Nat.le_succ 1, Nat.le_refl 2, Nat.zero_le _, ?_, ?_⟩
    · rw [hgenerations]
      rintro g hg
      exact List.mem_singleton.1 hg ▸ prepared_valid env
    · rw [hgenerations]
      rintro entry hentry inspected hinspected
      rw [List.mem_singleton.1 hentry] at hinspected
      cases hinspected
  exact
    { cycle := hcycle
      generations := hvalid
      lease := by
        show false = _
        obtain h | h | h := hstate <;> rw [h] <;> rfl
      claimed := by
        obtain h | h | h := hstate <;> rw [h] <;> exact fun hclaimed => (nomatch hclaimed)
      unclaimed := fun _ hclaimant => nomatch hclaimant
      attention := fun _ => rfl
      committed := by
        obtain h | h | h := hstate <;> rw [h] <;> exact fun hmem => absurd hmem (by decide)
      acted := fun haction => nomatch haction
      receipt := ⟨rfl, fun _ ho => nomatch ho⟩
      acknowledged := by
        refine ⟨fun hacknowledged => (nomatch hacknowledged), ?_⟩
        obtain h | h | h := hstate <;> rw [h] <;> exact fun hstate => (nomatch hstate)
      superseded := by
        show false = _
        obtain h | h | h := hstate <;> rw [h] <;> rfl
      reason := by
        refine ⟨?_, rfl⟩
        show false = _
        obtain h | h | h := hstate <;> rw [h] <;> rfl }

theorem NewWake.wakeAgrees_fresh (w : NewWake) {deadline created : Time} :
    wakeAgrees (w.decisionUntil now deadline) (w.wake created) := by
  have hwake : w.state ∈ [.suppressed, .pending, .notApplicable] := by
    unfold NewWake.state
    split_ifs
    · decide
    · decide
    · decide
  show (w.state = .pending → newDecisionState w.state _ _ = .pendingDelivery) ∧
    (newDecisionState w.state _ _ = .pendingDelivery → _) ∧
    (newDecisionState w.state _ _ = .awaitingClaim → _)
  unfold newDecisionState
  by_cases hpending : w.state = .pending
  · rw [if_pos hpending]
    exact ⟨fun _ => rfl, fun _ => by show w.state ∈ _; rw [hpending]; decide,
      fun h => (nomatch h)⟩
  · rw [if_neg hpending]
    refine ⟨fun h => absurd h hpending, fun h => ?_, fun _ => ?_⟩
    · split_ifs at h
    · show w.state ∈ _
      generalize w.state = state at *
      revert hwake hpending
      cases state <;> decide

theorem wakeOf_append {ws : List Wake} {w : Wake} {decision : ControllerDecision}
    (hw : ¬(w.kind = decision.kind ∧ w.cycleSequence = decision.cycleSequence)) :
    DispatchRows.wakeOf { r with wakes := ws ++ [w] } decision =
      DispatchRows.wakeOf { r with wakes := ws } decision := by
  simp [wakeOf, List.find?_append, hw]

theorem hasWake_checkpoint {cycle : ℕ} (h : r.hasWake .checkpoint cycle) :
    cycle ≤ r.latestCycle := by
  obtain ⟨w, hw, hkey⟩ := List.any_eq_true.1 h
  simp only [Bool.and_eq_true, decide_eq_true_eq] at hkey
  have hmem : w.cycleSequence ∈ r.checkpointCycles :=
    List.mem_map_of_mem (List.mem_filter.2 ⟨hw, decide_eq_true hkey.1⟩)
  exact List.le_max_of_le' 0 hmem (Nat.le_of_eq hkey.2.symm)

theorem wakeOf_fresh {w : NewWake} {deadline created : Time}
    (hwake : ¬r.hasWake w.kind w.cycleSequence) :
    DispatchRows.wakeOf { r with wakes := r.wakes ++ [w.wake created] }
      (w.decisionUntil now deadline) = some (w.wake created) := by
  have hnone : r.wakes.find? (fun v => v.kind = w.kind && v.cycleSequence = w.cycleSequence) =
      none := by
    rw [List.find?_eq_none]
    exact fun v hv hkey => hwake (List.any_eq_true.2 ⟨v, hv, hkey⟩)
  show (r.wakes ++ [w.wake created]).find?
    (fun v => v.kind = w.kind && v.cycleSequence = w.cycleSequence) = _
  rw [List.find?_append, hnone]
  simp [NewWake.wake]

theorem served_valid (hvalid : r.Valid env keys dispatchId) (hdue : r.checkpointDue current)
    (hbudget : r.InBudget) : (r.served current now).Valid env keys dispatchId where
  integrity := hvalid.integrity
  result := hvalid.result
  capability := hvalid.capability
  queue := hvalid.queue
  outbox := hvalid.outbox
  liveness := hvalid.liveness
  successors := hvalid.successors
  wakes := by
    have hlatest := latestCycle_eq hvalid.wakes
    obtain ⟨hall, hlength, hcycles, hone, hterminal, hcancelled⟩ := hvalid.wakes
    have hbound := hbudget.1
    have hwakes : (r.served current now).terminalWakes = r.terminalWakes := by
      simp [terminalWakes, DispatchRows.served, checkpointWake, NewWake.wake]
    refine ⟨fun w hw => ?_, ?_, ?_, hwakes ▸ hone, hwakes ▸ hterminal, fun hstate => ?_⟩
    · obtain hw | hw := List.mem_append.1 hw
      · exact wakeValid_served (hall w hw)
      · exact List.mem_singleton.1 hw ▸ wakeValid_checkpointWake hdue hbudget.1
    · rw [checkpointCycles_served, List.length_append, List.length_singleton]
      omega
    · rw [checkpointCycles_served, List.length_append, List.length_singleton, List.range'_1_concat,
        hlatest, Nat.add_comm 1]
      exact hcycles.append_right _
    · have hactive := state_of_due hdue
      rw [show r.queue.state = .cancelled from hstate] at hactive
      exact absurd hactive (by decide)
  recovery := hvalid.recovery
  policy := hvalid.policy
  controls := hvalid.controls
  decisions := by
    obtain ⟨hnodup, hall⟩ := hvalid.decisions
    constructor
    · simp only [DispatchRows.served]
      rw [List.map_append, List.map_singleton, ← List.concat_eq_append, List.nodup_concat]
      refine ⟨fun hmem => hbudget.2 ?_, hnodup⟩
      obtain ⟨decision, hdecision, hkey⟩ := List.mem_map.1 hmem
      obtain ⟨hkind, hcycle⟩ := Prod.mk.inj hkey
      refine List.any_eq_true.2 ⟨decision, hdecision, ?_⟩
      rw [hkind, hcycle]
      simp [NewWake.decision, NewWake.decisionUntil, checkpointWake]
    · intro decision hdecision
      obtain hdecision | hdecision := List.mem_append.1 hdecision
      · -- no decision was left over for the new cycle
        have hkey : ¬(.checkpoint = decision.kind ∧ r.latestCycle + 1 = decision.cycleSequence) := by
          rintro ⟨hkind, hcycle⟩
          exact hbudget.2 (List.any_eq_true.2 ⟨decision, hdecision, by simp [← hkind, ← hcycle]⟩)
        have hkept : (r.served current now).wakeOf decision = r.wakeOf decision :=
          wakeOf_append hkey
        unfold DecisionValid
        rw [hkept]
        exact hall decision hdecision
      · obtain rfl := List.mem_singleton.1 hdecision
        have hfirst : (r.served current now).wakeOf (r.checkpointWake.decision now current) =
            some (r.checkpointWake.wake current) := wakeOf_fresh fun h =>
          Nat.not_succ_le_self _ (hasWake_checkpoint h)
        unfold DecisionValid
        rw [hfirst]
        refine ⟨NewWake.decisionUntil_valid _ ⟨Nat.succ_pos _, hbudget.1⟩, ?_, ?_⟩
        · intro h
          cases h
        rintro w hw
        cases hw
        exact NewWake.wakeAgrees_fresh _

theorem insertWake_new {w : NewWake} (hcycle : 1 ≤ w.cycleSequence ∧ w.cycleSequence ≤ 64)
    (hdecision : ¬r.hasDecision w.kind w.cycleSequence)
    (hwake : ¬r.hasWake w.kind w.cycleSequence) :
    r.insertWake w current now = .ok { r with
      wakes := r.wakes ++ [w.wake current], decisions := r.decisions ++ [w.decision now current] } := by
  simp only [insertWake, ensureControllerDecision, steps_ok]
  refine ⟨_, ⟨hcycle, rfl⟩, ?_⟩
  rw [if_neg hdecision]
  exact ⟨by simpa [hasWake] using hwake, rfl⟩

theorem serveCheckpoint_inBudget (hbudget : r.InBudget) :
    r.serveCheckpoint current now = .ok (r.served current now) := by
  have hlt : r.latestCycle + 1 ≤ 64 := hbudget.1
  have hwake : ¬r.hasWake .checkpoint (r.latestCycle + 1) :=
    fun h => Nat.not_succ_le_self _ (hasWake_checkpoint h)
  simp only [serveCheckpoint, checks_ok]
  exact ⟨hlt, insertWake_new ⟨Nat.succ_pos _, hlt⟩ hbudget.2 hwake⟩

theorem insertWake_left {w : NewWake} (hleft : r.hasDecision w.kind w.cycleSequence)
    (h : r.insertWake w current now = .ok r') : r'.decisions = r.decisions := by
  simp only [insertWake, ensureControllerDecision, steps_ok] at h
  obtain ⟨r₁, ⟨-, rfl⟩, -, rfl⟩ := h
  rw [if_pos hleft]

theorem serveCheckpoint_ok (h : r.serveCheckpoint current now = .ok r') :
    r.latestCycle < 64 ∧ DispatchRows.insertWake { r with binding := r.binding.disarm current }
      r.checkpointWake current now = .ok r' := by
  simp only [serveCheckpoint, checks_ok] at h
  exact h

theorem inBudget_of_serveCheckpoint {decision : ControllerDecision}
    (h : r.serveCheckpoint current now = .ok r')
    (hdecisions : r'.decisions = r.decisions ++ [decision]) : r.InBudget := by
  obtain ⟨hlt, hinsert⟩ := serveCheckpoint_ok h
  refine ⟨hlt, fun hleft => ?_⟩
  have hkept : r'.decisions = r.decisions :=
    insertWake_left (r := { r with binding := r.binding.disarm current })
      (w := r.checkpointWake) hleft hinsert
  simp [hkept] at hdecisions

/-! ### One call -/

/-- Nothing is due exactly when the scan finds nothing. -/
theorem firstDue_eq_none : L.firstDue current = none ↔ L.dueCount current = 0 := by
  rw [firstDue, List.argmin_eq_none, dueCount, List.countP_eq_length_filter,
    List.length_eq_zero_iff]

theorem dueCount_set (hr : L.dispatches.get? dispatchId = some r) (hdue : r.checkpointDue current)
    (hserved : ¬r'.checkpointDue current) :
    dueCount { L with dispatches := L.dispatches.set dispatchId r' } current + 1 =
      L.dueCount current := by
  have h := Table.countP_set hr r' fun entry => entry.2.checkpointDue current
  rw [if_pos hdue, if_neg hserved] at h
  exact h

theorem claimCheckpoint_ok {result : Ledger × Option DispatchId} :
    L.claimCheckpoint env epoch current now = .ok result ↔ L.Valid env ∧
      L.claimDueCheckpoint epoch current now = .ok result ∧ result.1.Valid env := by
  simp only [claimCheckpoint, transaction, steps_ok]
  constructor
  · rintro ⟨hbefore, result', hbody, hafter, rfl⟩
    exact ⟨hbefore, hbody, hafter⟩
  · rintro ⟨hbefore, hbody, hafter⟩
    exact ⟨hbefore, result, hbody, hafter, rfl⟩

theorem next_of_claimed {result : Ledger × Option DispatchId}
    (h : L.claimCheckpoint env epoch current now = .ok result) :
    L.next env (.claimCheckpoint epoch current now) = result.1 := by
  obtain ⟨hbefore, hbody, hafter⟩ := claimCheckpoint_ok.1 h
  have hperform : L.perform env (.claimCheckpoint epoch current now) = .ok result.1 :=
    perform_ok.2 ⟨hbefore, map_eq_ok.2 ⟨result, hbody, rfl⟩, hafter⟩
  rw [next, hperform]
  rfl

/-- When nothing is due, the call returns nothing. -/
theorem claimCheckpoint_none (hL : L.Valid env) (hlive : L.harnessLive epoch now)
    (hfirst : L.firstDue current = none) :
    L.claimCheckpoint env epoch current now = .ok (L, none) := by
  refine claimCheckpoint_ok.2 ⟨hL, ?_, hL⟩
  simp only [claimDueCheckpoint, requireLiveHarness, checks_ok, hfirst]
  exact ⟨hlive, rfl⟩

theorem claimCheckpoint_served (hL : L.Valid env) (hlive : L.harnessLive epoch now)
    (hfirst : L.firstDue current = some (dispatchId, r)) (hbudget : r.InBudget) :
    L.claimCheckpoint env epoch current now = .ok
      ({ L with dispatches := L.dispatches.set dispatchId (r.served current now) },
        some dispatchId) := by
  obtain ⟨hr, hdue⟩ := firstDue_spec hfirst
  have hvalid := hL.rows hr
  refine claimCheckpoint_ok.2 ⟨hL, ?_, valid_set hL (served_valid hvalid hdue hbudget)⟩
  simp only [claimDueCheckpoint, requireLiveHarness, steps_ok, hfirst]
  exact ⟨hlive, _, serveCheckpoint_inBudget hbudget, rfl⟩

theorem next_served (hL : L.Valid env) (hlive : L.harnessLive epoch now)
    (hfirst : L.firstDue current = some (dispatchId, r)) (hbudget : r.InBudget) :
    L.next env (.claimCheckpoint epoch current now) =
      { L with dispatches := L.dispatches.set dispatchId (r.served current now) } :=
  next_of_claimed (claimCheckpoint_served hL hlive hfirst hbudget)

theorem served_served (hdue : r.checkpointDue current) (now : Time) :
    Served current r (r.served current now) :=
  ⟨hdue, checkpointDue_disarm (b := r.binding) rfl, _, _, rfl, rfl, rfl, rfl, rfl⟩

theorem claimDueCheckpoint_serves {result : Ledger × Option DispatchId}
    (h : L.claimDueCheckpoint epoch current now = .ok result)
    (hfirst : L.firstDue current = some (dispatchId, r)) :
    ∃ r', r.serveCheckpoint current now = .ok r' ∧
      result = ({ L with dispatches := L.dispatches.set dispatchId r' }, some dispatchId) := by
  simp only [claimDueCheckpoint, bind_eq_ok, hfirst, pure_eq_ok] at h
  obtain ⟨-, -, r', hserve, rfl⟩ := h
  exact ⟨r', hserve, rfl⟩

/-- A due dispatch whose cycles are spent makes every call raise, and its disarm is lost. -/
theorem next_exhausted (hfirst : L.firstDue current = some (dispatchId, r))
    (hspent : 64 ≤ r.latestCycle) : L.next env (.claimCheckpoint epoch current now) = L := by
  obtain hsame | ⟨-, hbody, -⟩ := next_cases env L (.claimCheckpoint epoch current now)
  · exact hsame
  · obtain ⟨result, hclaim, -⟩ := map_eq_ok.1 hbody
    obtain ⟨r', hserve, -⟩ := claimDueCheckpoint_serves hclaim hfirst
    exact absurd (serveCheckpoint_ok hserve).1 (Nat.not_lt.2 hspent)

/-- No call that changes the ledger merely disarms a dispatch. -/
theorem not_disarmed (hfirst : L.firstDue current = some (dispatchId, r))
    (hne : L.next env (.claimCheckpoint epoch current now) ≠ L) :
    ¬∃ d s, L.dispatches.get? d = some s ∧ s.checkpointDue current ∧ 64 ≤ s.latestCycle ∧
      L.next env (.claimCheckpoint epoch current now) = { L with
        dispatches := L.dispatches.set d { s with binding := s.binding.disarm current } } := by
  rintro ⟨d, s, hs, -, -, hdisarmed⟩
  obtain ⟨hr, -⟩ := firstDue_spec hfirst
  obtain hsame | ⟨-, hbody, -⟩ := next_cases env L (.claimCheckpoint epoch current now)
  · exact hne hsame
  obtain ⟨result, hclaim, hresult⟩ := map_eq_ok.1 hbody
  obtain ⟨r', hserve, rfl⟩ := claimDueCheckpoint_serves hclaim hfirst
  obtain ⟨decisions, hserved⟩ := serveCheckpoint_eq hserve
  -- the first due dispatch has one wake more, where a disarm adds none
  have hrow := congrArg (·.dispatches.get? dispatchId) (hresult.trans hdisarmed)
  have hwakes : ∀ s', (L.dispatches.set d
      { s with binding := s.binding.disarm current }).get? dispatchId = some s' →
      s'.wakes = r.wakes := by
    intro s' hs'
    by_cases hd : dispatchId = d
    · subst hd
      obtain rfl := Option.some.inj (hs.symm.trans hr)
      rw [Table.get?_set_self hs] at hs'
      exact Option.some.inj hs' ▸ rfl
    · rw [Table.get?_set_ne _ hd, hr] at hs'
      exact Option.some.inj hs' ▸ rfl
  have hkept := hwakes r' (hrow.symm.trans (Table.get?_set_self hr r'))
  rw [hserved] at hkept
  simp at hkept

/-- A call makes progress exactly when nothing is due or the first due dispatch has a cycle
left. -/
theorem progress_iff (hL : L.Valid env) (hlive : L.harnessLive epoch now) :
    Progress env L (.claimCheckpoint epoch current now) ↔
      ∀ d r, L.firstDue current = some (d, r) → r.InBudget := by
  constructor
  · intro hprogress d r hfirst
    obtain ⟨hr, hdue⟩ := firstDue_spec hfirst
    obtain ⟨hdrop, hserved | hdisarmed⟩ | ⟨hnone, -⟩ := hprogress
    · obtain ⟨d', r₁, r₁', hr₁, hserved, hnext, hclaim⟩ := hserved
      obtain ⟨r', hserve, hresult⟩ := claimDueCheckpoint_serves (claimCheckpoint_ok.1 hclaim).2.1 hfirst
      obtain ⟨hledger, hd⟩ := Prod.mk.inj hresult
      obtain rfl := Option.some.inj hd
      obtain rfl := Option.some.inj (hr₁.symm.trans hr)
      -- both descriptions of the new ledger name the same row
      have hsame := congrArg (·.dispatches.get? d') (hnext.symm.trans hledger)
      simp only [Table.get?_set_self hr] at hsame
      obtain rfl := Option.some.inj hsame
      obtain ⟨-, -, _, _, -, hdecisions, -⟩ := hserved
      exact inBudget_of_serveCheckpoint hserve hdecisions
    · exact absurd hdisarmed (not_disarmed hfirst (ne_of_apply_ne (dueCount · current) hdrop.ne))
    · rw [← firstDue_eq_none, hfirst] at hnone
      cases hnone
  · intro hbudget
    cases hfirst : L.firstDue current with
    | none => exact .inr ⟨firstDue_eq_none.1 hfirst, claimCheckpoint_none hL hlive hfirst⟩
    | some entry =>
      obtain ⟨d, r⟩ := entry
      obtain ⟨hr, hdue⟩ := firstDue_spec hfirst
      have hserved := served_served hdue now
      have hclaim := claimCheckpoint_served hL hlive hfirst (hbudget d r hfirst)
      have hnext := next_served hL hlive hfirst (hbudget d r hfirst)
      refine .inl ⟨?_, .inl ⟨d, r, _, hr, hserved, hnext, hnext ▸ hclaim⟩⟩
      rw [hnext]
      exact Nat.lt_of_succ_le (Nat.le_of_eq (dueCount_set hr hdue hserved.2.1))

/-! ### Repeated calls -/

theorem inBudget_of_dueCount_eq_zero (h : L.dueCount current = 0)
    (hr : L.dispatches.get? dispatchId = some r) : ¬r.checkpointDue current := fun hdue =>
  List.countP_eq_zero.1 h (dispatchId, r) (Table.get?_eq_some.1 hr) hdue

/-- Nothing is ever served while a due dispatch whose cycles are spent comes first. -/
theorem claims_exhausted (hfirst : L.firstDue current = some (dispatchId, r))
    (hspent : 64 ≤ r.latestCycle) (clocks : List Time) :
    Machine.run (next env) L (claims epoch current clocks) = L := by
  induction clocks with
  | nil => rfl
  | cons now clocks ih =>
    rw [claims, List.map_cons, Machine.run_cons, next_exhausted hfirst hspent]
    exact ih

def DueInBudget (L : Ledger) (current : Time) : Prop :=
  ∀ d r, L.dispatches.get? d = some r → r.checkpointDue current → r.InBudget

theorem dueInBudget_set (h : L.DueInBudget current) :
    DueInBudget { L with dispatches := L.dispatches.set dispatchId (r.served current now) }
      current :=
  Table.forall_set (r := r.served current now)
    (P := fun _ s => s.checkpointDue current → s.InBudget)
    (fun d s _ hs => h d s hs) fun hdue => absurd hdue (checkpointDue_disarm (b := r.binding) rfl)

/-- Enough repeated calls serve every due dispatch and change no other one, when every due
dispatch is in its budget. -/
theorem claims_serve {clocks : List Time} (hL : L.Valid env)
    (hlive : ∀ now ∈ clocks, L.harnessLive epoch now)
    (hcalls : L.dueCount current ≤ clocks.length) (hbudget : L.DueInBudget current) :
    Machine.Along (next env) (Progress env) L (claims epoch current clocks) ∧
      ∀ d r, L.dispatches.get? d = some r →
        ∃ r', (Machine.run (next env) L (claims epoch current clocks)).dispatches.get? d = some r' ∧
          if r.checkpointDue current then Served current r r' else r' = r := by
  induction clocks generalizing L with
  | nil =>
    have hnone : L.dueCount current = 0 := Nat.le_zero.1 hcalls
    refine ⟨trivial, fun d r hr => ⟨r, hr, ?_⟩⟩
    rw [if_neg (inBudget_of_dueCount_eq_zero hnone hr)]
  | cons now clocks ih =>
    have hnow := hlive now List.mem_cons_self
    have hafter : ∀ later ∈ clocks, L.harnessLive epoch later :=
      fun later hlater => hlive later (List.mem_cons_of_mem _ hlater)
    have hfirstBudget : ∀ d r, L.firstDue current = some (d, r) → r.InBudget := fun d r hfirst =>
      hbudget d r (firstDue_spec hfirst).1 (firstDue_spec hfirst).2
    have hprogress := (progress_iff hL hnow).2 hfirstBudget
    have hL' := next_valid hL (.claimCheckpoint epoch current now)
    simp only [claims, List.map_cons, Machine.Along, Machine.run_cons]
    cases hfirst : L.firstDue current with
    | none =>
      have hnext := next_of_claimed (claimCheckpoint_none hL hnow hfirst)
      have hnone := firstDue_eq_none.1 hfirst
      rw [hnext]
      obtain ⟨hrest, hrows⟩ := ih hL hafter (hnone ▸ Nat.zero_le _) hbudget
      exact ⟨⟨hprogress, hrest⟩, hrows⟩
    | some entry =>
      obtain ⟨d, r⟩ := entry
      obtain ⟨hr, hdue⟩ := firstDue_spec hfirst
      have hserved := served_served hdue now
      have hnext := next_served hL hnow hfirst (hfirstBudget d r hfirst)
      have hcount := dueCount_set hr hdue hserved.2.1
      rw [hnext] at hL' ⊢
      obtain ⟨hrest, hrows⟩ := ih hL' hafter (by rw [List.length_cons] at hcalls; omega)
        (dueInBudget_set hbudget)
      refine ⟨⟨hprogress, hrest⟩, fun d' s hs => ?_⟩
      by_cases hd : d' = d
      · -- the dispatch just served is no longer due, and the later calls leave it
        subst hd
        obtain rfl := Option.some.inj (hs.symm.trans hr)
        obtain ⟨s', hs', hkept⟩ := hrows d' _ (Table.get?_set_self hs _)
        rw [if_neg hserved.2.1] at hkept
        refine ⟨s', hs', ?_⟩
        rw [if_pos hdue, hkept]
        exact hserved
      · exact hrows d' s ((Table.get?_set_ne _ hd _).trans hs)

/-- Repeated calls that all make progress leave no due dispatch whose cycles are spent. -/
theorem dueInBudget_of_progress {clocks : List Time} (hL : L.Valid env)
    (hlive : ∀ now ∈ clocks, L.harnessLive epoch now)
    (hcalls : L.dueCount current ≤ clocks.length)
    (hprogress : Machine.Along (next env) (Progress env) L (claims epoch current clocks)) :
    L.DueInBudget current := by
  induction clocks generalizing L with
  | nil =>
    intro d r hr hdue
    exact absurd hdue (inBudget_of_dueCount_eq_zero (Nat.le_zero.1 hcalls) hr)
  | cons now clocks ih =>
    have hnow := hlive now List.mem_cons_self
    obtain ⟨hfirstProgress, hrest⟩ := hprogress
    have hfirstBudget := (progress_iff hL hnow).1 hfirstProgress
    intro d' s hs hsdue
    cases hfirst : L.firstDue current with
    | none => exact absurd hsdue (inBudget_of_dueCount_eq_zero (firstDue_eq_none.1 hfirst) hs)
    | some entry =>
      obtain ⟨d, r⟩ := entry
      obtain ⟨hr, hdue⟩ := firstDue_spec hfirst
      have hbudget := hfirstBudget d r hfirst
      have hserved := served_served hdue now
      have hL' := next_valid hL (.claimCheckpoint epoch current now)
      have hcount := dueCount_set hr hdue hserved.2.1
      rw [next_served hL hnow hfirst hbudget] at hrest hL'
      by_cases hd : d' = d
      · subst hd
        exact Option.some.inj (hr.symm.trans hs) ▸ hbudget
      · exact ih hL' (fun later hlater => hlive later (List.mem_cons_of_mem _ hlater))
          (by rw [List.length_cons] at hcalls; omega) hrest d' s
          ((Table.get?_set_ne _ hd _).trans hs) hsdue

def siblingId : DispatchId := "run/m2/reviewer/1"

/-- Two dispatches with a worker, both with an armed checkpoint. -/
def attended : Ledger := Machine.run (next .sample) {} (enqueued ++
  [.enqueue siblingId { sampleRequest with milestoneId := "m2" } 1] ++ started 1 ++
  [.claim 1 nonceSha256 (fun _ => true) (fun _ => false) 5])

/-- The rows after 64 checkpoints were served and the last one was armed again. -/
def DispatchRows.spend (r : DispatchRows) : DispatchRows :=
  { Nat.iterate (fun s => s.served (seconds 3600) 10) 64 r with binding := r.binding }

/-- The first of the two dispatches has no cycle left. -/
def crowded : Ledger where
  harness := attended.harness
  dispatches := (attended.dispatches.get? sampleId).elim attended.dispatches fun r =>
    attended.dispatches.set sampleId r.spend

theorem attended_due : (∀ clock ∈ [10, 10, 10], attended.harnessLive 1 clock) ∧
    attended.dueCount (seconds 3600) = 2 ∧
    ∀ entry ∈ attended.dispatches.entries, entry.2.InBudget := by
  decide +kernel

theorem crowded_due : crowded.Valid .sample ∧ crowded.harnessLive 1 10 ∧
    crowded.dueCount (seconds 3600) = 2 ∧
    (crowded.firstDue (seconds 3600)).any (fun entry => 64 ≤ entry.2.latestCycle) ∧
    (crowded.dispatches.get? siblingId).any
      (fun r => r.checkpointDue (seconds 3600) && r.InBudget) := by
  decide +kernel

end CodexFlow.Ledger
