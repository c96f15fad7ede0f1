import CodexFlow.Hook.Phase
import Mathlib

/-!
# Which snapshot reconciles an attempt

Tool calls of a session may overlap, so the trace labels each event with its call. The reservation
is a flag of the attempt and a response carries no call identity: the first response after a
reservation resolves the attempt, whichever call it answers.
-/

namespace CodexFlow.Hook

variable {p : Platform} {st st' : State} {a : Attempt} {sessionId : PyStr} {event : Dict} {now : ℤ}

/-! ### Reserving and resolving -/

/-- The session's uncertain attempt, not reserved before, is reserved. -/
def Reserves (st st' : State) (sessionId : PyStr) : Prop :=
  ∃ a b, st.owner sessionId = some a ∧ st'.owner sessionId = some b ∧ a.status = .uncertain ∧
    b.status = .uncertain ∧ a.reconciliationUsed = false ∧ b.reconciliationUsed = true

/-- The session's uncertain attempt gets its verdict. -/
def Resolves (st st' : State) (sessionId : PyStr) : Prop :=
  ∃ a b, st.owner sessionId = some a ∧ st'.owner sessionId = some b ∧ a.status = .uncertain ∧
    (b.status = .confirmed ∨ b.status = .notFound ∨ b.status = .ambiguous)

theorem Attempt.phase_eq_reserved_iff :
    a.phase = .reserved ↔ a.status = .uncertain ∧ a.reconciliationUsed = true := by
  unfold Attempt.phase
  split_ifs with hstatus hused hblocks <;> simp [*]

theorem Attempt.phase_eq_unreserved_iff :
    a.phase = .unreserved ↔ a.status = .uncertain ∧ a.reconciliationUsed = false := by
  unfold Attempt.phase
  split_ifs with hstatus hused hblocks <;> simp_all

theorem exists_owner_of_phase (h : st.phase sessionId ≠ .idle) :
    ∃ a, st.owner sessionId = some a ∧ a.phase = st.phase sessionId := by
  unfold State.phase at h ⊢
  cases howner : st.owner sessionId with
  | none => simp [howner] at h
  | some a => exact ⟨a, rfl, rfl⟩

theorem phase_of_owner (h : st.owner sessionId = some a) : st.phase sessionId = a.phase := by
  simp [State.phase, h]

theorem reserves_iff : Reserves st st' sessionId ↔
    st.phase sessionId = .unreserved ∧ st'.phase sessionId = .reserved := by
  constructor
  · rintro ⟨a, b, ha, hb, hsa, hsb, hua, hub⟩
    rw [phase_of_owner ha, phase_of_owner hb]
    exact ⟨Attempt.phase_eq_unreserved_iff.2 ⟨hsa, hua⟩, Attempt.phase_eq_reserved_iff.2 ⟨hsb, hub⟩⟩
  · rintro ⟨h, h'⟩
    obtain ⟨a, ha, hphase⟩ := exists_owner_of_phase (h ▸ nofun : st.phase sessionId ≠ .idle)
    obtain ⟨b, hb, hphase'⟩ := exists_owner_of_phase (h' ▸ nofun : st'.phase sessionId ≠ .idle)
    obtain ⟨hsa, hua⟩ := Attempt.phase_eq_unreserved_iff.1 (hphase.trans h)
    obtain ⟨hsb, hub⟩ := Attempt.phase_eq_reserved_iff.1 (hphase'.trans h')
    exact ⟨a, b, ha, hb, hsa, hsb, hua, hub⟩

/-! ### List events -/

theorem dispatch_preList (p : Platform) (st : State) (now : ℤ)
    (h : isPreList event sessionId = true) :
    eventSessionId event = some sessionId ∧ dispatch p now event st = preList event st := by
  simp only [isPreList, isListEvent, isListTool, Bool.and_eq_true, decide_eq_true_eq] at h
  obtain ⟨⟨hname, htool⟩, hsession⟩ := h
  refine ⟨hsession, ?_⟩
  cases htoolOf : toolOf (event.get (lit "tool_name")) with
  | error e => simp [htoolOf] at htool
  | ok tool =>
    cases tool with
    | listThreads =>
      unfold dispatch
      rw [if_pos hname, htoolOf]
      rfl
    | _ => simp [htoolOf] at htool

theorem dispatch_postList (p : Platform) (st : State) (now : ℤ)
    (h : isPostList event sessionId = true) :
    eventSessionId event = some sessionId ∧ dispatch p now event st = postList p event st := by
  simp only [isPostList, isListEvent, isListTool, Bool.and_eq_true, decide_eq_true_eq] at h
  obtain ⟨⟨hname, htool⟩, hsession⟩ := h
  refine ⟨hsession, ?_⟩
  have hnotpre : ¬(event.get (lit "hook_event_name")).isStr (lit "PreToolUse") = true := by
    cases hvalue : event.get (lit "hook_event_name") with
    | str s =>
      rw [hvalue] at hname
      have hs : s = lit "PostToolUse" := by simpa [Json.isStr] using hname
      subst hs
      decide
    | _ => simp [Json.isStr]
  cases htoolOf : toolOf (event.get (lit "tool_name")) with
  | error e => simp [htoolOf] at htool
  | ok tool =>
    cases tool with
    | listThreads =>
      unfold dispatch
      rw [if_neg hnotpre, if_pos hname, htoolOf]
      rfl
    | _ => simp [htoolOf] at htool

/-- What a mutation of the session's owner `a` hits. -/
theorem findLast_of_ownerList {q : Attempt → Bool} (hlist : st.ownerList sessionId = [a])
    (hq : ∀ b, q b = true → b.owns sessionId = true) (ha : q a = true) :
    LastMatch.findLast q st.attempts = some a := by
  rw [← LastMatch.findLast_filter hq]
  change LastMatch.findLast q (st.ownerList sessionId) = some a
  rw [hlist, LastMatch.findLast, List.reverse_singleton, List.find?_singleton, if_pos ha]

theorem main_preList_eq {outcome : ListOutcome} (h : isPreList event sessionId = true)
    (hst : st.attempts.length ≤ maxAttempts)
    (hreserve : reserveList event sessionId st = .ok (outcome, st')) :
    (main p st ⟨now, some event⟩).2 = st' ∧
      (outcome = .duplicate → (main p st ⟨now, some event⟩).1.allows = false) := by
  obtain ⟨hsession, hdispatch⟩ := dispatch_preList p st now h
  have htransaction : transaction (reserveList event sessionId) st = .ok (outcome, st') := by
    rw [(reserveList_served h).transaction_eq hst, hreserve]
  rw [main_event, hdispatch]
  simp only [preList, hsession, htransaction, bind, Except.bind]
  cases outcome with
  | ordinary => exact ⟨rfl, nofun⟩
  | duplicate => exact ⟨rfl, fun _ => rfl⟩
  | reserved => exact ⟨rfl, nofun⟩

/-- The first list call after the create result reserves the uncertain attempt, a later one is
denied. -/
theorem main_preList (h : isPreList event sessionId = true) (hst : st.WellFormed) :
    (st.phase sessionId = .unreserved →
      (next p st ⟨now, some event⟩).phase sessionId = .reserved) ∧
    (st.phase sessionId = .reserved → (main p st ⟨now, some event⟩).1.allows = false) := by
  obtain hnil | ⟨a, hlist, hmem, howns⟩ := hst.ownerList_cases sessionId
  · rw [phase_of_ownerList_nil hnil]
    exact ⟨nofun, nofun⟩
  have hfind (hstatus : a.status = .uncertain) :
      LastMatch.findLast (matchesUnresolved sessionId) st.attempts = some a := by
    refine findLast_of_ownerList hlist (fun b hb => ?_) ?_
    · exact Mutation.selects_owns (m := .surface sessionId) hb
    · simp [matchesUnresolved, (Bool.and_eq_true_iff.1 howns).1, Attempt.isUnresolved, hstatus]
  rw [phase_of_ownerList hlist]
  constructor
  · intro hphase
    obtain ⟨hstatus, hunused⟩ := Attempt.phase_eq_unreserved_iff.1 hphase
    let m := Mutation.reserve sessionId (boundedOptional (event.get (lit "turn_id")) maxId)
    have hreserve : reserveList event sessionId st =
        .ok (.reserved, st.modifyLast m.selects m.apply) := by
      simp only [reserveList, hfind hstatus, hunused]
      rfl
    have hselects : m.selects a = true := LastMatch.findLast_holds (hfind hstatus)
    have hkeeps : (m.apply a).owns m.sessionId = true := howns
    have hnext := ownerList_mutate_hit (m := m) hlist hselects
    rw [List.filter_cons_of_pos hkeeps, List.filter_nil] at hnext
    rw [next, (main_preList_eq h hst.length_le hreserve).1]
    exact (phase_of_ownerList hnext).trans (Attempt.phase_eq_reserved_iff.2 ⟨hstatus, rfl⟩)
  · intro hphase
    obtain ⟨hstatus, hused⟩ := Attempt.phase_eq_reserved_iff.1 hphase
    have hreserve : reserveList event sessionId st = .ok (.duplicate, st) := by
      simp only [reserveList, hfind hstatus, hused]
      rfl
    exact (main_preList_eq h hst.length_le hreserve).2 rfl

theorem resolves_of_postList (h : isPostList event sessionId = true) (hst : st.WellFormed)
    (hphase : st.phase sessionId = .reserved) :
    Resolves st (next p st ⟨now, some event⟩) sessionId := by
  obtain hnil | ⟨a, hlist, hmem, howns⟩ := hst.ownerList_cases sessionId
  · rw [phase_of_ownerList_nil hnil] at hphase
    cases hphase
  rw [phase_of_ownerList hlist] at hphase
  obtain ⟨hstatus, hused⟩ := Attempt.phase_eq_reserved_iff.1 hphase
  obtain ⟨hsession, hdispatch⟩ := dispatch_postList p st now h
  have hselects : matchesReserved sessionId a = true := by
    simp [matchesReserved, (Bool.and_eq_true_iff.1 howns).1, hstatus, hused]
  have hfind : LastMatch.findLast (matchesReserved sessionId) st.attempts = some a := by
    refine findLast_of_ownerList hlist (fun b hb => ?_) hselects
    exact Mutation.selects_owns (m := .resolve sessionId .notFound) hb
  let snapshot := candidateItems p (event.get (lit "tool_response"))
  let m := Mutation.resolve sessionId (reconcile p a snapshot)
  have hresolve : resolveList p sessionId snapshot st =
      .ok (some (reconcile p a snapshot), st.modifyLast m.selects m.apply) := by
    simp only [resolveList, hfind]
    rfl
  have hnext : next p st ⟨now, some event⟩ = st.modifyLast m.selects m.apply := by
    have hserved : Served event st (resolveList p sessionId snapshot st) := resolveList_served h
    have htransaction := hserved.transaction_eq hst.length_le
    rw [hresolve] at htransaction
    rw [next, main_event, hdispatch]
    simp only [postList, hsession, snapshot, bind, Except.bind] at htransaction ⊢
    rw [htransaction]
    rfl
  have hkeeps : (m.apply a).owns m.sessionId = true := by
    have hblocks := (Mutation.evolves (m := m) hselects).blocks
      ((hst.coherent a hmem).uncertain_blocks hstatus)
    rw [Attempt.owns, Attempt.ownedBy, Mutation.apply_sessionId, Bool.and_eq_true]
    exact ⟨(Bool.and_eq_true_iff.1 howns).1, blocking_of_blocksCreate hblocks⟩
  have howner := ownerList_mutate_hit (m := m) hlist hselects
  rw [List.filter_cons_of_pos hkeeps, List.filter_nil] at howner
  refine ⟨a, m.apply a, owner_of_ownerList hlist, ?_, hstatus, ?_⟩
  · rw [hnext]
    exact owner_of_ownerList howner
  · change (a.resolve (reconcile p a snapshot)).status = _ ∨
      (a.resolve (reconcile p a snapshot)).status = _ ∨
      (a.resolve (reconcile p a snapshot)).status = _
    cases reconcile p a snapshot with
    | found peerId => exact .inl rfl
    | notFound => exact .inr (.inl rfl)
    | ambiguous reason => exact .inr (.inr rfl)

theorem Attempt.phase_of_uncertain (h : a.status = .uncertain) :
    a.phase = .unreserved ∨ a.phase = .reserved := by
  rw [Attempt.phase_eq_unreserved_iff, Attempt.phase_eq_reserved_iff]
  cases a.reconciliationUsed <;> simp [h]

theorem phase_ne_of_resolves (h : Resolves st st' sessionId) : st'.phase sessionId ≠ .reserved := by
  obtain ⟨a, b, -, hb, -, hverdict⟩ := h
  rw [phase_of_owner hb, ne_eq, Attempt.phase_eq_reserved_iff]
  rintro ⟨hstatus, -⟩
  simp [hstatus] at hverdict

/-- Only a list response resolves, and only a reserved attempt. -/
theorem phase_of_resolves (hstep : Phase.Step (isPreList event sessionId)
    (isPostList event sessionId) (st.phase sessionId) (st'.phase sessionId))
    (h : Resolves st st' sessionId) :
    isPostList event sessionId = true ∧ st.phase sessionId = .reserved := by
  obtain ⟨a, b, ha, hb, hstatus, hverdict⟩ := h
  have hb' : ¬b.status = .uncertain := by
    rintro huncertain
    simp [huncertain] at hverdict
  have hpost : b.phase ≠ .reserved ∧ b.phase ≠ .unreserved := by
    rw [ne_eq, ne_eq, Attempt.phase_eq_reserved_iff, Attempt.phase_eq_unreserved_iff]
    exact ⟨fun h => hb' h.1, fun h => hb' h.1⟩
  have hpre := Attempt.phase_of_uncertain hstatus
  rw [phase_of_owner ha, phase_of_owner hb] at hstep
  rw [phase_of_owner ha]
  generalize a.phase = x at *
  generalize b.phase = y at *
  cases hstep with
  | stay => rcases hpre with hpre | hpre <;> simp [hpre] at hpost
  | uncertain => simp at hpre
  | reserve => simp at hpost
  | resolve hlicensed => exact ⟨hlicensed, rfl⟩

theorem Effect.owner_identity (h : Effect event st st') (hst : st.WellFormed)
    (hphase : st.phase sessionId ≠ .idle) :
    (st'.owner sessionId).map Attempt.identity = (st.owner sessionId).map Attempt.identity := by
  obtain hnil | ⟨a, hlist, hmem, howns⟩ := hst.ownerList_cases sessionId
  · exact absurd (phase_of_ownerList_nil hnil) hphase
  cases h with
  | same => rfl
  | mutate m licensed =>
    by_cases hsession : m.sessionId = sessionId
    · subst hsession
      by_cases hselects : m.selects a = true
      · have hnext := ownerList_mutate_hit hlist hselects
        have hkeeps : (m.apply a).owns m.sessionId = true := by
          by_contra hfreed
          rw [phase_of_ownerList hlist] at hphase
          exact hphase (Mutation.phase_of_freed (hst.coherent a hmem) hselects
            (by simpa using hfreed))
        rw [List.filter_cons_of_pos hkeeps, List.filter_nil] at hnext
        rw [owner_of_ownerList hlist, owner_of_ownerList hnext, Option.map_some, Option.map_some,
          (Mutation.evolves hselects).identity]
      · have hnext := ownerList_mutate_miss hlist howns hselects
        rw [owner_of_ownerList hlist, owner_of_ownerList hnext]
    · rw [State.owner, State.owner, ownerList_mutate_of_ne st hsession]
  | create b retained _ free _ trimmed =>
    have hnext := ownerList_trim sessionId trimmed
    have hother : b.owns sessionId = false := by
      by_contra hb
      have hb : b.owns sessionId = true := by simpa using hb
      have hsession : b.sessionId = sessionId := by
        simpa [Attempt.ownedBy] using (Bool.and_eq_true_iff.1 hb).1
      rw [hsession, State.owners, List.countP_eq_length_filter] at free
      change (st.ownerList sessionId).length = 0 at free
      rw [hlist] at free
      cases free
    rw [hother, if_neg (by simp), List.append_nil] at hnext
    rw [State.owner, State.owner, hnext]

/-! ### Traces of calls -/

/-- An invocation of the hook, with the tool call it belongs to. -/
structure CallEvent where
  call : ℕ
  input : Input

def CallEvent.isPre (e : CallEvent) (sessionId : PyStr) : Bool := isPreList e.input.dict sessionId

def CallEvent.isPost (e : CallEvent) (sessionId : PyStr) : Bool :=
  isPostList e.input.dict sessionId

/-- The ledger before the event at position `k` of the trace. -/
def stateAt (p : Platform) (calls : List CallEvent) (k : ℕ) : State :=
  ledgerAfter p ((calls.take k).map CallEvent.input)

/-- Every list response follows the request of its call, and no call answers twice. -/
structure Interleaved (calls : List CallEvent) : Prop where
  pre_before : ∀ (j : ℕ) (e : CallEvent) (s : PyStr), calls[j]? = some e → e.isPost s = true →
    ∃ (i : ℕ) (e' : CallEvent), i < j ∧ calls[i]? = some e' ∧ e'.isPre s = true ∧ e'.call = e.call
  pre_once : ∀ (i j : ℕ) (e e' : CallEvent) (s s' : PyStr), calls[i]? = some e →
    calls[j]? = some e' → e.isPre s = true → e'.isPre s' = true → e.call = e'.call → i = j
  post_once : ∀ (i j : ℕ) (e e' : CallEvent) (s s' : PyStr), calls[i]? = some e →
    calls[j]? = some e' → e.isPost s = true → e'.isPost s' = true → e.call = e'.call → i = j

/-- Every verdict comes from the response of the call that reserved that attempt, after it became
uncertain. -/
def OwnSnapshot (p : Platform) (calls : List CallEvent) : Prop :=
  ∀ j s, Resolves (stateAt p calls j) (stateAt p calls (j + 1)) s →
    ∃ e, calls[j]? = some e ∧ e.isPost s = true ∧
      ∃ i e', i < j ∧ calls[i]? = some e' ∧ e'.isPre s = true ∧ e'.call = e.call ∧
        Reserves (stateAt p calls i) (stateAt p calls (i + 1)) s ∧
        ((stateAt p calls i).owner s).map Attempt.identity =
          ((stateAt p calls j).owner s).map Attempt.identity

/-- While an attempt is uncertain, at most one list call of its session is allowed. -/
def OneReservation (p : Platform) (calls : List CallEvent) : Prop :=
  ∀ i j e e' s a b, i < j → calls[i]? = some e → calls[j]? = some e' → e.isPre s = true →
    e'.isPre s = true → (stateAt p calls i).owner s = some a →
    (stateAt p calls j).owner s = some b → a.status = .uncertain → b.status = .uncertain →
    (main p (stateAt p calls j) e'.input).1.allows = false

/-- After a reservation, the first list response of the session answers the reserving call. -/
def FirstResponseIsOwn (p : Platform) (calls : List CallEvent) : Prop :=
  ∀ i j e e' s, i < j → calls[i]? = some e' → calls[j]? = some e →
    Reserves (stateAt p calls i) (stateAt p calls (i + 1)) s → e.isPost s = true →
    (∀ k e'', i < k → k < j → calls[k]? = some e'' → e''.isPost s = false) → e'.call = e.call

section Trace

variable {calls : List CallEvent} {e : CallEvent} {i j k : ℕ}

theorem wellFormed_stateAt (p : Platform) (calls : List CallEvent) (k : ℕ) :
    (stateAt p calls k).WellFormed :=
  wellFormed_ledgerAfter p _

theorem stateAt_succ (h : calls[k]? = some e) :
    stateAt p calls (k + 1) = next p (stateAt p calls k) e.input := by
  unfold stateAt ledgerAfter
  rw [List.take_add_one, h, List.map_append, Option.toList_some, List.map_singleton,
    Machine.run_concat]

theorem stateAt_succ_of_none (h : calls[k]? = none) :
    stateAt p calls (k + 1) = stateAt p calls k := by
  unfold stateAt
  rw [List.take_add_one, h, Option.toList_none, List.append_nil]

theorem stateAt_effect (h : calls[k]? = some e) :
    Effect e.input.dict (stateAt p calls k) (stateAt p calls (k + 1)) := by
  rw [stateAt_succ h]
  exact main_effect (wellFormed_stateAt p calls k).length_le e.input

theorem stateAt_step (h : calls[k]? = some e) (sessionId : PyStr) :
    Phase.Step (e.isPre sessionId) (e.isPost sessionId) ((stateAt p calls k).phase sessionId)
      ((stateAt p calls (k + 1)).phase sessionId) :=
  (stateAt_effect h).phase_step (wellFormed_stateAt p calls k) sessionId

def Phase.rank : Phase → ℕ
  | .idle => 0
  | .unreserved => 1
  | .reserved => 2
  | .settled => 3

theorem Phase.Step.rank_le {pre post : Bool} {x y : Phase} (h : Phase.Step pre post x y) :
    x.rank ≤ y.rank := by
  cases h <;> simp [Phase.rank]

theorem rank_monotone (p : Platform) (calls : List CallEvent) (sessionId : PyStr) :
    Monotone fun k => ((stateAt p calls k).phase sessionId).rank := by
  refine monotone_nat_of_le_succ fun k => ?_
  cases h : calls[k]? with
  | none => rw [stateAt_succ_of_none h]
  | some e => exact (stateAt_step h sessionId).rank_le

theorem exists_reservation (hk : (stateAt p calls k).phase sessionId = .reserved) :
    ∃ i e, i < k ∧ calls[i]? = some e ∧ e.isPre sessionId = true ∧
      Reserves (stateAt p calls i) (stateAt p calls (i + 1)) sessionId := by
  induction k with
  | zero => cases hk
  | succ k ih =>
    cases h : calls[k]? with
    | none =>
      rw [stateAt_succ_of_none h] at hk
      obtain ⟨i, e, hik, hi⟩ := ih hk
      exact ⟨i, e, by omega, hi⟩
    | some e =>
      have hstep := stateAt_step (p := p) h sessionId
      rw [hk] at hstep
      generalize hx : (stateAt p calls k).phase sessionId = x at hstep
      cases hstep with
      | stay =>
        obtain ⟨i, e, hik, hi⟩ := ih hx
        exact ⟨i, e, by omega, hi⟩
      | reserve hpre => exact ⟨k, e, by omega, h, hpre, reserves_iff.2 ⟨hx, hk⟩⟩

/-- A reservation lasts until the first list response of the session. -/
theorem reserved_until (hij : i ≤ j) (hi : (stateAt p calls i).phase sessionId = .reserved)
    (hquiet : ∀ k e, i ≤ k → k < j → calls[k]? = some e → e.isPost sessionId = false) :
    (stateAt p calls j).phase sessionId = .reserved := by
  induction j, hij using Nat.le_induction with
  | base => exact hi
  | succ j hij ih =>
    have hj := ih fun k e hik hkj => hquiet k e hik (by omega)
    cases h : calls[j]? with
    | none => rw [stateAt_succ_of_none h, hj]
    | some e =>
      have hstep := stateAt_step (p := p) h sessionId
      rw [hj] at hstep
      generalize hy : (stateAt p calls (j + 1)).phase sessionId = y at hstep
      cases hstep with
      | stay => rfl
      | resolve hpost =>
        rw [hquiet j e hij (by omega) h] at hpost
        cases hpost

theorem identity_between (hij : i ≤ j) (hi : (stateAt p calls i).phase sessionId ≠ .idle) :
    ((stateAt p calls i).owner sessionId).map Attempt.identity =
      ((stateAt p calls j).owner sessionId).map Attempt.identity := by
  induction j, hij using Nat.le_induction with
  | base => rfl
  | succ j hij ih =>
    rw [ih]
    cases h : calls[j]? with
    | none => rw [stateAt_succ_of_none h]
    | some e =>
      refine ((stateAt_effect h).owner_identity (wellFormed_stateAt p calls j) fun hidle => ?_).symm
      have hrank : Phase.rank _ ≤ Phase.rank _ := rank_monotone p calls sessionId hij
      rw [hidle] at hrank
      generalize (stateAt p calls i).phase sessionId = x at *
      cases x <;> simp [Phase.rank] at hrank hi

theorem reservation_unique (hi : Reserves (stateAt p calls i) (stateAt p calls (i + 1)) sessionId)
    (hj : Reserves (stateAt p calls j) (stateAt p calls (j + 1)) sessionId) : i = j := by
  rw [reserves_iff] at hi hj
  by_contra hne
  rcases Nat.lt_or_gt_of_ne hne with hlt | hlt
  · have hrank : Phase.rank _ ≤ Phase.rank _ := rank_monotone p calls sessionId hlt
    simp [hi.2, hj.1, Phase.rank] at hrank
  · have hrank : Phase.rank _ ≤ Phase.rank _ := rank_monotone p calls sessionId hlt
    simp [hj.2, hi.1, Phase.rank] at hrank

theorem phase_between (hij : i ≤ j) (hjk : j ≤ k)
    (hi : (stateAt p calls i).phase sessionId = .reserved)
    (hk : (stateAt p calls k).phase sessionId = .reserved) :
    (stateAt p calls j).phase sessionId = .reserved := by
  have h₁ : Phase.rank _ ≤ Phase.rank _ := rank_monotone p calls sessionId hij
  have h₂ : Phase.rank _ ≤ Phase.rank _ := rank_monotone p calls sessionId hjk
  rw [hi] at h₁
  rw [hk] at h₂
  generalize (stateAt p calls j).phase sessionId = x at *
  cases x <;> simp [Phase.rank] at h₁ h₂ ⊢

theorem exists_event_of_isListEvent {name : PyStr} {input : Input}
    (h : isListEvent name input.dict sessionId = true) :
    ∃ event, input = ⟨input.now, some event⟩ ∧ isListEvent name event sessionId = true := by
  obtain ⟨now, event⟩ := input
  cases event with
  | none => exact absurd h (by simp [isListEvent, Input.dict, Dict.get, Dict.get?, Json.isStr])
  | some event => exact ⟨event, rfl, h⟩

theorem resolves_of_post (he : calls[k]? = some e) (hpost : e.isPost sessionId = true)
    (hk : (stateAt p calls k).phase sessionId = .reserved) :
    Resolves (stateAt p calls k) (stateAt p calls (k + 1)) sessionId := by
  obtain ⟨event, hinput, hevent⟩ := exists_event_of_isListEvent hpost
  rw [stateAt_succ he, hinput]
  exact resolves_of_postList hevent (wellFormed_stateAt p calls k) hk

/-- No list response of the session comes while its reservation lasts. -/
theorem not_post_between (hi : (stateAt p calls i).phase sessionId = .reserved)
    (hj : (stateAt p calls j).phase sessionId = .reserved) (hik : i ≤ k) (hkj : k < j)
    (he : calls[k]? = some e) : e.isPost sessionId = false := by
  by_contra hpost
  have hk := phase_between hik (Nat.le_of_lt hkj) hi hj
  have hk' := phase_between (Nat.le_succ_of_le hik) hkj hi hj
  exact phase_ne_of_resolves (resolves_of_post he (by simpa using hpost) hk) hk'

/-- The reservation behind a verdict, with no other response in between. -/
theorem resolves_spec (h : Resolves (stateAt p calls j) (stateAt p calls (j + 1)) sessionId) :
    ∃ e, calls[j]? = some e ∧ e.isPost sessionId = true ∧
      (stateAt p calls j).phase sessionId = .reserved := by
  cases he : calls[j]? with
  | none =>
    rw [stateAt_succ_of_none he] at h
    obtain ⟨a, b, ha, hb, hstatus, hverdict⟩ := h
    rw [ha] at hb
    cases hb
    simp [hstatus] at hverdict
  | some e =>
    obtain ⟨hpost, hreserved⟩ := phase_of_resolves (stateAt_step he sessionId) h
    exact ⟨e, rfl, hpost, hreserved⟩

theorem oneReservation (p : Platform) (calls : List CallEvent) : OneReservation p calls := by
  intro i j e e' s a b hij hi hj hpre hpre' ha hb hsa hsb
  have hwf := wellFormed_stateAt p calls
  obtain ⟨event, hinput, hevent⟩ := exists_event_of_isListEvent hpre
  obtain ⟨event', hinput', hevent'⟩ := exists_event_of_isListEvent hpre'
  have hafter : Phase.reserved.rank ≤ ((stateAt p calls (i + 1)).phase s).rank := by
    rcases Attempt.phase_of_uncertain hsa with hphase | hphase
    · rw [stateAt_succ hi, hinput,
        (main_preList hevent (hwf i)).1 ((phase_of_owner ha).trans hphase)]
    · have hmono : Phase.rank _ ≤ Phase.rank _ := rank_monotone p calls s (Nat.le_succ i)
      rwa [phase_of_owner ha, hphase] at hmono
  have hrank : Phase.reserved.rank ≤ ((stateAt p calls j).phase s).rank :=
    Nat.le_trans hafter (rank_monotone p calls s hij)
  have hreserved : (stateAt p calls j).phase s = .reserved := by
    rw [phase_of_owner hb] at hrank ⊢
    rcases Attempt.phase_of_uncertain hsb with hphase | hphase
    · simp [hphase, Phase.rank] at hrank
    · exact hphase
  rw [hinput']
  exact (main_preList hevent' (hwf j)).2 hreserved

end Trace

theorem resolves_iff_status : Resolves st st' sessionId ↔
    (st.owner sessionId).map Attempt.status = some .uncertain ∧
      (st'.owner sessionId).map Attempt.status ∈
        [some .confirmed, some .notFound, some .ambiguous] := by
  unfold Resolves
  cases st.owner sessionId <;> cases st'.owner sessionId <;> simp

/-- The library on the ASCII inputs of the trace below, with its two SHA-256 digests. -/
def asciiPlatform : Platform where
  sha256 bytes :=
    if bytes = encodeReplace (lit "hi") then
      lit "8f434346648f6b96df89dda901c5176b10a6d83961dd3c1ac88b59b2dc327aa4"
    else lit "76d5a08590be1afafd5b7ef4d90b8b3c4f5f6ca2be6c26ddcc2574e833679597"
  loads _ := none
  normalizeNFC := id
  isSpace c := c.val = 0x20 || (0x09 ≤ c.val && c.val ≤ 0x0D) || (0x1C ≤ c.val && c.val ≤ 0x1F)
  isControl c := c.val ≤ 0x1F || c.val = 0x7F

def toolEvent (name tool : String) (fields : Dict) : Input :=
  ⟨0, some ([(lit "session_id", .str (lit "s")), (lit "hook_event_name", .str (lit name)),
    (lit "tool_name", .str (lit tool))] ++ fields)⟩

def createInput : Json :=
  .obj [(lit "prompt", .str (lit "hi")),
    (lit "target", .obj [(lit "type", .str (lit "projectless"))])]

def emptySnapshot : Json := .obj [(lit "threads", .arr [])]

/-- Call 1 lists the threads before the create of call 0 fails; its response comes after call 2
reserved the uncertain attempt. -/
def staleTrace : List CallEvent :=
  [⟨1, toolEvent "PreToolUse" "list_threads" []⟩,
    ⟨0, toolEvent "PreToolUse" "create_thread" [(lit "tool_input", createInput)]⟩,
    ⟨0, toolEvent "PostToolUse" "create_thread" [(lit "tool_input", createInput)]⟩,
    ⟨2, toolEvent "PreToolUse" "list_threads" []⟩,
    ⟨1, toolEvent "PostToolUse" "list_threads" [(lit "tool_response", emptySnapshot)]⟩]

theorem session_of_isListEvent {name : PyStr} (h : isListEvent name event sessionId = true) :
    eventSessionId event = some sessionId := by
  simp only [isListEvent, Bool.and_eq_true, decide_eq_true_eq] at h
  exact h.2

theorem staleTrace_session {k : ℕ} {e : CallEvent} (h : staleTrace[k]? = some e) :
    k < 5 ∧ eventSessionId e.input.dict = some (lit "s") := by
  have hk : k < 5 := (List.getElem?_eq_some_iff.1 h).1
  have hall : ∀ k < 5, (staleTrace[k]?.map fun e => eventSessionId e.input.dict) =
      some (some (lit "s")) := by decide
  have hsession := hall k hk
  rw [h, Option.map_some, Option.some_inj] at hsession
  exact ⟨hk, hsession⟩

theorem staleTrace_pre {k : ℕ} {e : CallEvent} {s : PyStr} (h : staleTrace[k]? = some e)
    (hpre : e.isPre s = true) : s = lit "s" ∧ (k = 0 ∧ e.call = 1 ∨ k = 3 ∧ e.call = 2) := by
  obtain ⟨hk, hsession⟩ := staleTrace_session h
  rw [session_of_isListEvent hpre, Option.some_inj] at hsession
  subst hsession
  have hall : ∀ k < 5, (staleTrace[k]?.all fun e =>
      !e.isPre (lit "s") || k = 0 && e.call = 1 || k = 3 && e.call = 2) = true := by decide
  have hcall := hall k hk
  rw [h, Option.all_some, hpre] at hcall
  exact ⟨rfl, by simpa using hcall⟩

theorem staleTrace_post {k : ℕ} {e : CallEvent} {s : PyStr} (h : staleTrace[k]? = some e)
    (hpost : e.isPost s = true) : s = lit "s" ∧ k = 4 ∧ e.call = 1 := by
  obtain ⟨hk, hsession⟩ := staleTrace_session h
  rw [session_of_isListEvent hpost, Option.some_inj] at hsession
  subst hsession
  have hall : ∀ k < 5, (staleTrace[k]?.all fun e =>
      !e.isPost (lit "s") || k = 4 && e.call = 1) = true := by decide
  have hcall := hall k hk
  rw [h, Option.all_some, hpost] at hcall
  exact ⟨rfl, by simpa using hcall⟩

theorem interleaved_staleTrace : Interleaved staleTrace where
  pre_before j e s hj hpost := by
    obtain ⟨rfl, rfl, hcall⟩ := staleTrace_post hj hpost
    exact ⟨0, _, by omega, rfl, by decide, hcall.symm⟩
  pre_once i j e e' s s' hi hj hpre hpre' hcall := by
    obtain ⟨-, hi⟩ := staleTrace_pre hi hpre
    obtain ⟨-, hj⟩ := staleTrace_pre hj hpre'
    omega
  post_once i j e e' s s' hi hj hpost hpost' _ := by
    obtain ⟨-, rfl, -⟩ := staleTrace_post hi hpost
    obtain ⟨-, rfl, -⟩ := staleTrace_post hj hpost'
    rfl

end CodexFlow.Hook
