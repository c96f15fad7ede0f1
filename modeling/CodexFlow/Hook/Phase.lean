import CodexFlow.Hook.Ownership

/-!
# The reconciliation of one session

Seen from one session, the ledger is a machine of four phases: no uncertain attempt, an uncertain
one whose snapshot is not reserved, a reserved one, and one that got its verdict and blocks the
session forever. The events move it forward only, and only a list event of the session moves it
out of the middle phases.
-/

namespace CodexFlow.Hook

variable {p : Platform} {st st' : State} {a : Attempt} {sessionId : PyStr} {event : Dict}

inductive Phase where
  | idle
  | unreserved
  | reserved
  | settled
deriving DecidableEq

/-- `pre` and `post` tell whether the event is a list event of the session. -/
inductive Phase.Step (pre post : Bool) : Phase → Phase → Prop where
  | stay (x : Phase) : Step pre post x x
  | uncertain : Step pre post .idle .unreserved
  | reserve (h : pre = true) : Step pre post .unreserved .reserved
  | resolve (h : post = true) : Step pre post .reserved .settled

def Attempt.phase (a : Attempt) : Phase :=
  if a.status = .uncertain then if a.reconciliationUsed then .reserved else .unreserved
  else if a.blocksCreate then .settled
  else .idle

def State.ownerList (st : State) (sessionId : PyStr) : List Attempt :=
  st.attempts.filter (Attempt.owns sessionId)

def State.owner (st : State) (sessionId : PyStr) : Option Attempt :=
  (st.ownerList sessionId).head?

def State.phase (st : State) (sessionId : PyStr) : Phase :=
  ((st.owner sessionId).map Attempt.phase).getD .idle

/-! ### The owner of a session -/

theorem State.WellFormed.ownerList_cases (hst : st.WellFormed) (sessionId : PyStr) :
    st.ownerList sessionId = [] ∨
      ∃ a, st.ownerList sessionId = [a] ∧ a ∈ st.attempts ∧ a.owns sessionId = true := by
  have hlength : (st.ownerList sessionId).length ≤ 1 := by
    rw [State.ownerList, ← List.countP_eq_length_filter]
    exact hst.owners_le sessionId
  cases hlist : st.ownerList sessionId with
  | nil => exact .inl rfl
  | cons a rest =>
    right
    rw [hlist, List.length_cons] at hlength
    have hrest : rest = [] := List.length_eq_zero_iff.1 (by omega)
    subst hrest
    have hmem : a ∈ st.ownerList sessionId := hlist ▸ List.mem_cons_self
    exact ⟨a, rfl, (List.mem_filter.1 hmem).1, (List.mem_filter.1 hmem).2⟩

theorem phase_of_ownerList_nil (h : st.ownerList sessionId = []) :
    st.phase sessionId = .idle := by
  simp [State.phase, State.owner, h]

theorem phase_of_ownerList (h : st.ownerList sessionId = [a]) :
    st.phase sessionId = a.phase := by
  simp [State.phase, State.owner, h]

theorem owner_of_ownerList (h : st.ownerList sessionId = [a]) :
    st.owner sessionId = some a := by
  simp [State.owner, h]

theorem Mutation.selects_owns {m : Mutation} (h : m.selects a = true) :
    a.owns m.sessionId = true := by
  obtain ⟨hown, hunresolved⟩ := Mutation.selects_unresolved h
  simp [Attempt.owns, Attempt.isRecoveryBlocking, hown, hunresolved]

theorem Mutation.apply_sessionId (m : Mutation) (a : Attempt) :
    (m.apply a).sessionId = a.sessionId := by
  cases m with
  | resolve s verdict => cases verdict <;> rfl
  | _ => rfl

theorem owns_of_ownedBy_ne {s : PyStr} (hown : a.ownedBy s = true) (hne : s ≠ sessionId) :
    a.owns sessionId = false := by
  have hs : a.sessionId = s := by simpa [Attempt.ownedBy] using hown
  simp [Attempt.owns, Attempt.ownedBy, hs, hne]

/-- A mutation does not show in the other sessions. -/
theorem ownerList_mutate_of_ne (st : State) {m : Mutation} (h : m.sessionId ≠ sessionId) :
    (st.modifyLast m.selects m.apply).ownerList sessionId = st.ownerList sessionId := by
  refine LastMatch.filter_modifyLast_of_disjoint (fun b hb => ?_) fun b hb => ?_
  · exact owns_of_ownedBy_ne (Mutation.selects_unresolved hb).1 h
  · have hown := (Mutation.selects_unresolved hb).1
    refine owns_of_ownedBy_ne (s := m.sessionId) ?_ h
    rw [Attempt.ownedBy, Mutation.apply_sessionId]
    exact hown

theorem ownerList_mutate (m : Mutation) :
    (st.modifyLast m.selects m.apply).ownerList m.sessionId =
      (LastMatch.modifyLast m.selects m.apply (st.ownerList m.sessionId)).filter
        (Attempt.owns m.sessionId) :=
  LastMatch.filter_modifyLast fun _ h => Mutation.selects_owns h

theorem ownerList_mutate_hit {m : Mutation} (hlist : st.ownerList m.sessionId = [a])
    (hselects : m.selects a = true) :
    (st.modifyLast m.selects m.apply).ownerList m.sessionId =
      [m.apply a].filter (Attempt.owns m.sessionId) := by
  rw [ownerList_mutate, hlist, LastMatch.modifyLast_cons, if_neg (by simp), if_pos hselects]

theorem ownerList_mutate_miss {m : Mutation} (hlist : st.ownerList m.sessionId = [a])
    (howns : a.owns m.sessionId = true) (hselects : ¬m.selects a = true) :
    (st.modifyLast m.selects m.apply).ownerList m.sessionId = [a] := by
  rw [ownerList_mutate, hlist, LastMatch.modifyLast_cons, if_neg (by simp), if_neg hselects,
    List.filter_cons_of_pos howns, List.filter_nil]

theorem ownerList_trim (sessionId : PyStr) {retained : List Attempt}
    (h : trimAttempts (st.attempts ++ [a]) = .ok retained) :
    State.ownerList ⟨retained⟩ sessionId =
      st.ownerList sessionId ++ if a.owns sessionId then [a] else [] := by
  have howns : Attempt.owns sessionId =
      fun b => Attempt.ownedBy b sessionId && Attempt.isRecoveryBlocking b := rfl
  have hfilter := congrArg (List.filter fun b => b.ownedBy sessionId) (filter_trimAttempts h)
  rw [List.filter_filter, List.filter_filter, List.filter_append, List.filter_singleton,
    Bool.cond_eq_ite] at hfilter
  rw [State.ownerList, State.ownerList, howns]
  exact hfilter

/-! ### Steps -/

theorem Attempt.phase_eq_idle_of_pending (ha : a.Coherent) (h : a.status = .pending) :
    a.phase = .idle := by
  simp [Attempt.phase, h, ha.pending_unblocked h]

/-- The phase of an owner after its mutation; an attempt that stops owning leaves it idle. -/
theorem Mutation.phase_step {m : Mutation} (ha : a.Coherent) (hselects : m.selects a = true)
    (hlicensed : m.Licensed event) :
    Phase.Step (isPreList event m.sessionId) (isPostList event m.sessionId) a.phase
      (m.apply a).phase := by
  cases m with
  | classify s fingerprint status classification peerId =>
    have hpending : a.status = .pending := by
      simp only [Mutation.selects, matchesPending, Bool.and_eq_true, decide_eq_true_eq] at hselects
      exact hselects.2
    rw [Attempt.phase_eq_idle_of_pending ha hpending]
    by_cases hstatus : status = .uncertain
    · have hphase : ((Mutation.classify s fingerprint status classification peerId).apply a).phase =
          .unreserved := by
        simp [Mutation.apply, Attempt.classify, Attempt.phase, hstatus]
      rw [hphase]
      exact .uncertain
    · have hphase : ((Mutation.classify s fingerprint status classification peerId).apply a).phase =
          .idle := by
        simp [Mutation.apply, Attempt.classify, Attempt.phase, hstatus,
          ha.pending_unblocked hpending]
      rw [hphase]
      exact .stay _
  | reserve s turnId =>
    by_cases huncertain : a.status = .uncertain
    · have hphase : ((Mutation.reserve s turnId).apply a).phase = .reserved := by
        simp [Mutation.apply, Attempt.reserve, Attempt.phase, huncertain]
      rw [hphase]
      by_cases hused : a.reconciliationUsed = true
      · rw [Attempt.phase, if_pos huncertain, if_pos hused]
        exact .stay _
      · rw [Attempt.phase, if_pos huncertain, if_neg hused]
        exact .reserve hlicensed
    · have hphase : ((Mutation.reserve s turnId).apply a).phase = a.phase := by
        have hkept : ¬((Mutation.reserve s turnId).apply a).status = .uncertain := huncertain
        rw [Attempt.phase, Attempt.phase, if_neg huncertain, if_neg hkept]
        rfl
      rw [hphase]
      exact .stay _
  | resolve s verdict =>
    have hmatch : a.status = .uncertain ∧ a.reconciliationUsed = true := by
      simp only [Mutation.selects, matchesReserved, Bool.and_eq_true, decide_eq_true_eq] at hselects
      exact ⟨hselects.1.2, hselects.2⟩
    have hblocks := ha.uncertain_blocks hmatch.1
    have hphase : ((Mutation.resolve s verdict).apply a).phase = .settled := by
      cases verdict <;> simp [Mutation.apply, Attempt.resolve, Attempt.phase, hblocks]
    rw [hphase, Attempt.phase, if_pos hmatch.1, if_pos hmatch.2]
    exact .resolve hlicensed
  | surface s => exact .stay _
  | resume s => exact .stay _

theorem Mutation.phase_of_freed {m : Mutation} (ha : a.Coherent) (hselects : m.selects a = true)
    (hfreed : (m.apply a).owns m.sessionId = false) : a.phase = .idle := by
  have howns := Mutation.selects_owns hselects
  obtain ⟨hown, hblocking⟩ := Bool.and_eq_true_iff.1 howns
  have hown' : (m.apply a).ownedBy m.sessionId = true := by
    rw [Attempt.ownedBy, Mutation.apply_sessionId]
    exact hown
  have hnotblocks : a.blocksCreate = false := by
    by_contra hblocks
    have hkeeps := (Mutation.evolves hselects).blocks (by simpa using hblocks)
    rw [Attempt.owns, hown', blocking_of_blocksCreate hkeeps] at hfreed
    cases hfreed
  have hstatus : ¬a.status = .uncertain := fun h => by
    rw [ha.uncertain_blocks h] at hnotblocks
    cases hnotblocks
  simp [Attempt.phase, hstatus, hnotblocks]

/-- One event moves the phase of every session along the machine. -/
theorem Effect.phase_step (h : Effect event st st') (hst : st.WellFormed) (sessionId : PyStr) :
    Phase.Step (isPreList event sessionId) (isPostList event sessionId) (st.phase sessionId)
      (st'.phase sessionId) := by
  cases h with
  | same => exact .stay _
  | mutate m licensed =>
    by_cases hsession : m.sessionId = sessionId
    · subst hsession
      obtain hnil | ⟨a, hlist, hmem, howns⟩ := hst.ownerList_cases m.sessionId
      · have hnext : (st.modifyLast m.selects m.apply).ownerList m.sessionId = [] := by
          rw [ownerList_mutate, hnil]
          rfl
        rw [phase_of_ownerList_nil hnil, phase_of_ownerList_nil hnext]
        exact .stay _
      · rw [phase_of_ownerList hlist]
        by_cases hselects : m.selects a = true
        · have hnext := ownerList_mutate_hit hlist hselects
          have ha := hst.coherent a hmem
          by_cases hkeeps : (m.apply a).owns m.sessionId = true
          · rw [List.filter_cons_of_pos hkeeps, List.filter_nil] at hnext
            rw [phase_of_ownerList hnext]
            exact Mutation.phase_step ha hselects licensed
          · rw [List.filter_cons_of_neg hkeeps, List.filter_nil] at hnext
            rw [phase_of_ownerList_nil hnext,
              Mutation.phase_of_freed ha hselects (by simpa using hkeeps)]
            exact .stay _
        · have hnext := ownerList_mutate_miss hlist howns hselects
          rw [phase_of_ownerList hnext]
          exact .stay _
    · have hnext := ownerList_mutate_of_ne st hsession
      rw [State.phase, State.phase, State.owner, State.owner, hnext]
      exact .stay _
  | create a retained pending free unblocked trimmed =>
    have hnext := ownerList_trim sessionId trimmed
    by_cases howns : a.owns sessionId = true
    · have hsession : a.sessionId = sessionId := by
        simpa [Attempt.ownedBy] using (Bool.and_eq_true_iff.1 howns).1
      have hnil : st.ownerList sessionId = [] := by
        rw [State.ownerList, ← List.length_eq_zero_iff, ← List.countP_eq_length_filter, ← hsession]
        exact free
      rw [hnil, if_pos howns, List.nil_append] at hnext
      rw [phase_of_ownerList_nil hnil, phase_of_ownerList hnext, Attempt.phase, pending]
      simp only [reduceCtorEq, if_false, unblocked, Bool.false_eq_true]
      exact .stay _
    · rw [if_neg howns, List.append_nil] at hnext
      rw [State.phase, State.phase, State.owner, State.owner, hnext]
      exact .stay _

end CodexFlow.Hook
