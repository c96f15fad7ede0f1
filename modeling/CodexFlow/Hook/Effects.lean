import CodexFlow.Hook.Events

/-!
# What one event can do

Whatever an event does to the ledger is one of three effects: nothing, one in-place mutation, or
one new pending attempt of a session without owner. A reservation needs the `PreToolUse` of a list
call of that session, a resolution needs a `PostToolUse`.
-/

namespace CodexFlow.Hook

/-! ### Events -/

structure IsPreCreate (event : Dict) (sessionId : PyStr) : Prop where
  name : (event.get (lit "hook_event_name")).isStr (lit "PreToolUse") = true
  tool : toolOf (event.get (lit "tool_name")) = .ok .createThread
  session : eventSessionId event = some sessionId

def isListTool (event : Dict) : Bool :=
  match toolOf (event.get (lit "tool_name")) with
  | .ok .listThreads => true
  | _ => false

def isListEvent (name : PyStr) (event : Dict) (sessionId : PyStr) : Bool :=
  (event.get (lit "hook_event_name")).isStr name && isListTool event &&
    eventSessionId event = some sessionId

/-- The event asks to allow a `list_threads` call of the session. -/
def isPreList : Dict → PyStr → Bool := isListEvent (lit "PreToolUse")

/-- The event carries the response of a `list_threads` call of the session. -/
def isPostList : Dict → PyStr → Bool := isListEvent (lit "PostToolUse")

/-! ### Mutations -/

inductive Mutation where
  | classify (sessionId fingerprint : PyStr) (status : AttemptStatus)
      (classification : ResultClassification) (peerId : Option PyStr)
  | reserve (sessionId : PyStr) (turnId : Option PyStr)
  | resolve (sessionId : PyStr) (verdict : Verdict)
  | surface (sessionId : PyStr)
  | resume (sessionId : PyStr)

namespace Mutation

def sessionId : Mutation → PyStr
  | classify sessionId _ _ _ _ => sessionId
  | reserve sessionId _ => sessionId
  | resolve sessionId _ => sessionId
  | surface sessionId => sessionId
  | resume sessionId => sessionId

/-- Which attempts the mutation may hit; it hits the last of them. -/
def selects : Mutation → Attempt → Bool
  | classify sessionId fingerprint _ _ _ => matchesPending sessionId fingerprint
  | reserve sessionId _ => matchesUnresolved sessionId
  | resolve sessionId _ => matchesReserved sessionId
  | surface sessionId => matchesUnresolved sessionId
  | resume sessionId => matchesUnresolved sessionId

def apply : Mutation → Attempt → Attempt
  | classify _ _ status classification peerId => Attempt.classify status classification peerId
  | reserve _ turnId => Attempt.reserve turnId
  | resolve _ verdict => fun a => a.resolve verdict
  | surface _ => Attempt.surface
  | resume sessionId => Attempt.resume sessionId

def Licensed (event : Dict) : Mutation → Prop
  | reserve sessionId _ => isPreList event sessionId = true
  | resolve sessionId _ => isPostList event sessionId = true
  | _ => True

end Mutation

variable {p : Platform} {st st' : State} {a b : Attempt} {sessionId : PyStr} {event : Dict}

/-- What an attempt keeps from its creation on. -/
structure Identity where
  fingerprint : PyStr
  title : PyStr
  titleIdentity : Option TitleIdentity
  target : TargetContext
  model : PyStr
  thinking : PyStr
  turnId : Option PyStr
  sessionId : PyStr
  createdAt : ℤ

def Attempt.identity (a : Attempt) : Identity :=
  ⟨a.fingerprint, a.title, a.titleIdentity, a.target, a.model, a.thinking, a.turnId, a.sessionId,
    a.createdAt⟩

/-- Only a pending attempt does not block its session forever. -/
structure Attempt.Coherent (a : Attempt) : Prop where
  uncertain_blocks : a.status = .uncertain → a.blocksCreate = true
  pending_unblocked : a.status = .pending → a.blocksCreate = false

/-- A mutation keeps the identity and never unblocks its session. -/
structure Attempt.Evolves (a b : Attempt) : Prop where
  identity : b.identity = a.identity
  blocks : a.blocksCreate = true → b.blocksCreate = true
  blocking : b.isRecoveryBlocking = true → a.isRecoveryBlocking = true
  coherent : a.Coherent → b.Coherent

theorem Attempt.Evolves.refl (a : Attempt) : a.Evolves a := ⟨rfl, id, id, id⟩

theorem Attempt.Evolves.ownedBy (h : a.Evolves b) : b.ownedBy sessionId = a.ownedBy sessionId := by
  have hsession : b.sessionId = a.sessionId := congrArg Identity.sessionId h.identity
  simp only [Attempt.ownedBy, hsession]

theorem blocking_of_blocksCreate (h : a.blocksCreate = true) : a.isRecoveryBlocking = true := by
  simp [Attempt.isRecoveryBlocking, h]

theorem blocking_of_pending (h : a.status = .pending) : a.isRecoveryBlocking = true := by
  simp [Attempt.isRecoveryBlocking, Attempt.isUnresolved, h]

/-- A mutation only ever hits an unresolved attempt of its session. -/
theorem Mutation.selects_unresolved {m : Mutation} (h : m.selects a = true) :
    a.ownedBy m.sessionId = true ∧ a.isUnresolved = true := by
  cases m with
  | classify s fingerprint status classification peerId =>
    simp only [Mutation.selects, matchesPending, Bool.and_eq_true, decide_eq_true_eq] at h
    exact ⟨h.1.1, by simp [Attempt.isUnresolved, h.2]⟩
  | resolve s verdict =>
    simp only [Mutation.selects, matchesReserved, Bool.and_eq_true, decide_eq_true_eq] at h
    exact ⟨h.1.1, by simp [Attempt.isUnresolved, h.1.2]⟩
  | _ =>
    simp only [Mutation.selects, matchesUnresolved, Bool.and_eq_true] at h
    exact h

theorem Mutation.evolves {m : Mutation} (h : m.selects a = true) : a.Evolves (m.apply a) := by
  have hblocking : a.isRecoveryBlocking = true := by
    simp [Attempt.isRecoveryBlocking, (Mutation.selects_unresolved h).2]
  cases m with
  | classify s fingerprint status classification peerId =>
    have hpending : a.status = .pending := by
      simp only [Mutation.selects, matchesPending, Bool.and_eq_true, decide_eq_true_eq] at h
      exact h.2
    refine ⟨rfl, fun hblocks => ?_, fun _ => hblocking, fun ha => ⟨?_, ?_⟩⟩
    · simp [Mutation.apply, Attempt.classify, hblocks]
    · intro (hstatus : status = .uncertain)
      simp [Mutation.apply, Attempt.classify, hstatus]
    · intro (hstatus : status = .pending)
      simp [Mutation.apply, Attempt.classify, hstatus, ha.pending_unblocked hpending]
  | resolve s verdict =>
    cases verdict with
    | found peerId => exact ⟨rfl, id, fun _ => hblocking, fun _ => ⟨nofun, nofun⟩⟩
    | notFound => exact ⟨rfl, id, fun _ => hblocking, fun _ => ⟨nofun, nofun⟩⟩
    | ambiguous reason => exact ⟨rfl, fun _ => rfl, fun _ => hblocking, fun _ => ⟨nofun, nofun⟩⟩
  | _ => exact ⟨rfl, id, id, fun ha => ⟨ha.uncertain_blocks, ha.pending_unblocked⟩⟩

/-! ### Effects -/

/-- What one event may do to the ledger. -/
inductive Effect (event : Dict) (st : State) : State → Prop where
  | same : Effect event st st
  | mutate (m : Mutation) (licensed : m.Licensed event) :
      Effect event st (st.modifyLast m.selects m.apply)
  | create (a : Attempt) (retained : List Attempt) (pending : a.status = .pending)
      (free : st.owners a.sessionId = 0) (unblocked : a.blocksCreate = false)
      (trimmed : trimAttempts (st.attempts ++ [a]) = .ok retained) : Effect event st ⟨retained⟩

theorem forall₂_evolves (m : Mutation) (st : State) :
    List.Forall₂ Attempt.Evolves st.attempts (st.modifyLast m.selects m.apply).attempts :=
  LastMatch.forall₂_modifyLast Attempt.Evolves.refl fun _ h =>
    Mutation.evolves (LastMatch.findLast_holds h)

theorem mem_trimAttempts {attempts retained : List Attempt}
    (h : trimAttempts attempts = .ok retained) (ha : a ∈ attempts)
    (hblocking : a.isRecoveryBlocking = true) : a ∈ retained := by
  have hmem : a ∈ attempts.filter Attempt.isRecoveryBlocking :=
    List.mem_filter.2 ⟨ha, hblocking⟩
  rw [← filter_trimAttempts h] at hmem
  exact List.mem_of_mem_filter hmem

theorem Effect.length_le (h : Effect event st st') (hst : st.attempts.length ≤ maxAttempts) :
    st'.attempts.length ≤ maxAttempts := by
  cases h with
  | same => exact hst
  | mutate m _ => rwa [← (forall₂_evolves m st).length_eq]
  | create a retained _ _ _ trimmed => exact length_trimAttempts trimmed

/-! ### Transactions -/

/-- The call returned, and did to the ledger what an event may do. -/
def Served {α : Type} (event : Dict) (st : State) (result : Hooked (α × State)) : Prop :=
  ∃ r st', result = .ok (r, st') ∧ Effect event st st'

theorem Served.bind {α β : Type} {result : Hooked (α × State)} {k : α × State → Hooked (β × State)}
    (h : Served event st result) (hk : ∀ r st', ∃ out, k (r, st') = .ok (out, st')) :
    Served event st (result >>= k) := by
  obtain ⟨r, st', rfl, heffect⟩ := h
  obtain ⟨out, hout⟩ := hk r st'
  exact ⟨out, st', hout, heffect⟩

theorem validateState_of_length_le (hst : st.attempts.length ≤ maxAttempts) :
    validateState st = .ok st := by
  simp only [validateState, trimAttempts_of_length_le hst]
  rfl

/-- On a ledger that fits, neither trim of a transaction changes or refuses anything. -/
theorem transaction_eq {α : Type} {mutate : State → Hooked (α × State)}
    (hst : st.attempts.length ≤ maxAttempts)
    (hbounded : ∀ r st', mutate st = .ok (r, st') → st'.attempts.length ≤ maxAttempts) :
    transaction mutate st = mutate st := by
  simp only [transaction, validateState_of_length_le hst, bind, Except.bind]
  cases hm : mutate st with
  | error e => rfl
  | ok r =>
    obtain ⟨r, st'⟩ := r
    simp only [validateState_of_length_le (hbounded r st' hm)]
    rfl

theorem Served.transaction_eq {α : Type} {mutate : State → Hooked (α × State)}
    (h : Served event st (mutate st)) (hst : st.attempts.length ≤ maxAttempts) :
    transaction mutate st = mutate st := by
  obtain ⟨r, st', hm, heffect⟩ := h
  refine Hook.transaction_eq hst fun r₂ st₂ hm₂ => ?_
  rw [hm] at hm₂
  cases hm₂
  exact heffect.length_le hst

theorem transaction_served {α : Type} {mutate : State → Hooked (α × State)}
    (hst : st.attempts.length ≤ maxAttempts) (h : Served event st (mutate st)) :
    Served event st (transaction mutate st) := by
  rw [h.transaction_eq hst]
  exact h

theorem recordCreate_served {fingerprint : PyStr} {status : AttemptStatus}
    {classification : ResultClassification} {peerId : Option PyStr} :
    Served event st (recordCreate sessionId fingerprint status classification peerId st) := by
  unfold recordCreate
  split_ifs
  · exact ⟨true, _, rfl, .mutate (.classify sessionId fingerprint status classification peerId)
      trivial⟩
  · exact ⟨false, st, rfl, .same⟩

theorem reserveList_served (h : isPreList event sessionId = true) :
    Served event st (reserveList event sessionId st) := by
  unfold reserveList
  split
  · exact ⟨_, st, rfl, .same⟩
  · split_ifs
    · exact ⟨_, st, rfl, .same⟩
    · exact ⟨_, _, rfl, .mutate (.reserve sessionId _) h⟩

theorem resolveList_served {snapshot : Snapshot} (h : isPostList event sessionId = true) :
    Served event st (resolveList p sessionId snapshot st) := by
  unfold resolveList
  split
  · exact ⟨_, st, rfl, .same⟩
  · exact ⟨_, _, rfl, .mutate (.resolve sessionId _) h⟩

theorem surfaceStop_served : Served event st (surfaceStop sessionId st) := by
  unfold surfaceStop
  split
  · exact ⟨_, st, rfl, .same⟩
  · split_ifs
    · exact ⟨_, st, rfl, .same⟩
    · exact ⟨_, _, rfl, .mutate (.surface sessionId) trivial⟩

theorem surfaceResume_served : Served event st (surfaceResume sessionId st) := by
  unfold surfaceResume
  split
  · exact ⟨_, st, rfl, .same⟩
  · split_ifs
    · exact ⟨_, st, rfl, .same⟩
    · exact ⟨_, _, rfl, .mutate (.resume sessionId) trivial⟩

/-! ### Recording a create -/

section Create

variable {input : Dict} {context : TargetContext} {print : PyStr} {now : ℤ}

theorem newAttempt_spec
    (h : newAttempt p input context print event sessionId now = .ok a) :
    a.status = .pending ∧ a.sessionId = sessionId ∧ a.blocksCreate = false := by
  unfold newAttempt at h
  cases htitle : titleIdentity p (input.get? (lit "title")) with
  | error e =>
    rw [htitle] at h
    cases h
  | ok title =>
    rw [htitle] at h
    cases h
    exact ⟨rfl, rfl, rfl⟩

/-- A session is free exactly when the guard of a create finds nothing of it. -/
theorem owners_eq_zero_iff :
    st.owners sessionId = 0 ↔ st.unresolvedAttempts sessionId = [] ∧
      st.attempts.any (fun a => a.ownedBy sessionId && a.blocksCreate) = false := by
  simp only [State.owners, State.unresolvedAttempts, List.countP_eq_zero, List.filter_eq_nil_iff,
    List.any_eq_false, ← forall₂_and]
  refine forall₂_congr fun a _ => ?_
  cases hown : a.ownedBy sessionId <;> simp [Attempt.owns, Attempt.isRecoveryBlocking, hown]

/-- A create is refused and changes nothing, or records one attempt of a free session. -/
theorem reserveCreate_cases {r : CreateOutcome}
    (h : reserveCreate p input context print event sessionId now st = .ok (r, st')) :
    (r ≠ .allowed ∧ st' = st) ∨ (r = .allowed ∧ st.owners sessionId = 0 ∧
      st.blockingCount < maxAttempts ∧ ∃ a retained,
        newAttempt p input context print event sessionId now = .ok a ∧
        trimAttempts (st.attempts ++ [a]) = .ok retained ∧ st' = ⟨retained⟩) := by
  unfold reserveCreate at h
  dsimp only at h
  split_ifs at h with howned hturn hfull
  · cases h
    exact .inl ⟨nofun, rfl⟩
  · cases h
    exact .inl ⟨nofun, rfl⟩
  · cases h
    exact .inl ⟨nofun, rfl⟩
  · right
    cases hnew : newAttempt p input context print event sessionId now with
    | error e =>
      rw [hnew] at h
      cases h
    | ok a =>
      rw [hnew] at h
      cases htrim : trimAttempts (st.attempts ++ [a]) with
      | error e =>
        simp only [Checked.lift, Except.mapError, bind, Except.bind, htrim, reduceCtorEq] at h
      | ok retained =>
        simp only [Checked.lift, Except.mapError, bind, Except.bind, htrim, pure, Except.pure,
          Except.ok.injEq, Prod.mk.injEq] at h
        obtain ⟨rfl, rfl⟩ := h
        refine ⟨rfl, owners_eq_zero_iff.2 ?_, by omega, a, retained, rfl, htrim, rfl⟩
        simpa using howned

theorem reserveCreate_effect {r : CreateOutcome}
    (h : reserveCreate p input context print event sessionId now st = .ok (r, st')) :
    Effect event st st' := by
  obtain ⟨-, rfl⟩ | ⟨-, hfree, -, a, retained, hnew, htrim, rfl⟩ := reserveCreate_cases h
  · exact .same
  · obtain ⟨hpending, hsession, hblocks⟩ := newAttempt_spec hnew
    exact .create a retained hpending (hsession ▸ hfree) hblocks htrim

/-- The room the guard checked is enough for the new attempt. -/
theorem trimAttempts_append_ok (hroom : st.blockingCount < maxAttempts) (a : Attempt) :
    ∃ retained, trimAttempts (st.attempts ++ [a]) = .ok retained := by
  rw [trimAttempts_ok_iff, List.countP_append, List.countP_singleton]
  unfold State.blockingCount at hroom
  split_ifs <;> omega

theorem reserveCreate_error {e : HookError}
    (h : reserveCreate p input context print event sessionId now st = .error e) :
    ∃ payload, e = .payload payload := by
  unfold reserveCreate at h
  dsimp only at h
  split_ifs at h with howned hturn hfull
  cases hnew : newAttempt p input context print event sessionId now with
  | error payload =>
    simp only [hnew, Checked.lift, Except.mapError, bind, Except.bind, Except.error.injEq] at h
    exact ⟨payload, h.symm⟩
  | ok a =>
    obtain ⟨retained, htrim⟩ := trimAttempts_append_ok (Nat.lt_of_not_le hfull) a
    simp only [hnew, Checked.lift, Except.mapError, bind, Except.bind, htrim, pure, Except.pure,
      reduceCtorEq] at h

/-- The attempt is the record of the event's repaired payload. -/
def RecordsCreate (p : Platform) (event : Dict) (sessionId : PyStr) (now : ℤ) (a : Attempt) :
    Prop :=
  ∃ input changed context print,
    repairPayload p (event.get (lit "tool_input")) = .ok (input, changed, context) ∧
    fingerprint p input context = .ok print ∧
    newAttempt p input context print event sessionId now = .ok a

theorem RecordsCreate.spec (h : RecordsCreate p event sessionId now a) :
    a.status = .pending ∧ a.sessionId = sessionId ∧ a.blocksCreate = false := by
  obtain ⟨input, changed, context, print, -, -, hnew⟩ := h
  exact newAttempt_spec hnew

/-- A `PreToolUse` create ends in a payload error, an allowance without session, a denial that
changes nothing, or an allowance that records the one attempt of a free session. -/
theorem allowPreCreate_cases (p : Platform) (now : ℤ) (event : Dict)
    (hst : st.attempts.length ≤ maxAttempts) :
    (∃ e, allowPreCreate p now event st = .error (.payload e)) ∨
    (eventSessionId event = none ∧
      ∃ updated warning, allowPreCreate p now event st = .ok (.preAllow updated warning, st)) ∨
    (∃ reason, allowPreCreate p now event st = .ok (.deny reason, st)) ∨
    ∃ sessionId updated a retained,
      eventSessionId event = some sessionId ∧ RecordsCreate p event sessionId now a ∧
      st.owners sessionId = 0 ∧ trimAttempts (st.attempts ++ [a]) = .ok retained ∧
      allowPreCreate p now event st = .ok (.preAllow updated none, ⟨retained⟩) := by
  unfold allowPreCreate
  cases hrepair : repairPayload p (event.get (lit "tool_input")) with
  | error e => exact .inl ⟨e, rfl⟩
  | ok repair =>
    obtain ⟨repaired, changed, context⟩ := repair
    simp only [Checked.lift, Except.mapError, bind, Except.bind]
    cases hsession : eventSessionId event with
    | none => exact .inr (.inl ⟨rfl, _, _, rfl⟩)
    | some sessionId =>
      dsimp only
      cases hprint : fingerprint p repaired context with
      | error e => exact .inl ⟨e, rfl⟩
      | ok print =>
        simp only [transaction_eq hst fun r st' h => Effect.length_le (reserveCreate_effect h) hst]
        cases hres : reserveCreate p repaired context print event sessionId now st with
        | error e =>
          obtain ⟨payload, rfl⟩ := reserveCreate_error hres
          exact .inl ⟨payload, rfl⟩
        | ok result =>
          obtain ⟨r, st'⟩ := result
          obtain ⟨hr, rfl⟩ | ⟨rfl, hfree, -, a, retained, hnew, htrim, rfl⟩ :=
            reserveCreate_cases hres
          · refine .inr (.inr (.inl ?_))
            cases r with
            | duplicate => exact ⟨_, rfl⟩
            | saturated => exact ⟨_, rfl⟩
            | allowed => exact absurd rfl hr
          · exact .inr (.inr (.inr ⟨sessionId, _, a, retained, rfl,
              ⟨repaired, changed, context, print, hrepair, hprint, hnew⟩, hfree, htrim, rfl⟩))

end Create

/-! ### Handlers -/

section Handlers

variable {now : ℤ}

theorem postCreate_served (hst : st.attempts.length ≤ maxAttempts) :
    Served event st (postCreate p event st) := by
  unfold postCreate
  cases eventSessionId event with
  | none => exact ⟨_, st, rfl, .same⟩
  | some sessionId =>
    dsimp only
    split
    · split
      · exact ⟨_, st, rfl, .same⟩
      · refine (transaction_served hst recordCreate_served).bind fun found st' => ?_
        dsimp only
        split_ifs
        · exact ⟨_, rfl⟩
        · exact ⟨_, rfl⟩
    · exact ⟨_, st, rfl, .same⟩

theorem preList_served (hst : st.attempts.length ≤ maxAttempts)
    (hlist : ∀ s, eventSessionId event = some s → isPreList event s = true) :
    Served event st (preList event st) := by
  unfold preList
  cases hsession : eventSessionId event with
  | none => exact ⟨_, st, rfl, .same⟩
  | some sessionId =>
    refine (transaction_served hst (reserveList_served (hlist _ hsession))).bind fun outcome st' => ?_
    cases outcome with
    | ordinary => exact ⟨_, rfl⟩
    | duplicate => exact ⟨_, rfl⟩
    | reserved => exact ⟨_, rfl⟩

theorem postList_served (hst : st.attempts.length ≤ maxAttempts)
    (hlist : ∀ s, eventSessionId event = some s → isPostList event s = true) :
    Served event st (postList p event st) := by
  unfold postList
  cases hsession : eventSessionId event with
  | none => exact ⟨_, st, rfl, .same⟩
  | some sessionId =>
    refine (transaction_served hst (resolveList_served (hlist _ hsession))).bind fun verdict st' => ?_
    cases verdict with
    | none => exact ⟨_, rfl⟩
    | some verdict => exact ⟨_, rfl⟩

theorem stop_served (hst : st.attempts.length ≤ maxAttempts) : Served event st (stop event st) := by
  unfold stop
  split_ifs
  · exact ⟨_, st, rfl, .same⟩
  · cases eventSessionId event with
    | none => exact ⟨_, st, rfl, .same⟩
    | some sessionId =>
      exact (transaction_served hst surfaceStop_served).bind fun surfaced st' => ⟨_, rfl⟩

theorem sessionStart_served (hst : st.attempts.length ≤ maxAttempts) :
    Served event st (sessionStart event st) := by
  unfold sessionStart
  split_ifs
  · exact ⟨_, st, rfl, .same⟩
  · cases eventSessionId event with
    | none => exact ⟨_, st, rfl, .same⟩
    | some sessionId =>
      refine (transaction_served hst surfaceResume_served).bind fun attempt st' => ?_
      cases attempt with
      | none => exact ⟨_, rfl⟩
      | some attempt => exact ⟨_, rfl⟩

/-- A create that ends without exception, denials of malformed payloads included. -/
theorem denyPayload_served (hst : st.attempts.length ≤ maxAttempts) :
    Served event st (denyPayload (allowPreCreate p now event st) st) := by
  obtain ⟨e, h⟩ | ⟨-, updated, warning, h⟩ | ⟨reason, h⟩ |
    ⟨sessionId, updated, a, retained, -, hrecord, hfree, htrim, h⟩ :=
    allowPreCreate_cases p now event hst
  · rw [h]
    exact ⟨_, st, rfl, .same⟩
  · rw [h]
    exact ⟨_, st, rfl, .same⟩
  · rw [h]
    exact ⟨_, st, rfl, .same⟩
  · rw [h]
    obtain ⟨hpending, hsession, hblocks⟩ := hrecord.spec
    exact ⟨_, _, rfl, .create a retained hpending (hsession ▸ hfree) hblocks htrim⟩

/-- The only exception a handler leaves to `main` is an unhashable tool name. -/
theorem dispatch_served (p : Platform) (now : ℤ) (event : Dict)
    (hst : st.attempts.length ≤ maxAttempts) :
    dispatch p now event st = .error .type ∨ Served event st (dispatch p now event st) := by
  have htool : ∀ toolName, toolOf toolName = .error .type ∨ ∃ tool, toolOf toolName = .ok tool := by
    intro toolName
    cases toolName with
    | arr items => exact .inl rfl
    | obj fields => exact .inl rfl
    | str s =>
      right
      simp only [toolOf, isTool, bind, Except.bind, pure, Except.pure]
      split_ifs <;> exact ⟨_, rfl⟩
    | _ => exact .inr ⟨.other, rfl⟩
  have hsame : Served event st (.ok (Output.silent, st)) := ⟨_, st, rfl, .same⟩
  unfold dispatch
  dsimp only
  split_ifs with hpre hpost
  · rcases htool (event.get (lit "tool_name")) with herror | ⟨tool, htool⟩
    · exact .inl (by rw [herror]; rfl)
    · right
      rw [htool]
      cases tool with
      | createThread => exact denyPayload_served hst
      | listThreads =>
        refine preList_served hst fun s hs => ?_
        simp [isPreList, isListEvent, isListTool, hpre, htool, hs]
      | other => exact hsame
  · rcases htool (event.get (lit "tool_name")) with herror | ⟨tool, htool⟩
    · exact .inl (by rw [herror]; rfl)
    · right
      rw [htool]
      cases tool with
      | createThread => exact postCreate_served hst
      | listThreads =>
        refine postList_served hst fun s hs => ?_
        simp [isPostList, isListEvent, isListTool, hpost, htool, hs]
      | other => exact hsame
  · exact .inr (stop_served hst)
  · exact .inr (sessionStart_served hst)
  · exact .inr hsame

end Handlers

/-! ### One invocation -/

theorem main_event (p : Platform) (st : State) (now : ℤ) (event : Dict) :
    main p st ⟨now, some event⟩ =
      match dispatch p now event st with
      | .ok result => result
      | .error e => (.warning (lit "internal " ++ e.typeName), st) := rfl

/-- The event of an invocation; without one nothing is looked up. -/
def Input.dict (input : Input) : Dict := input.event.getD []

theorem main_effect (hst : st.attempts.length ≤ maxAttempts) (input : Input) :
    Effect input.dict st (next p st input) := by
  obtain ⟨now, event⟩ := input
  cases event with
  | none => exact .same
  | some event =>
    unfold next
    rw [main_event]
    rcases dispatch_served p now event hst with
      herror | ⟨out, st', hok, heffect⟩
    · rw [herror]
      exact .same
    · rw [hok]
      exact heffect

/-- A create of a session is denied and changes nothing, or is allowed, once the session is free,
with its attempt recorded. -/
theorem main_preCreate {event : Dict} (h : IsPreCreate event sessionId) (now : ℤ)
    (hst : st.attempts.length ≤ maxAttempts) :
    ((main p st ⟨now, some event⟩).1.denies = true ∧
      (main p st ⟨now, some event⟩).1.allows = false ∧ (main p st ⟨now, some event⟩).2 = st) ∨
    ((main p st ⟨now, some event⟩).1.allows = true ∧ st.owners sessionId = 0 ∧
      ∃ a ∈ (main p st ⟨now, some event⟩).2.attempts,
        RecordsCreate p event sessionId now a ∧ a.status = .pending) := by
  have hdispatch : dispatch p now event st = denyPayload (allowPreCreate p now event st) st := by
    unfold dispatch
    rw [if_pos h.name, h.tool]
    rfl
  rw [main_event, hdispatch]
  obtain ⟨e, hcase⟩ | ⟨hnone, -⟩ | ⟨reason, hcase⟩ |
    ⟨s, updated, a, retained, hsome, hrecord, hfree, htrim, hcase⟩ :=
    allowPreCreate_cases p now event hst
  · rw [hcase]
    exact .inl ⟨rfl, rfl, rfl⟩
  · rw [h.session] at hnone
    cases hnone
  · rw [hcase]
    exact .inl ⟨rfl, rfl, rfl⟩
  · rw [h.session] at hsome
    cases hsome
    rw [hcase]
    have hpending := hrecord.spec.1
    refine .inr ⟨rfl, hfree, a, ?_, hrecord, hpending⟩
    exact mem_trimAttempts htrim (List.mem_append_right _ List.mem_cons_self)
      (blocking_of_pending hpending)

end CodexFlow.Hook
