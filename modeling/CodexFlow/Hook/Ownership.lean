import CodexFlow.Hook.Effects

/-!
# One unresolved owner per session

From any run of the empty ledger every session has at most one owner, trimming never evicts it,
and no transaction raises.
-/

namespace CodexFlow.Hook

variable {p : Platform} {st st' : State} {a : Attempt} {event : Dict}

/-- The attempts fit and are coherent, and each session has at most one owner. -/
structure State.WellFormed (st : State) : Prop where
  length_le : st.attempts.length ≤ maxAttempts
  owners_le : ∀ sessionId, st.owners sessionId ≤ 1
  coherent : ∀ a ∈ st.attempts, a.Coherent

theorem Effect.owners_le (h : Effect event st st') (hst : ∀ s, st.owners s ≤ 1)
    (sessionId : PyStr) : st'.owners sessionId ≤ 1 := by
  cases h with
  | same => exact hst sessionId
  | mutate m _ =>
    refine Nat.le_trans (LastMatch.countP_le_of_forall₂ (forall₂_evolves m st) ?_) (hst sessionId)
    intro b c hbc hc
    rw [Attempt.owns, Bool.and_eq_true] at hc ⊢
    exact ⟨hbc.ownedBy ▸ hc.1, hbc.blocking hc.2⟩
  | create a retained _ free _ trimmed =>
    have hle : State.owners ⟨retained⟩ sessionId ≤
        (st.attempts ++ [a]).countP (Attempt.owns sessionId) :=
      (trimAttempts_sublist trimmed).countP_le
    rw [List.countP_append, List.countP_singleton] at hle
    by_cases hown : a.ownedBy sessionId = true
    · have hsession : a.sessionId = sessionId := by simpa [Attempt.ownedBy] using hown
      have hzero : st.attempts.countP (Attempt.owns sessionId) = 0 :=
        hsession ▸ free
      rw [hzero] at hle
      split_ifs at hle <;> omega
    · rw [if_neg (by simp [Attempt.owns, hown])] at hle
      exact Nat.le_trans hle (hst sessionId)

theorem Effect.coherent (h : Effect event st st') (hst : ∀ a ∈ st.attempts, a.Coherent) :
    ∀ a ∈ st'.attempts, a.Coherent := by
  cases h with
  | same => exact hst
  | mutate m _ =>
    intro b hb
    obtain ⟨a, ha, hab⟩ := LastMatch.mem_of_forall₂ (forall₂_evolves m st).flip hb
    exact hab.coherent (hst a ha)
  | create a retained pending _ unblocked trimmed =>
    intro b hb
    rcases List.mem_append.1 ((trimAttempts_sublist trimmed).mem hb) with hold | hnew
    · exact hst b hold
    · rw [List.mem_singleton.1 hnew]
      exact ⟨fun h => by simp [pending] at h, fun _ => unblocked⟩

theorem Effect.wellFormed (h : Effect event st st') (hst : st.WellFormed) : st'.WellFormed :=
  ⟨h.length_le hst.length_le, h.owners_le hst.owners_le, h.coherent hst.coherent⟩

theorem Effect.retains (h : Effect event st st') (ha : a ∈ st.attempts)
    (hblocks : a.blocksCreate = true) :
    ∃ b ∈ st'.attempts, b.identity = a.identity ∧ b.blocksCreate = true := by
  cases h with
  | same => exact ⟨a, ha, rfl, hblocks⟩
  | mutate m _ =>
    obtain ⟨b, hb, hab⟩ := LastMatch.mem_of_forall₂ (forall₂_evolves m st) ha
    exact ⟨b, hb, hab.identity, hab.blocks hblocks⟩
  | create c retained _ _ _ trimmed =>
    refine ⟨a, mem_trimAttempts trimmed ?_ (blocking_of_blocksCreate hblocks), rfl, hblocks⟩
    exact List.mem_append_left _ ha

/-! ### Runs -/

def ledgerAfter (p : Platform) (inputs : List Input) : State :=
  Machine.run (next p) emptyState inputs

theorem wellFormed_ledgerAfter (p : Platform) (inputs : List Input) :
    (ledgerAfter p inputs).WellFormed :=
  Machine.invariant (fun _ input h => (main_effect h.length_le input).wellFormed h)
    ⟨Nat.zero_le _, fun _ => Nat.zero_le _, fun _ h => absurd h List.not_mem_nil⟩ inputs

theorem retains_run (hst : st.attempts.length ≤ maxAttempts) (ha : a ∈ st.attempts)
    (hblocks : a.blocksCreate = true) (later : List Input) :
    ∃ b ∈ (Machine.run (next p) st later).attempts,
      b.identity = a.identity ∧ b.blocksCreate = true := by
  refine (Machine.invariant (I := fun st : State => st.attempts.length ≤ maxAttempts ∧
    ∃ b ∈ st.attempts, b.identity = a.identity ∧ b.blocksCreate = true) ?_
    ⟨hst, a, ha, rfl, hblocks⟩ later).2
  rintro st input ⟨hst, b, hb, hidentity, hblocks⟩
  have heffect := main_effect (p := p) hst input
  obtain ⟨c, hc, hsame, hblocks⟩ := heffect.retains hb hblocks
  exact ⟨heffect.length_le hst, c, hc, hsame.trans hidentity, hblocks⟩

/-- In every reachable ledger a session has at most one attempt that is unresolved or blocks
creation, no create of it is allowed while it has one, and an attempt that blocks creation blocks
it in every later ledger. -/
theorem one_unresolved_owner (p : Platform) (inputs : List Input) :
    (∀ sessionId, (ledgerAfter p inputs).owners sessionId ≤ 1) ∧
    (∀ event sessionId now, IsPreCreate event sessionId →
      0 < (ledgerAfter p inputs).owners sessionId →
      (main p (ledgerAfter p inputs) ⟨now, some event⟩).1.allows = false) ∧
    ∀ a ∈ (ledgerAfter p inputs).attempts, a.blocksCreate = true → ∀ later,
      ∃ b ∈ (ledgerAfter p (inputs ++ later)).attempts,
        b.identity = a.identity ∧ b.blocksCreate = true := by
  have hst := wellFormed_ledgerAfter p inputs
  refine ⟨hst.owners_le, fun event sessionId now hevent howner => ?_, ?_⟩
  · obtain ⟨-, hallow, -⟩ | ⟨-, hfree, -⟩ := main_preCreate (p := p) hevent now hst.length_le
    · exact hallow
    · omega
  · intro a ha hblocks later
    unfold ledgerAfter at ha ⊢
    rw [Machine.run_append]
    exact retains_run hst.length_le ha hblocks later

end CodexFlow.Hook
