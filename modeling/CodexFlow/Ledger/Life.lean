import CodexFlow.Ledger.System

/-!
# The life of a dispatch

What the tables are for, one dispatch at a time: its state and attempt, its one result, the retry
strategy it waits for, what was charged to it, and the successors that wait for it. `Life.Step` lists
everything one call may do to these facts; the rows of the ledger refine it.
-/

namespace CodexFlow.Ledger

inductive Counter where
  | preIdentity
  | invalidChain
  | schemaEnvelope
  | postIdentityLoss
  | providerTransient
  | inspection
  | continuation
  | freshThread
deriving DecidableEq

structure Life where
  state : QueueState
  attempt : ℕ
  result : Option String
  strategy : RecoveryStrategy
  used : Counter → ℕ
  granted : ℕ
  waits : List DispatchId

def usedBy (p : RetryPolicy) (s : RecoveryState) : Counter → ℕ
  | .preIdentity => p.preIdentity.used
  | .invalidChain => p.invalidChain.used
  | .schemaEnvelope => p.schemaEnvelope.used
  | .postIdentityLoss => p.postIdentityLoss.used
  | .providerTransient => p.providerTransient.used
  | .inspection => s.inspection.used
  | .continuation => s.continuation.used
  | .freshThread => s.freshThread.used

namespace DispatchRows

variable (r : DispatchRows)

def waits : List DispatchId :=
  (r.successors.filter (·.releasedAt.isNone)).map (·.successorDispatchId)

def life : Life where
  state := r.queue.state
  attempt := r.queue.attempt
  result := r.rawSha256
  strategy := r.policy.strategy
  used := usedBy r.policy r.recovery
  granted := r.policy.providerTransientGrantUsed
  waits := r.waits

end DispatchRows

namespace QueueState

/-- The states before and during the run of a worker. -/
def isEarly (s : QueueState) : Bool := s ∈ [.queued, .claimed, .starting, .running]

/-- The states of a recovery that needs no human. -/
def isPending (s : QueueState) : Bool :=
  s ∈ [.recoveryInspectionPending, .recoveryRetryWait, .recoveryContinuationPending]

end QueueState

/-- Why a call may requeue a dispatch or gate it. -/
inductive Cause where
  | recover
  | decision
  | action
  | grant
  | exit
  | gate (successor : DispatchId)
  | other
deriving DecidableEq

/-- The requeues that no counter pays for. -/
def Cause.releases (c : Cause) : Bool := c = .recover || c = .decision || c = .action

namespace Life

/-- What one call may do to the life of a dispatch. -/
inductive Step : Cause → Life → Life → Prop
  | stay (c : Cause) (ℓ : Life) : Step c ℓ ℓ
  | settle {c : Cause} {ℓ : Life} (h : ℓ.state.isTerminal) : Step c ℓ { ℓ with strategy := .none }
  | move {c : Cause} {ℓ : Life} (h : ℓ.state.isEarly) {state : QueueState} (hs : state.isEarly) :
      Step c ℓ { ℓ with state := state }
  | cancel {c : Cause} {ℓ : Life} (h : ℓ.state.isNonterminal) :
      Step c ℓ { ℓ with state := .cancelled, strategy := .none }
  | release {c : Cause} {ℓ : Life} (hc : c.releases) (h : ¬ℓ.state.isTerminal)
      (hcancelled : ℓ.state = .cancelled → c = .decision) {strategy : RecoveryStrategy}
      (hs : strategy = .none ∨ strategy = ℓ.strategy ∧ ℓ.state.isEarly) :
      Step c ℓ { ℓ with state := .queued, attempt := ℓ.attempt + 1, strategy := strategy }
  | retry {c : Cause} {ℓ : Life} (h : ℓ.state.isNonterminal) {used : Counter → ℕ}
      (hused : ∀ k, ℓ.used k ≤ used k)
      (hpaid : used .preIdentity = ℓ.used .preIdentity + 1) :
      Step c ℓ { ℓ with
        state := .queued, attempt := ℓ.attempt + 1, strategy := .backoff, used := used }
  | resume {c : Cause} {ℓ : Life} (h : ℓ.state.isNonterminal) {used : Counter → ℕ}
      (hused : ∀ k, ℓ.used k ≤ used k)
      (hpaid : used .continuation = ℓ.used .continuation + 1) :
      Step c ℓ { ℓ with
        state := .claimed, attempt := ℓ.attempt + 1, strategy := .none, used := used }
  | attend {c : Cause} {ℓ : Life} (h : ℓ.state.isNonterminal) {used : Counter → ℕ}
      (hused : ∀ k, ℓ.used k ≤ used k) :
      Step c ℓ { ℓ with
        state := .humanAttentionRequired, strategy := .humanAttention, used := used }
  | draw {c : Cause} {ℓ : Life} (h : ℓ.state.isNonterminal) (hℓ : ℓ.strategy ≠ .humanAttention)
      {strategy : RecoveryStrategy} (hs : strategy ≠ .humanAttention) {used : Counter → ℕ}
      (hused : ∀ k, ℓ.used k ≤ used k) :
      Step c ℓ { ℓ with strategy := strategy, used := used }
  | inspect {c : Cause} {ℓ : Life} (h : ℓ.state.isNonterminal) {state : QueueState}
      (hstate : state.isPending) {strategy : RecoveryStrategy}
      (hs : strategy ≠ .humanAttention ∨
        strategy = ℓ.strategy ∧ ℓ.state ≠ .humanAttentionRequired)
      {used : Counter → ℕ} (hused : ∀ k, ℓ.used k ≤ used k) :
      Step c ℓ { ℓ with state := state, strategy := strategy, used := used }
  | grant {ℓ : Life} (h : ℓ.state = .humanAttentionRequired) {used : Counter → ℕ}
      (hused : ∀ k, ℓ.used k ≤ used k) :
      Step .grant ℓ { ℓ with
        state := .recoveryInspectionPending, strategy := .sameThreadContinuation, used := used
        granted := ℓ.granted + 1 }
  /-- The exit whose strategy is written over the attention it had recorded. -/
  | overwrite {ℓ : Life} (h : ℓ.state.isNonterminal) {strategy : RecoveryStrategy}
      (hs : strategy ≠ .humanAttention) {used : Counter → ℕ} (hused : ∀ k, ℓ.used k ≤ used k) :
      Step .exit ℓ { ℓ with
        state := .humanAttentionRequired, strategy := strategy, used := used }
  | finish {c : Cause} {ℓ : Life} (h : ℓ.state.isNonterminal) {state : QueueState}
      (hs : state.isTerminal) (result : String) :
      Step c ℓ { ℓ with state := state, result := some result, strategy := .none, waits := [] }
  | gate {ℓ : Life} (successor : DispatchId) :
      Step (.gate successor) ℓ { ℓ with waits := ℓ.waits ++ [successor] }

variable {c : Cause} {ℓ ℓ' : Life}

/-- The queue and the policy agree on whether a human has to look. -/
def Coherent (ℓ : Life) : Prop :=
  ℓ.state = .humanAttentionRequired ↔ ℓ.strategy = .humanAttention

/-- The strategy has been written over the attention. -/
def Overwritten (ℓ : Life) : Prop :=
  ℓ.state = .humanAttentionRequired ∧ ℓ.strategy ≠ .humanAttention

/-- Exactly the completed and failed dispatches hold a result. -/
def Recorded (ℓ : Life) : Prop := ℓ.result.isSome = ℓ.state.isTerminal

theorem isTerminal_of_isNonterminal {s : QueueState} (h : s.isNonterminal) : ¬s.isTerminal := by
  cases s <;> simp_all [QueueState.isNonterminal, QueueState.isTerminal]

theorem ne_cancelled_of_isNonterminal {s : QueueState} (h : s.isNonterminal) : s ≠ .cancelled := by
  rintro rfl
  exact absurd h (by decide)

theorem isNonterminal_of_isEarly {s : QueueState} (h : s.isEarly) : s.isNonterminal := by
  cases s <;> simp_all [QueueState.isNonterminal, QueueState.isEarly]

theorem ne_attention_of_isEarly {s : QueueState} (h : s.isEarly) : s ≠ .humanAttentionRequired := by
  rintro rfl
  exact absurd h (by decide)

theorem ne_attention_of_isPending {s : QueueState} (h : s.isPending) :
    s ≠ .humanAttentionRequired := by
  rintro rfl
  exact absurd h (by decide)

theorem ne_attention_of_isTerminal {s : QueueState} (h : s.isTerminal) :
    s ≠ .humanAttentionRequired := by
  rintro rfl
  exact absurd h (by decide)

/-! ### What every step keeps -/

theorem Step.attempt_le (h : Step c ℓ ℓ') : ℓ.attempt ≤ ℓ'.attempt := by
  cases h <;> simp

theorem Step.used_le (h : Step c ℓ ℓ') (k : Counter) : ℓ.used k ≤ ℓ'.used k := by
  cases h with
  | retry _ hused _ => exact hused k
  | resume _ hused _ => exact hused k
  | attend _ hused => exact hused k
  | draw _ _ _ hused => exact hused k
  | inspect _ _ _ hused => exact hused k
  | grant _ hused => exact hused k
  | overwrite _ _ hused => exact hused k
  | _ => exact Nat.le_refl _

theorem Step.paid (h : Step c ℓ ℓ') (hc : ¬c.releases) :
    ℓ'.attempt + (ℓ.used .preIdentity + ℓ.used .continuation) ≤
      ℓ.attempt + (ℓ'.used .preIdentity + ℓ'.used .continuation) := by
  have hpre := h.used_le .preIdentity
  have hcont := h.used_le .continuation
  cases h with
  | release hc' => exact absurd hc' hc
  | retry _ _ hpaid =>
    dsimp only at hpre hcont ⊢
    omega
  | resume _ _ hpaid =>
    dsimp only at hpre hcont ⊢
    omega
  | _ => exact Nat.add_le_add (Nat.le_refl _) (Nat.add_le_add hpre hcont)

theorem Step.attempt_le_succ (h : Step c ℓ ℓ') : ℓ'.attempt ≤ ℓ.attempt + 1 := by
  cases h <;> simp

theorem Step.terminal (h : Step c ℓ ℓ') (hℓ : ℓ.state.isTerminal) :
    ℓ'.state = ℓ.state ∧ ℓ'.result = ℓ.result ∧ ℓ'.attempt = ℓ.attempt := by
  cases h with
  | stay => exact ⟨rfl, rfl, rfl⟩
  | settle => exact ⟨rfl, rfl, rfl⟩
  | gate => exact ⟨rfl, rfl, rfl⟩
  | move hearly => exact absurd hℓ (isTerminal_of_isNonterminal (isNonterminal_of_isEarly hearly))
  | release _ hterminal => exact absurd hℓ hterminal
  | draw hnon => exact absurd hℓ (isTerminal_of_isNonterminal hnon)
  | cancel hnon => exact absurd hℓ (isTerminal_of_isNonterminal hnon)
  | retry hnon => exact absurd hℓ (isTerminal_of_isNonterminal hnon)
  | resume hnon => exact absurd hℓ (isTerminal_of_isNonterminal hnon)
  | attend hnon => exact absurd hℓ (isTerminal_of_isNonterminal hnon)
  | inspect hnon => exact absurd hℓ (isTerminal_of_isNonterminal hnon)
  | grant hstate =>
    rw [hstate] at hℓ
    exact absurd hℓ (by decide)
  | overwrite hnon => exact absurd hℓ (isTerminal_of_isNonterminal hnon)
  | finish hnon => exact absurd hℓ (isTerminal_of_isNonterminal hnon)

/-- Only a decision takes a cancelled dispatch out of its state, under a new attempt. -/
theorem Step.cancelled (h : Step c ℓ ℓ') (hℓ : ℓ.state = .cancelled) :
    ℓ'.state = .cancelled ∨ c = .decision ∧ ℓ.attempt < ℓ'.attempt := by
  have hnon : ¬ℓ.state.isNonterminal := fun h => ne_cancelled_of_isNonterminal h hℓ
  cases h with
  | stay => exact .inl hℓ
  | settle => exact .inl hℓ
  | gate => exact .inl hℓ
  | cancel => exact .inl rfl
  | move hearly => exact absurd (isNonterminal_of_isEarly hearly) hnon
  | release _ _ hcancelled => exact .inr ⟨hcancelled hℓ, Nat.lt_succ_self _⟩
  | draw h => exact absurd h hnon
  | retry h => exact absurd h hnon
  | resume h => exact absurd h hnon
  | attend h => exact absurd h hnon
  | inspect h => exact absurd h hnon
  | grant h => exact absurd (h.symm.trans hℓ) (by decide)
  | overwrite h => exact absurd h hnon
  | finish h => exact absurd h hnon

theorem Step.result (h : Step c ℓ ℓ') (hℓ : ℓ.Recorded) {digest : String}
    (hd : ℓ.result = some digest) : ℓ'.result = some digest := by
  have hterminal : ℓ.state.isTerminal := by
    unfold Recorded at hℓ
    simpa [hd] using hℓ.symm
  rw [(h.terminal hterminal).2.1, hd]

theorem Step.coherent (h : Step c ℓ ℓ') (hℓ : ℓ.Coherent) :
    ℓ'.Coherent ∨ c = .exit ∧ ℓ'.Overwritten := by
  unfold Coherent Overwritten at *
  cases h with
  | stay => exact .inl hℓ
  | gate => exact .inl hℓ
  | settle hterminal => simp [ne_attention_of_isTerminal hterminal]
  | move hearly hs =>
    have hstrategy := mt hℓ.2 (ne_attention_of_isEarly hearly)
    simp [hstrategy, ne_attention_of_isEarly hs]
  | cancel => simp
  | release _ _ _ hs =>
    obtain rfl | ⟨rfl, hearly⟩ := hs
    · simp
    · have hstrategy := mt hℓ.2 (ne_attention_of_isEarly hearly)
      simp [hstrategy]
  | retry => simp
  | resume => simp
  | attend => simp
  | draw _ hne hs =>
    have hstate := mt hℓ.1 hne
    simp [hs, hstate]
  | inspect _ hstate hs =>
    obtain hs | ⟨rfl, hne⟩ := hs
    · simp [hs, ne_attention_of_isPending hstate]
    · have hstrategy := mt hℓ.2 hne
      simp [hstrategy, ne_attention_of_isPending hstate]
  | grant => simp
  | overwrite _ hs => exact .inr ⟨rfl, rfl, hs⟩
  | finish _ hs => simp [ne_attention_of_isTerminal hs]

/-- Only a grant raises the granted provider retries, by one. -/
theorem Step.granted (h : Step c ℓ ℓ') :
    ℓ'.granted = ℓ.granted ∨ c = .grant ∧ ℓ'.granted = ℓ.granted + 1 := by
  cases h with
  | grant => exact .inr ⟨rfl, rfl⟩
  | _ => exact .inl rfl

theorem Step.waits (h : Step c ℓ ℓ') {successor : DispatchId} (hs : successor ∈ ℓ'.waits) :
    successor ∈ ℓ.waits ∨ c = .gate successor := by
  cases h with
  | finish => exact absurd hs List.not_mem_nil
  | gate added =>
    obtain h | h := List.mem_append.1 hs
    · exact .inl h
    · exact .inr (by rw [List.mem_singleton.1 h])
  | _ => exact .inl hs

end Life

end CodexFlow.Ledger
