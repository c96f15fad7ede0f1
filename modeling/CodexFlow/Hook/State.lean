import CodexFlow.Hook.Payload
import CodexFlow.Lib.LastMatch

/-!
# The handoff ledger

The attempts of all sessions share one list of at most `maxAttempts` entries. Reading and writing
it trims resolved history; an unresolved attempt, or one that blocks creation, is never evicted.
-/

namespace CodexFlow.Hook

inductive AttemptStatus where
  | pending
  | uncertain
  | confirmed
  | queued
  | notFound
  | ambiguous
deriving DecidableEq

inductive ResultClassification where
  | pending
  | confirmed
  | queued
  | error
  | reconciledFound
  | reconciledNotFound
  | reconciledAmbiguous
deriving DecidableEq

inductive ReconciliationClassification where
  | invalidSnapshot
  | oversizedSnapshot
  | found
  | notFound
  | ambiguous
deriving DecidableEq

/-- One recorded create. `blocksCreate`, `peerId` and `reconciliationTurnId` are absent keys until
an event writes them. -/
structure Attempt where
  fingerprint : PyStr
  title : PyStr
  titlePresent : Bool
  titleIdentity : Option TitleIdentity
  target : TargetContext
  model : PyStr
  thinking : PyStr
  turnId : Option PyStr
  sessionId : PyStr
  createdAt : ℤ
  status : AttemptStatus
  resultClassification : ResultClassification
  reconciliationClassification : Option ReconciliationClassification
  reconciliationUsed : Bool
  stopSurfaceUsed : Bool
  resumeSessions : List PyStr
  blocksCreate : Bool := false
  peerId : Option PyStr := none
  reconciliationTurnId : Option PyStr := none
deriving DecidableEq

structure State where
  attempts : List Attempt
deriving DecidableEq

def emptyState : State := ⟨[]⟩

/-- What a hook call can raise. -/
inductive HookError where
  | payload (error : PayloadError)
  | runtime (message : PyStr)
  | type
deriving DecidableEq

abbrev Hooked (α : Type) := Except HookError α

def Checked.lift {α : Type} (result : Checked α) : Hooked α := result.mapError .payload

/-- The last attempt satisfying `p` mutated in place. -/
def State.modifyLast (p : Attempt → Bool) (f : Attempt → Attempt) (st : State) : State :=
  { st with attempts := LastMatch.modifyLast p f st.attempts }

/-! ### Attempts that block -/

/-- `status` is pending or uncertain. -/
def Attempt.isUnresolved (a : Attempt) : Bool := a.status = .pending || a.status = .uncertain

def Attempt.isRecoveryBlocking (a : Attempt) : Bool := a.isUnresolved || a.blocksCreate

def Attempt.ownedBy (a : Attempt) (sessionId : PyStr) : Bool := a.sessionId = sessionId

/-- An attempt that keeps its session from another create. -/
def Attempt.owns (sessionId : PyStr) (a : Attempt) : Bool :=
  a.ownedBy sessionId && a.isRecoveryBlocking

def State.unresolvedAttempts (st : State) (sessionId : PyStr) : List Attempt :=
  st.attempts.filter fun a => a.ownedBy sessionId && a.isUnresolved

def State.blockingCount (st : State) : ℕ := st.attempts.countP Attempt.isRecoveryBlocking

/-- The number of attempts of a session that are unresolved or block creation. -/
def State.owners (st : State) (sessionId : PyStr) : ℕ := st.attempts.countP (Attempt.owns sessionId)

/-! ### Trimming -/

/-- The retained items, and how many evictions are still owed. -/
def dropResolved : ℕ → List Attempt → ℕ × List Attempt
  | toDrop, [] => (toDrop, [])
  | toDrop, a :: attempts =>
    if toDrop ≠ 0 && !a.isRecoveryBlocking then dropResolved (toDrop - 1) attempts
    else ((dropResolved toDrop attempts).1, a :: (dropResolved toDrop attempts).2)

def trimAttempts (attempts : List Attempt) : Hooked (List Attempt) :=
  if maxAttempts < attempts.countP Attempt.isRecoveryBlocking then
    .error (.runtime (lit "handoff state contains too many recovery-blocking attempts"))
  else if attempts.length ≤ maxAttempts then .ok attempts
  else
    let trimmed := dropResolved (attempts.length - maxAttempts) attempts
    if trimmed.1 ≠ 0 then .error (.runtime (lit "handoff state cannot safely evict attempts"))
    else .ok trimmed.2

def validateState (st : State) : Hooked State := do
  let attempts ← trimAttempts st.attempts
  return { st with attempts }

/-- Read, mutate, write. The file is replaced last, so an error leaves the state as it was. -/
def transaction {α : Type} (mutate : State → Hooked (α × State)) (st : State) :
    Hooked (α × State) := do
  let st ← validateState st
  let (result, st) ← mutate st
  let st ← validateState st
  return (result, st)

/-! ### What trimming keeps -/

variable {attempts retained : List Attempt} {n : ℕ}

theorem dropResolved_sublist (n : ℕ) (attempts : List Attempt) :
    (dropResolved n attempts).2.Sublist attempts := by
  induction attempts generalizing n with
  | nil => exact .slnil
  | cons a attempts ih =>
    unfold dropResolved
    split_ifs
    · exact .cons a (ih (n - 1))
    · exact .cons_cons a (ih n)

theorem filter_dropResolved (n : ℕ) (attempts : List Attempt) :
    (dropResolved n attempts).2.filter Attempt.isRecoveryBlocking =
      attempts.filter Attempt.isRecoveryBlocking := by
  induction attempts generalizing n with
  | nil => rfl
  | cons a attempts ih =>
    unfold dropResolved
    split_ifs with h
    · have hresolved : a.isRecoveryBlocking = false := by simpa using (Bool.and_eq_true_iff.1 h).2
      rw [ih, List.filter_cons_of_neg (by simp [hresolved])]
    · by_cases hblocking : a.isRecoveryBlocking = true
      · rw [List.filter_cons_of_pos hblocking, List.filter_cons_of_pos hblocking, ih]
      · rw [List.filter_cons_of_neg hblocking, List.filter_cons_of_neg hblocking, ih]

/-- Every eviction still owed was paid by a resolved attempt, or only blocking ones are left. -/
theorem length_dropResolved (n : ℕ) (attempts : List Attempt) :
    (dropResolved n attempts).2.length + n = attempts.length + (dropResolved n attempts).1 := by
  induction attempts generalizing n with
  | nil => simp [dropResolved]
  | cons a attempts ih =>
    unfold dropResolved
    split_ifs with h
    · have hn : n ≠ 0 := by simpa using (Bool.and_eq_true_iff.1 h).1
      have := ih (n - 1)
      simp only [List.length_cons]
      omega
    · have := ih n
      simp only [List.length_cons]
      omega

theorem owed_dropResolved (n : ℕ) (attempts : List Attempt) :
    (dropResolved n attempts).1 = 0 ∨
      (dropResolved n attempts).2.countP Attempt.isRecoveryBlocking =
        (dropResolved n attempts).2.length := by
  induction attempts generalizing n with
  | nil => exact .inr rfl
  | cons a attempts ih =>
    unfold dropResolved
    split_ifs with h
    · exact ih (n - 1)
    · rcases ih n with hzero | hall
      · exact .inl hzero
      · by_cases hblocking : a.isRecoveryBlocking = true
        · right
          rw [List.countP_cons_of_pos hblocking, List.length_cons, hall]
        · have hn : n = 0 := by
            by_contra hn
            exact h (by simp [hn, hblocking])
          left
          have hlength := length_dropResolved n attempts
          have hsub := (dropResolved_sublist n attempts).length_le
          simp only
          omega

/-- Trimming succeeds exactly when the blocking attempts fit. -/
theorem trimAttempts_ok_iff :
    (∃ retained, trimAttempts attempts = .ok retained) ↔
      attempts.countP Attempt.isRecoveryBlocking ≤ maxAttempts := by
  unfold trimAttempts
  dsimp only
  split_ifs with hmany hfits howed
  · simp only [exists_false, false_iff]
    omega
  · simp only [Except.ok.injEq, exists_eq', true_iff]
    omega
  · exfalso
    have hlength := length_dropResolved (attempts.length - maxAttempts) attempts
    have hcount : (dropResolved (attempts.length - maxAttempts) attempts).2.countP
        Attempt.isRecoveryBlocking = attempts.countP Attempt.isRecoveryBlocking := by
      rw [List.countP_eq_length_filter, filter_dropResolved, List.countP_eq_length_filter]
    rcases owed_dropResolved (attempts.length - maxAttempts) attempts with hzero | hall
    · exact howed hzero
    · omega
  · simp only [Except.ok.injEq, exists_eq', true_iff]
    omega

theorem trimAttempts_sublist (h : trimAttempts attempts = .ok retained) :
    retained.Sublist attempts := by
  unfold trimAttempts at h
  dsimp only at h
  split_ifs at h
  · cases h
    exact .refl _
  · cases h
    exact dropResolved_sublist _ _

theorem filter_trimAttempts (h : trimAttempts attempts = .ok retained) :
    retained.filter Attempt.isRecoveryBlocking = attempts.filter Attempt.isRecoveryBlocking := by
  unfold trimAttempts at h
  dsimp only at h
  split_ifs at h
  · cases h
    rfl
  · cases h
    exact filter_dropResolved _ _

theorem length_trimAttempts (h : trimAttempts attempts = .ok retained) :
    retained.length ≤ maxAttempts := by
  unfold trimAttempts at h
  dsimp only at h
  split_ifs at h with hmany hfits howed
  · cases h
    exact hfits
  · cases h
    have hlength := length_dropResolved (attempts.length - maxAttempts) attempts
    have hzero : (dropResolved (attempts.length - maxAttempts) attempts).1 = 0 := by
      simpa using howed
    omega

/-- A list that already fits is returned as it is. -/
theorem trimAttempts_of_length_le (h : attempts.length ≤ maxAttempts) :
    trimAttempts attempts = .ok attempts := by
  have hcount : attempts.countP Attempt.isRecoveryBlocking ≤ attempts.length :=
    List.countP_le_length
  unfold trimAttempts
  rw [if_neg (by omega), if_pos h]

end CodexFlow.Hook
