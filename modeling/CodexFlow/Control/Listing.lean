import CodexFlow.Ledger.System
import Mathlib

/-!
# Control listings

The listings of the workers and of their decisions that a control client pages through, in the
order of their keys, and the columns that identify a snapshot of a listing.
-/

namespace CodexFlow.Control

open Ledger

inductive ControlListKind where
  | workers
  | decisions
deriving DecidableEq

inductive ControlListVisibility where
  | active
  | all
deriving DecidableEq

/-- The ordering key of an entry: its category, then its place in the category, then its id. -/
structure ControlKey where
  category : ℕ
  place : ℤ
  id : String
deriving DecidableEq

def ControlKey.le (a b : ControlKey) : Prop :=
  a.category < b.category ∨ a.category = b.category ∧
    (a.place < b.place ∨ a.place = b.place ∧ a.id ≤ b.id)

instance : DecidableRel ControlKey.le := fun a b => by unfold ControlKey.le; infer_instance

/-- The columns of an entry that the fingerprint of its listing hashes. -/
inductive ControlSource where
  | worker (dispatchId : String) (sequence : ℕ) (state : QueueState) (generation attempt : ℕ)
      (updatedAt : Time)
  | decision (decisionId : String) (state : ControllerDecisionState)
      (revision currentGeneration : ℕ) (updatedAt : Time)
deriving DecidableEq

def ControlSource.id : ControlSource → String
  | worker dispatchId .. => dispatchId
  | decision decisionId .. => decisionId

/-- One row of a listing: its category, its place in it and its hashed columns. -/
structure ControlEntry where
  category : ℕ
  place : ℤ
  source : ControlSource
deriving DecidableEq

namespace ControlEntry

def id (e : ControlEntry) : String := e.source.id

def key (e : ControlEntry) : ControlKey := ⟨e.category, e.place, e.id⟩

end ControlEntry

def kindText : WakeKind → String
  | .checkpoint => "checkpoint"
  | .terminal => "terminal"

/-- `decision/wake/...`: the cycle is named from the second one on. -/
def decisionId (dispatchId : DispatchId) (kind : WakeKind) (cycle : ℕ) : String :=
  if cycle = 1 then "decision/wake/" ++ dispatchId ++ "/" ++ kindText kind
  else "decision/wake/" ++ dispatchId ++ "/" ++ kindText kind ++ "/" ++ cycle.repr

def needsAttention (d : ControllerDecision) : Bool :=
  d.state ∈ [.pendingDelivery, .awaitingClaim, .claimed, .actionCommitted, .humanAttentionRequired]

def terminal (r : DispatchRows) : Bool := r.queue.state ∈ [.completed, .failed, .cancelled]

def workerCategory (r : DispatchRows) : ℕ :=
  if r.queue.state ∈ [.claimed, .starting, .running] then 0
  else if !terminal r || r.decisions.any needsAttention then 1
  else 2

def workerEntry (dispatchId : DispatchId) (r : DispatchRows) : ControlEntry where
  category := workerCategory r
  place := -r.queue.sequence
  source := .worker dispatchId r.queue.sequence r.queue.state r.queue.generation r.queue.attempt
    r.queue.updatedAt

def decisionEntry (dispatchId : DispatchId) (d : ControllerDecision) : ControlEntry where
  category := if needsAttention d then 0 else 1
  place := d.deadline
  source := .decision (decisionId dispatchId d.kind d.cycleSequence) d.state d.revision
    d.currentGeneration d.updatedAt

def controlRows (L : Ledger) (visibility : ControlListVisibility) :
    ControlListKind → List ControlEntry
  | .workers =>
    (L.dispatches.entries.filter fun entry => visibility = .all || !terminal entry.2 ||
      entry.2.decisions.any needsAttention).map fun entry => workerEntry entry.1 entry.2
  | .decisions => L.dispatches.entries.flatMap fun entry =>
    (entry.2.decisions.filter fun d => visibility = .all || needsAttention d).map
      (decisionEntry entry.1)

/-- `_control_list_entries` -/
def controlListEntries (L : Ledger) (kind : ControlListKind) (visibility : ControlListVisibility) :
    List ControlEntry :=
  (controlRows L visibility kind).insertionSort fun a b => a.key.le b.key

/-- What `control_list_fingerprint` hashes. -/
structure SnapshotPayload where
  kind : ControlListKind
  visibility : ControlListVisibility
  schemaVersion : ℕ
  harnessEpoch : ℕ
  source : List ControlSource
deriving DecidableEq

def snapshotPayload (L : Ledger) (kind : ControlListKind) (visibility : ControlListVisibility)
    (harnessEpoch : ℕ) : SnapshotPayload :=
  ⟨kind, visibility, 22, harnessEpoch, (controlListEntries L kind visibility).map (·.source)⟩

/-! ### Identities -/

theorem eq_of_append_slash {s s' t t' : List Char} (ht : '/' ∉ t) (ht' : '/' ∉ t')
    (h : s ++ '/' :: t = s' ++ '/' :: t') : s = s' ∧ t = t' := by
  obtain ⟨m, rfl, hm⟩ | ⟨m, rfl, hm⟩ := List.append_eq_append_iff.1 h
  · cases m with
    | nil => exact ⟨(List.append_nil s).symm, (List.cons.inj hm).2⟩
    | cons c m =>
      obtain ⟨rfl, rfl⟩ := List.cons.inj hm
      exact absurd (List.mem_append_right _ List.mem_cons_self) ht
  · cases m with
    | nil => exact ⟨List.append_nil s', (List.cons.inj hm).2.symm⟩
    | cons c m =>
      obtain ⟨rfl, rfl⟩ := List.cons.inj hm
      exact absurd (List.mem_append_right _ List.mem_cons_self) ht'

theorem isDigit_of_mem_repr {n : ℕ} {c : Char} (h : c ∈ n.repr.toList) : c.isDigit := by
  rw [Nat.repr, String.toList_ofList] at h
  exact Nat.isDigit_of_mem_toDigits (by decide) (by decide) h

theorem slash_notMem_repr (n : ℕ) : '/' ∉ n.repr.toList := by
  intro h
  have hdigit := isDigit_of_mem_repr h
  revert hdigit
  decide

theorem kindText_ne_repr (kind : WakeKind) (n : ℕ) : (kindText kind).toList ≠ n.repr.toList := by
  intro h
  have hdigit : ∀ c ∈ (kindText kind).toList, c.isDigit := fun c hc => isDigit_of_mem_repr (h ▸ hc)
  cases kind with
  | checkpoint => exact absurd (hdigit 'c' (by simp [kindText])) (by decide)
  | terminal => exact absurd (hdigit 't' (by simp [kindText])) (by decide)

theorem decisionId_injective {d d' : DispatchId} {kind kind' : WakeKind} {cycle cycle' : ℕ}
    (h : decisionId d kind cycle = decisionId d' kind' cycle') :
    d = d' ∧ kind = kind' ∧ cycle = cycle' := by
  have hkind : ∀ k : WakeKind, '/' ∉ (kindText k).toList := by
    intro k
    cases k <;> simp [kindText]
  have hkinds : (kindText kind).toList = (kindText kind').toList → kind = kind' := by
    cases kind <;> cases kind' <;> simp [kindText]
  have hid : ∀ (s : String) (k : WakeKind), ("decision/wake/" ++ s ++ "/" ++ kindText k).toList =
      ("decision/wake/".toList ++ s.toList) ++ '/' :: (kindText k).toList := by
    intro s k
    simp [String.toList_append]
  have hcycle : ∀ (s : String) (k : WakeKind) (n : ℕ),
      ("decision/wake/" ++ s ++ "/" ++ kindText k ++ "/" ++ n.repr).toList =
        ("decision/wake/" ++ s ++ "/" ++ kindText k).toList ++ '/' :: n.repr.toList := by
    intro s k n
    simp [String.toList_append]
  have hsame : ("decision/wake/" ++ d ++ "/" ++ kindText kind).toList =
      ("decision/wake/" ++ d' ++ "/" ++ kindText kind').toList → d = d' ∧ kind = kind' := by
    intro heq
    rw [hid, hid] at heq
    obtain ⟨hd, hk⟩ := eq_of_append_slash (hkind _) (hkind _) heq
    exact ⟨String.toList_inj.1 (List.append_cancel_left hd), hkinds hk⟩
  have hlist := congrArg String.toList h
  unfold decisionId at hlist
  split_ifs at hlist with hone hone' hone'
  · obtain ⟨hd, hk⟩ := hsame hlist
    exact ⟨hd, hk, hone.trans hone'.symm⟩
  · rw [hcycle, hid d] at hlist
    exact absurd (eq_of_append_slash (hkind _) (slash_notMem_repr _) hlist).2 (kindText_ne_repr _ _)
  · rw [hcycle, hid d'] at hlist
    exact absurd (eq_of_append_slash (slash_notMem_repr _) (hkind _) hlist).2.symm
      (kindText_ne_repr _ _)
  · rw [hcycle, hcycle] at hlist
    obtain ⟨hsameList, hn⟩ := eq_of_append_slash (slash_notMem_repr _) (slash_notMem_repr _) hlist
    obtain ⟨hd, hk⟩ := hsame hsameList
    exact ⟨hd, hk, Nat.repr_injective (String.toList_inj.1 hn)⟩

end CodexFlow.Control
