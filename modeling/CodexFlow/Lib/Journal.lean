import Mathlib

/-!
# Journals

A journal is a list of facts that a writer extends at the end, unless the fact is there already.
What a reader projects from it is the newest fact that has the projection, so a fact that is
written twice is not the newest one the second time.
-/

namespace Journal

variable {φ α : Type*}

/-! ### The newest projection -/

/-- The newest value that `f` reads from a fact. -/
def latest (f : φ → Option α) (log : List φ) : Option α := log.reverse.findSome? f

variable {f : φ → Option α} {log log' : List φ} {fact : φ} {a : α}

@[simp] theorem latest_nil : latest f [] = none := rfl

theorem latest_append_singleton : latest f (log ++ [fact]) = (f fact).or (latest f log) := by
  unfold latest
  rw [List.reverse_append, List.reverse_singleton, List.singleton_append, List.findSome?_cons]
  cases f fact <;> rfl

theorem latest_eq_none : latest f log = none ↔ ∀ fact ∈ log, f fact = none := by
  simp [latest, List.findSome?_eq_none_iff]

theorem exists_of_latest (h : latest f log = some a) : ∃ fact ∈ log, f fact = some a := by
  obtain ⟨fact, hmem, hfact⟩ := List.exists_of_findSome?_eq_some h
  exact ⟨fact, List.mem_reverse.1 hmem, hfact⟩

/-! ### Writing -/

variable [DecidableEq φ]

/-- The journal with the fact at its end, or as it is when it has the fact. -/
def record (log : List φ) (fact : φ) : List φ := if fact ∈ log then log else log ++ [fact]

theorem record_of_mem (h : fact ∈ log) : record log fact = log := if_pos h

theorem record_of_notMem (h : fact ∉ log) : record log fact = log ++ [fact] := if_neg h

theorem prefix_record (log : List φ) (fact : φ) : log <+: record log fact := by
  unfold record
  split_ifs
  · exact List.prefix_rfl
  · exact List.prefix_append log [fact]

theorem mem_record {fact' : φ} : fact' ∈ record log fact ↔ fact' ∈ log ∨ fact' = fact := by
  unfold record
  split_ifs with h
  · exact ⟨.inl, fun hmem => hmem.elim id fun heq => heq ▸ h⟩
  · simp

/-- A fact that the journal has already is not what a reader finds afterwards. -/
theorem latest_record : latest f (record log fact) =
    if fact ∈ log then latest f log else (f fact).or (latest f log) := by
  unfold record
  split_ifs
  · rfl
  · exact latest_append_singleton

theorem latest_record_of_none (h : f fact = none) :
    latest f (record log fact) = latest f log := by
  rw [latest_record, h, Option.none_or, ite_self]

end Journal
