import Mathlib

/-!
# Bounded windows of a stream

A window keeps the newest entries of a stream under a bound on their number and a bound on their
total weight. What is evicted is always the oldest entry, so a window is a suffix of its stream, and
an entry that fits by itself survives its own insertion.
-/

namespace Window

variable {α : Type*} (weight : α → ℕ) (maxEntries maxWeight : ℕ)

/-- Both bounds hold. -/
def Fits (entries : List α) : Prop :=
  entries.length ≤ maxEntries ∧ (entries.map weight).sum ≤ maxWeight

instance (entries : List α) : Decidable (Fits weight maxEntries maxWeight entries) := by
  unfold Fits; infer_instance

/-- Drops the oldest entry until both bounds hold. -/
def evict : List α → List α
  | [] => []
  | a :: entries =>
    if Fits weight maxEntries maxWeight (a :: entries) then a :: entries else evict entries

variable {weight maxEntries maxWeight}

theorem evict_of_fits {entries : List α} (h : Fits weight maxEntries maxWeight entries) :
    evict weight maxEntries maxWeight entries = entries := by
  cases entries with
  | nil => rfl
  | cons a entries => exact if_pos h

/-- The newest entry is never evicted by its own insertion. -/
theorem evict_concat (entries : List α) {a : α} (hmax : 1 ≤ maxEntries)
    (ha : weight a ≤ maxWeight) :
    ∃ kept, kept <:+ entries ∧
      evict weight maxEntries maxWeight (entries ++ [a]) = kept ++ [a] := by
  induction entries with
  | nil =>
    have hfits : Fits weight maxEntries maxWeight [a] := ⟨hmax, by simpa using ha⟩
    exact ⟨[], List.suffix_rfl, evict_of_fits hfits⟩
  | cons b entries ih =>
    by_cases h : Fits weight maxEntries maxWeight (b :: (entries ++ [a]))
    · exact ⟨b :: entries, List.suffix_rfl, evict_of_fits h⟩
    · obtain ⟨kept, hkept, heq⟩ := ih
      refine ⟨kept, hkept.trans (List.suffix_cons b entries), ?_⟩
      rw [List.cons_append, evict, if_neg h, heq]

/-- A window of a stream stays one when the stream and the window both grow by one entry. -/
theorem suffix_concat {kept entries : List α} (h : kept <:+ entries) (a : α) :
    kept ++ [a] <:+ entries ++ [a] := by
  obtain ⟨dropped, rfl⟩ := h
  exact ⟨dropped, (List.append_assoc ..).symm⟩

end Window
