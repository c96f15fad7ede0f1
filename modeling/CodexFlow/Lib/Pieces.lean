import Mathlib

/-!
# The pieces of a list between separators

What `List.splitOn` cuts a list into, and the pieces of it that are not empty.
-/

namespace Pieces

variable {α : Type*} [DecidableEq α] {separator : α}

theorem notMem_of_mem_splitOn {text : List α} :
    ∀ piece ∈ text.splitOn separator, separator ∉ piece := by
  induction text with
  | nil => simp
  | cons c rest ih =>
    rw [List.splitOn_cons_eq_if_modifyHead]
    split_ifs with isSeparator
    · exact List.forall_mem_cons.mpr ⟨List.not_mem_nil, ih⟩
    · have other : c ≠ separator := fun same => isSeparator (beq_iff_eq.mpr same)
      cases h : rest.splitOn separator with
      | nil => exact absurd h (List.splitOn_ne_nil _ _)
      | cons first others =>
        rw [h] at ih
        obtain ⟨clean, ih⟩ := List.forall_mem_cons.mp ih
        exact List.forall_mem_cons.mpr
          ⟨fun mem => (List.mem_cons.mp mem).elim (fun same => other same.symm) clean, ih⟩

def names (separator : α) (text : List α) : List (List α) :=
  (text.splitOn separator).filter (· ≠ [])

theorem names_nil : names separator [] = [] := rfl

theorem names_append_cons (before after : List α) :
    names separator (before ++ separator :: after) =
      names separator before ++ names separator after := by
  unfold names
  rw [List.splitOn_append_cons_self, List.filter_append]

theorem names_cons_separator (after : List α) :
    names separator (separator :: after) = names separator after := by
  have h : names separator ([] ++ separator :: after) = names separator [] ++ _ :=
    names_append_cons [] after
  rwa [names_nil, List.nil_append, List.nil_append] at h

theorem names_intercalate {pieces : List (List α)}
    (h : ∀ piece ∈ pieces, piece ≠ [] ∧ separator ∉ piece) :
    names separator ([separator].intercalate pieces) = pieces := by
  cases pieces with
  | nil => exact names_nil
  | cons piece others =>
    unfold names
    rw [List.splitOn_intercalate separator (fun piece mem => (h piece mem).2)
      (List.cons_ne_nil _ _)]
    exact List.filter_eq_self.mpr fun piece mem => decide_eq_true (h piece mem).1

end Pieces
