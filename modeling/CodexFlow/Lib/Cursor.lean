import Mathlib

/-!
# Cursors into a keyed list

A cursor names the last entry that was read by its key, and reading goes on after the entry that
has this key now. When no entry has it, nothing is read.
-/

namespace Cursor

variable {α κ : Type*} [DecidableEq κ] (key : α → κ)

/-- The entries after the first one with the key. -/
def after (k : κ) : List α → List α
  | [] => []
  | a :: entries => if key a = k then entries else after k entries

variable {key}

theorem after_of_notMem {k : κ} {entries : List α} (h : k ∉ entries.map key) :
    after key k entries = [] := by
  induction entries with
  | nil => rfl
  | cons a entries ih =>
    simp only [List.map_cons, List.mem_cons, not_or] at h
    obtain ⟨hne, hrest⟩ := h
    rw [after, if_neg (Ne.symm hne), ih hrest]

theorem after_append {before entries : List α} {a : α} (h : key a ∉ before.map key) :
    after key (key a) (before ++ a :: entries) = entries := by
  induction before with
  | nil => exact if_pos rfl
  | cons b before ih =>
    simp only [List.map_cons, List.mem_cons, not_or] at h
    obtain ⟨hne, hrest⟩ := h
    rw [List.cons_append, after, if_neg (Ne.symm hne), ih hrest]

/-- The entries whose identity the cursor names and whose key it has kept are read on exactly where
the cursor stands. -/
theorem after_of_kept {ι : Type*} {id : α → ι} {entries : List α} {before rest : List ι} {i : ι}
    (hids : entries.map id = before ++ i :: rest) (hnodup : (entries.map id).Nodup) {k : κ}
    (hkey : ∀ a ∈ entries, key a = k → id a = i) (hkept : ∃ a ∈ entries, key a = k) :
    (after key k entries).map id = rest := by
  obtain ⟨done, a, left, rfl, hdone, ha, hleft⟩ : ∃ done a left, entries = done ++ a :: left ∧
      done.map id = before ∧ id a = i ∧ left.map id = rest := by
    obtain ⟨done, tail, rfl, hdone, htail⟩ := List.map_eq_append_iff.1 hids
    obtain ⟨a, left, rfl, ha, hleft⟩ := List.map_eq_cons_iff.1 htail
    exact ⟨done, a, left, rfl, hdone, ha, hleft⟩
  -- the entry that has the key is the one at the cursor, since identities do not repeat
  obtain ⟨b, hb, hbkey⟩ := hkept
  have hba : b = a := List.inj_on_of_nodup_map hnodup hb (by simp) ((hkey b hb hbkey).trans ha.symm)
  rw [← hbkey, hba, after_append, hleft]
  intro hmem
  obtain ⟨c, hc, hckey⟩ := List.mem_map.1 hmem
  have hca : c = a := List.inj_on_of_nodup_map hnodup (by simp [hc]) (by simp)
    ((hkey c (by simp [hc]) (hckey.trans (hba ▸ hbkey))).trans ha.symm)
  rw [List.map_append, List.map_cons] at hnodup
  exact (List.nodup_append.1 hnodup).2.2 (id c) (List.mem_map_of_mem hc) (id a)
    List.mem_cons_self (congrArg id hca)

end Cursor
