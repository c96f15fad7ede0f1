import Mathlib

/-!
# Keyed tables

A table is a list of rows in the order they were inserted, with one row for each key. Replacing a
row keeps its place, so a scan in order sees the rows a primary key promises and nothing else.
-/

structure Table (κ ρ : Type) where
  entries : List (κ × ρ)
  nodup : (entries.map Prod.fst).Nodup

namespace Table

variable {κ ρ : Type} [DecidableEq κ]

def empty : Table κ ρ := ⟨[], List.nodup_nil⟩

def keys (t : Table κ ρ) : List κ := t.entries.map Prod.fst

def get? (t : Table κ ρ) (k : κ) : Option ρ := (t.entries.find? (·.1 = k)).map Prod.snd

/-- The entry with its row replaced when it is the one at `k`. -/
def replaceAt (k : κ) (r : ρ) (entry : κ × ρ) : κ × ρ := if entry.1 = k then (k, r) else entry

theorem replaceAt_fst (k : κ) (r : ρ) (entry : κ × ρ) : (replaceAt k r entry).1 = entry.1 := by
  unfold replaceAt
  split_ifs with h
  · exact h.symm
  · rfl

theorem map_fst_replaceAt (k : κ) (r : ρ) (entries : List (κ × ρ)) :
    (entries.map (replaceAt k r)).map Prod.fst = entries.map Prod.fst := by
  rw [List.map_map]
  exact List.map_congr_left fun entry _ => replaceAt_fst k r entry

/-- The row at `k` replaced; a key that has no row is left alone. -/
def set (t : Table κ ρ) (k : κ) (r : ρ) : Table κ ρ where
  entries := t.entries.map (replaceAt k r)
  nodup := by
    rw [map_fst_replaceAt]
    exact t.nodup

/-- A new last row; a key that has a row keeps it. -/
def insert (t : Table κ ρ) (k : κ) (r : ρ) : Table κ ρ :=
  if h : k ∈ t.keys then t
  else
    { entries := t.entries ++ [(k, r)]
      nodup := by
        rw [List.map_append, List.map_singleton, ← List.concat_eq_append, List.nodup_concat]
        exact ⟨h, t.nodup⟩ }

/-- Every row rewritten in its place. -/
def map (t : Table κ ρ) (f : κ → ρ → ρ) : Table κ ρ where
  entries := t.entries.map fun entry => (entry.1, f entry.1 entry.2)
  nodup := by
    rw [List.map_map]
    exact t.nodup

/-! ### Rows by key -/

@[simp] theorem get?_empty (k : κ) : (empty : Table κ ρ).get? k = none := rfl

theorem get?_eq_some {t : Table κ ρ} {k : κ} {r : ρ} :
    t.get? k = some r ↔ (k, r) ∈ t.entries := by
  constructor
  · intro h
    obtain ⟨⟨k', r'⟩, hfind, rfl⟩ := Option.map_eq_some_iff.1 h
    have hk : k' = k := by simpa using List.find?_some hfind
    exact hk ▸ List.mem_of_find?_eq_some hfind
  · intro h
    obtain ⟨entry, hfind⟩ : ∃ entry, t.entries.find? (·.1 = k) = some entry :=
      Option.isSome_iff_exists.1 (List.find?_isSome.2 ⟨(k, r), h, by simp⟩)
    have hkey : entry.1 = k := by simpa using List.find?_some hfind
    -- two entries with one key are the same entry
    have hsame : entry = (k, r) :=
      List.inj_on_of_nodup_map t.nodup (List.mem_of_find?_eq_some hfind) h hkey
    simp [get?, hfind, hsame]

theorem get?_eq_none {t : Table κ ρ} {k : κ} : t.get? k = none ↔ k ∉ t.keys := by
  simp only [get?, keys, Option.map_eq_none_iff, List.find?_eq_none, decide_eq_true_eq,
    List.mem_map]
  constructor
  · rintro h ⟨entry, hmem, hkey⟩
    exact h entry hmem hkey
  · intro h entry hmem hkey
    exact h ⟨entry, hmem, hkey⟩

theorem mem_keys_of_get? {t : Table κ ρ} {k : κ} {r : ρ} (h : t.get? k = some r) :
    k ∈ t.keys := List.mem_map_of_mem (get?_eq_some.1 h)

@[simp] theorem keys_set (t : Table κ ρ) (k : κ) (r : ρ) : (t.set k r).keys = t.keys :=
  map_fst_replaceAt k r t.entries

theorem get?_set_self {t : Table κ ρ} {k : κ} {r : ρ} (h : t.get? k = some r) (r' : ρ) :
    (t.set k r').get? k = some r' := by
  rw [get?_eq_some] at h ⊢
  exact List.mem_map.2 ⟨(k, r), h, by simp [replaceAt]⟩

theorem get?_set_ne (t : Table κ ρ) {k j : κ} (hj : j ≠ k) (r : ρ) :
    (t.set k r).get? j = t.get? j := by
  apply Option.ext
  intro s
  rw [get?_eq_some, get?_eq_some]
  constructor
  · intro h
    obtain ⟨entry, hmem, heq⟩ := List.mem_map.1 h
    unfold replaceAt at heq
    split_ifs at heq with hk
    · exact absurd (congrArg Prod.fst heq).symm hj
    · exact heq ▸ hmem
  · intro h
    exact List.mem_map.2 ⟨(j, s), h, by simp [replaceAt, hj]⟩

/-- The last of two writes to a key counts. -/
theorem set_set (t : Table κ ρ) (k : κ) (r r' : ρ) : (t.set k r).set k r' = t.set k r' := by
  have hentries : (t.entries.map (replaceAt k r)).map (replaceAt k r') =
      t.entries.map (replaceAt k r') := by
    rw [List.map_map]
    refine List.map_congr_left fun entry _ => ?_
    by_cases hk : entry.1 = k <;> simp [replaceAt, hk]
  unfold set
  simp only [hentries]

theorem set_self {t : Table κ ρ} {k : κ} {r : ρ} (h : t.get? k = some r) : t.set k r = t := by
  have hentries : t.entries.map (replaceAt k r) = t.entries := by
    refine (List.map_congr_left fun entry hmem => ?_).trans (List.map_id _)
    unfold replaceAt
    split_ifs with hk
    · exact List.inj_on_of_nodup_map t.nodup (get?_eq_some.1 h) hmem hk.symm
    · rfl
  unfold set
  simp only [hentries]

theorem get?_insert_self {t : Table κ ρ} {k : κ} (h : t.get? k = none) (r : ρ) :
    (t.insert k r).get? k = some r := by
  rw [get?_eq_none] at h
  rw [get?_eq_some]
  simp [insert, h]

theorem get?_insert_ne (t : Table κ ρ) {k j : κ} (hj : j ≠ k) (r : ρ) :
    (t.insert k r).get? j = t.get? j := by
  apply Option.ext
  intro s
  rw [get?_eq_some, get?_eq_some]
  unfold insert
  split_ifs with hk
  · rfl
  · simp [hj]

omit [DecidableEq κ] in
@[simp] theorem keys_map (t : Table κ ρ) (f : κ → ρ → ρ) : (t.map f).keys = t.keys := by
  simp [keys, map]

theorem get?_map (t : Table κ ρ) (f : κ → ρ → ρ) (k : κ) :
    (t.map f).get? k = (t.get? k).map (f k) := by
  apply Option.ext
  intro s
  rw [get?_eq_some, Option.map_eq_some_iff]
  constructor
  · intro h
    obtain ⟨⟨j, r⟩, hmem, heq⟩ := List.mem_map.1 h
    obtain ⟨rfl, rfl⟩ := Prod.mk.inj heq
    exact ⟨r, get?_eq_some.2 hmem, rfl⟩
  · rintro ⟨r, hr, rfl⟩
    exact List.mem_map.2 ⟨(k, r), get?_eq_some.1 hr, rfl⟩

/-! ### Scans -/

/-- What holds of every row after a replacement. -/
theorem forall_set {t : Table κ ρ} {k : κ} {r : ρ} {P : κ → ρ → Prop}
    (hold : ∀ j s, j ≠ k → t.get? j = some s → P j s) (hnew : P k r) :
    ∀ j s, (t.set k r).get? j = some s → P j s := by
  intro j s hs
  by_cases hj : j = k
  · subst hj
    have hkey : j ∈ t.keys := keys_set t j r ▸ mem_keys_of_get? hs
    obtain ⟨old, hold'⟩ := Option.ne_none_iff_exists'.1 (mt get?_eq_none.1 (not_not.2 hkey))
    rw [get?_set_self hold'] at hs
    exact Option.some.inj hs ▸ hnew
  · rw [get?_set_ne t hj] at hs
    exact hold j s hj hs

/-- Where a row stands, and the entries once it is replaced. -/
theorem exists_split {t : Table κ ρ} {k : κ} {r : ρ} (h : t.get? k = some r) :
    ∃ before after, t.entries = before ++ (k, r) :: after ∧
      ∀ r', (t.set k r').entries = before ++ (k, r') :: after := by
  obtain ⟨before, after, hsplit⟩ := List.append_of_mem (get?_eq_some.1 h)
  have hnodup := t.nodup
  rw [hsplit, List.map_append, List.map_cons] at hnodup
  have hbefore : ∀ entry ∈ before, entry.1 ≠ k := by
    intro entry hmem heq
    exact (List.nodup_append.1 hnodup).2.2 _ (List.mem_map_of_mem hmem) _
      List.mem_cons_self heq
  have hafter : ∀ entry ∈ after, entry.1 ≠ k := by
    intro entry hmem heq
    have := (List.nodup_cons.1 (List.nodup_append.1 hnodup).2.1).1
    exact this (List.mem_map.2 ⟨entry, hmem, heq⟩)
  have hkeep : ∀ (r' : ρ) (l : List (κ × ρ)), (∀ entry ∈ l, entry.1 ≠ k) →
      l.map (replaceAt k r') = l := by
    intro r' l hl
    exact (List.map_congr_left fun entry hmem => if_neg (hl entry hmem)).trans (List.map_id _)
  refine ⟨before, after, hsplit, fun r' => ?_⟩
  simp only [set, hsplit, List.map_append, List.map_cons, hkeep r' before hbefore,
    hkeep r' after hafter, replaceAt, if_true]

/-- Replacing one row changes a count by what the row itself contributes. -/
theorem countP_set {t : Table κ ρ} {k : κ} {r : ρ} (h : t.get? k = some r) (r' : ρ)
    (p : κ × ρ → Bool) :
    (t.set k r').entries.countP p + (if p (k, r) then 1 else 0) =
      t.entries.countP p + (if p (k, r') then 1 else 0) := by
  obtain ⟨before, after, hsplit, hset⟩ := exists_split h
  rw [hset, hsplit]
  simp only [List.countP_append, List.countP_cons]
  omega

end Table
