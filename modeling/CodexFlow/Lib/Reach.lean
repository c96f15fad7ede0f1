import Mathlib

/-!
# Reachability along bounded paths

`within next target n a` looks for a path from `a` to the target of at least one and at most `n`
edges. Where only finitely many nodes have edges, as many edges as there are such nodes suffice.
-/

namespace Reach

variable {α : Type} [DecidableEq α] (next : α → List α) (target : α)

/-- The target is reached along at least one and at most `n` edges. -/
def within : ℕ → α → Bool
  | 0, _ => false
  | n + 1, a => (next a).any fun b => b = target || within n b

def Edge (a b : α) : Prop := b ∈ next a

variable {next target}

theorem within_succ {n : ℕ} {a : α} : within next target (n + 1) a = true ↔
    ∃ b ∈ next a, b = target ∨ within next target n b = true := by
  simp [within]

theorem transGen_of_within {n : ℕ} : ∀ {a : α}, within next target n a = true →
    Relation.TransGen (Edge next) a target := by
  induction n with
  | zero => exact fun h => nomatch h
  | succ n ih =>
    intro a h
    obtain ⟨b, hb, rfl | hpath⟩ := within_succ.1 h
    · exact .single hb
    · exact .head hb (ih hpath)

theorem within_mono_succ {n : ℕ} : ∀ {a : α}, within next target n a = true →
    within next target (n + 1) a = true := by
  induction n with
  | zero => exact fun h => nomatch h
  | succ n ih =>
    intro a h
    obtain ⟨b, hb, hend⟩ := within_succ.1 h
    exact within_succ.2 ⟨b, hb, hend.imp_right ih⟩

theorem exists_within (a : α) (h : Relation.TransGen (Edge next) a target) :
    ∃ n, within next target n a = true := by
  induction h using Relation.TransGen.head_induction_on with
  | single hb => exact ⟨1, within_succ.2 ⟨_, hb, .inl rfl⟩⟩
  | head hb _ ih =>
    obtain ⟨n, hn⟩ := ih
    exact ⟨n + 1, within_succ.2 ⟨_, hb, .inr hn⟩⟩

variable {s : Finset α}

/-- The nodes from which the target is reached along at most `n` edges. -/
def reaching (next : α → List α) (target : α) (s : Finset α) (n : ℕ) : Finset α :=
  s.filter fun a => within next target n a = true

theorem reaching_subset (n : ℕ) :
    reaching next target s n ⊆ reaching next target s (n + 1) := fun a ha => by
  obtain ⟨hs, hpath⟩ := Finset.mem_filter.1 ha
  exact Finset.mem_filter.2 ⟨hs, within_mono_succ hpath⟩

/-- Once a longer path reaches nothing new, no path does. -/
theorem within_stable (hs : ∀ a, next a ≠ [] → a ∈ s) {n : ℕ}
    (h : (reaching next target s n).card = (reaching next target s (n + 1)).card) (a : α) :
    within next target (n + 1) a = within next target n a := by
  have hsame := Finset.eq_of_subset_of_card_le (reaching_subset n) h.ge
  rw [Bool.eq_iff_iff]
  refine ⟨fun hpath => ?_, within_mono_succ⟩
  have hmem : a ∈ s := by
    obtain ⟨b, hb, -⟩ := within_succ.1 hpath
    exact hs a (List.ne_nil_of_mem hb)
  have hnext : a ∈ reaching next target s (n + 1) := Finset.mem_filter.2 ⟨hmem, hpath⟩
  rw [← hsame] at hnext
  exact (Finset.mem_filter.1 hnext).2

theorem card_reaching_stable (hs : ∀ a, next a ≠ [] → a ∈ s) (n : ℕ)
    (h : (reaching next target s n).card = (reaching next target s (n + 1)).card) :
    (reaching next target s (n + 1)).card = (reaching next target s (n + 2)).card := by
  have hsame : within next target (n + 2) = within next target (n + 1) := by
    funext a
    show ((next a).any fun b => b = target || within next target (n + 1) b) =
      (next a).any fun b => b = target || within next target n b
    simp only [within_stable hs h]
  unfold reaching
  rw [hsame]

/-- As many edges as there are nodes with edges reach whatever is reached. -/
theorem within_iff_transGen (hs : ∀ a, next a ≠ [] → a ∈ s) {n : ℕ} (hn : s.card ≤ n) (a : α) :
    within next target n a = true ↔ Relation.TransGen (Edge next) a target := by
  refine ⟨transGen_of_within, fun hreach => ?_⟩
  obtain ⟨m, hm⟩ := exists_within a hreach
  have hmono : Monotone fun k => (reaching next target s k).card :=
    monotone_nat_of_le_succ fun k => Finset.card_le_card (reaching_subset k)
  have hbound : ∀ k, (reaching next target s k).card ≤ s.card := fun k =>
    Finset.card_filter_le _ _
  have hmem : a ∈ s := by
    cases m with
    | zero => cases hm
    | succ m =>
      obtain ⟨b, hb, -⟩ := within_succ.1 hm
      exact hs a (List.ne_nil_of_mem hb)
  -- the counts have stopped growing at `n`, so the longer path finds no node that it misses
  have hlong : (reaching next target s (max m n)).card = (reaching next target s n).card := by
    rw [Nat.stabilises_of_monotone hmono hbound (card_reaching_stable hs) hn,
      Nat.stabilises_of_monotone hmono hbound (card_reaching_stable hs)
        (hn.trans (Nat.le_max_right m n))]
  have hsubset : ∀ {i j : ℕ}, i ≤ j → reaching next target s i ⊆ reaching next target s j :=
    fun h => monotone_nat_of_le_succ (f := reaching next target s) (fun k => reaching_subset k) h
  have hsame := Finset.eq_of_subset_of_card_le (hsubset (Nat.le_max_right m n)) hlong.le
  have hfound := hsubset (Nat.le_max_left m n) (Finset.mem_filter.2 ⟨hmem, hm⟩)
  rw [← hsame] at hfound
  exact (Finset.mem_filter.1 hfound).2

omit [DecidableEq α] in
/-- Where no node reaches itself, some node of a finite set leads to none of the set. -/
theorem exists_last (hacyclic : ∀ a, ¬Relation.TransGen (Edge next) a a) (s : Finset α)
    (hs : s.Nonempty) : ∃ a ∈ s, ∀ b ∈ next a, b ∉ s := by
  have htrans : IsTrans s fun a b => Relation.TransGen (Edge next) (b : α) a :=
    ⟨fun _ _ _ hab hbc => hbc.trans hab⟩
  have hirrefl : Std.Irrefl fun a b : s => Relation.TransGen (Edge next) (b : α) a :=
    ⟨fun a => hacyclic a⟩
  obtain ⟨a, ha⟩ := hs
  obtain ⟨a, -, hmin⟩ := (Finite.wellFounded_of_trans_of_irrefl
    fun a b : s => Relation.TransGen (Edge next) (b : α) a).has_min Set.univ ⟨⟨a, ha⟩, trivial⟩
  exact ⟨a, a.2, fun b hb hbs => hmin ⟨b, hbs⟩ trivial (.single hb)⟩

end Reach
