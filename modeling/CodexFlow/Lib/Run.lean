import Mathlib

/-!
# Runs of a deterministic machine

A machine is a total function `next : σ → ι → σ`: a refused input leaves the state as it is.
The rules here turn what one step preserves into what every run preserves, also for runs whose
steps all meet a condition, and account for a counter by the steps that may raise it.
-/

namespace Machine

variable {σ ι : Type*} (next : σ → ι → σ)

/-- The state after the inputs, from left to right. -/
def run (s : σ) (inputs : List ι) : σ := inputs.foldl next s

@[simp] theorem run_nil (s : σ) : run next s [] = s := rfl

@[simp] theorem run_cons (s : σ) (i : ι) (inputs : List ι) :
    run next s (i :: inputs) = run next (next s i) inputs := rfl

theorem run_append (s : σ) (before after : List ι) :
    run next s (before ++ after) = run next (run next s before) after :=
  List.foldl_append ..

theorem run_concat (s : σ) (inputs : List ι) (i : ι) :
    run next s (inputs ++ [i]) = next (run next s inputs) i := by
  rw [run_append, run_cons, run_nil]

/-! ### Invariants -/

/-- Every step of the run meets `C` in the state it starts from. -/
def Along (C : σ → ι → Prop) : σ → List ι → Prop
  | _, [] => True
  | s, i :: inputs => C s i ∧ Along C (next s i) inputs

instance (C : σ → ι → Prop) [∀ s i, Decidable (C s i)] (s : σ) (inputs : List ι) :
    Decidable (Along next C s inputs) := by
  induction inputs generalizing s with
  | nil => exact .isTrue trivial
  | cons i inputs ih => exact @instDecidableAnd _ _ inferInstance (ih (next s i))

/-- `J` holds in every state of the run, its first and its last one included. -/
def Always (J : σ → Prop) (s : σ) (inputs : List ι) : Prop :=
  ∀ before, before <+: inputs → J (run next s before)

variable {next}

theorem invariant {I : σ → Prop} (hstep : ∀ s i, I s → I (next s i)) {s : σ} (hs : I s)
    (inputs : List ι) : I (run next s inputs) := by
  induction inputs generalizing s with
  | nil => exact hs
  | cons i inputs ih => exact ih (hstep s i hs)

theorem invariant_along {I : σ → Prop} {C : σ → ι → Prop}
    (hstep : ∀ s i, I s → C s i → I (next s i)) {s : σ} (hs : I s) {inputs : List ι}
    (hC : Along next C s inputs) : I (run next s inputs) := by
  induction inputs generalizing s with
  | nil => exact hs
  | cons i inputs ih => exact ih (hstep s i hs hC.1) hC.2

theorem Along.initial {C : σ → ι → Prop} {s : σ} {before inputs : List ι}
    (hC : Along next C s inputs) (h : before <+: inputs) : Along next C s before := by
  obtain ⟨after, rfl⟩ := h
  induction before generalizing s with
  | nil => trivial
  | cons i before ih => exact ⟨hC.1, ih hC.2⟩

theorem Along.mono {C D : σ → ι → Prop} (hCD : ∀ s i, C s i → D s i) {s : σ}
    {inputs : List ι} (hC : Along next C s inputs) : Along next D s inputs := by
  induction inputs generalizing s with
  | nil => trivial
  | cons i inputs ih => exact ⟨hCD s i hC.1, ih hC.2⟩

/-- Under an invariant that steps meeting `C` keep, these steps also meet `D`. -/
theorem Along.imp_of_invariant {I : σ → Prop} {C D : σ → ι → Prop}
    (hstep : ∀ s i, I s → C s i → I (next s i)) (hD : ∀ s i, I s → C s i → D s i) {s : σ} (hs : I s)
    {inputs : List ι} (hC : Along next C s inputs) : Along next D s inputs := by
  induction inputs generalizing s with
  | nil => trivial
  | cons i inputs ih => exact ⟨hD s i hs hC.1, ih (hstep s i hs hC.1) hC.2⟩

theorem along_append {C : σ → ι → Prop} {s : σ} {before after : List ι} :
    Along next C s (before ++ after) ↔
      Along next C s before ∧ Along next C (run next s before) after := by
  induction before generalizing s with
  | nil => simp [Along]
  | cons i before ih => simp [Along, ih, and_assoc]

theorem always_cons {J : σ → Prop} {s : σ} {i : ι} {inputs : List ι} :
    Always next J s (i :: inputs) ↔ J s ∧ Always next J (next s i) inputs := by
  constructor
  · intro h
    refine ⟨h [] (List.nil_prefix), fun before hb => ?_⟩
    exact h (i :: before) (List.cons_prefix_cons.2 ⟨rfl, hb⟩)
  · rintro ⟨h0, h⟩ before hb
    cases before with
    | nil => exact h0
    | cons j before =>
      obtain ⟨rfl, htail⟩ := List.cons_prefix_cons.1 hb
      exact h before htail

/-- When, under an invariant, a step keeps `J` exactly if it meets `C`, the runs that keep `J`
throughout are exactly the runs whose steps all meet `C`. -/
theorem always_iff_along {I J : σ → Prop} {C : σ → ι → Prop}
    (hI : ∀ s i, I s → I (next s i)) (hJ : ∀ s i, I s → J s → (J (next s i) ↔ C s i))
    {s : σ} (hs : I s) (hs' : J s) (inputs : List ι) :
    Always next J s inputs ↔ Along next C s inputs := by
  induction inputs generalizing s with
  | nil =>
    refine ⟨fun _ => trivial, fun _ before hb => ?_⟩
    rw [List.prefix_nil.1 hb]
    exact hs'
  | cons i inputs ih =>
    rw [always_cons]
    constructor
    · rintro ⟨-, h⟩
      have hnext : J (next s i) := h [] List.nil_prefix
      exact ⟨(hJ s i hs hs').1 hnext, (ih (hI s i hs) hnext).1 h⟩
    · rintro ⟨hC, h⟩
      exact ⟨hs', (ih (hI s i hs) ((hJ s i hs hs').2 hC)).2 h⟩

/-! ### Relations between the ends of a run -/

/-- A preorder that every step respects relates the ends of every run. -/
theorem related {I : σ → Prop} {R : σ → σ → Prop} (hrefl : ∀ s, R s s)
    (htrans : ∀ a b c, R a b → R b c → R a c) (hI : ∀ s i, I s → I (next s i))
    (hR : ∀ s i, I s → R s (next s i)) {s : σ} (hs : I s) (inputs : List ι) :
    R s (run next s inputs) := by
  induction inputs generalizing s with
  | nil => exact hrefl s
  | cons i inputs ih => exact htrans _ _ _ (hR s i hs) (ih (hI s i hs))

/-! ### Counted steps -/

variable (next) in
/-- How many steps of the run satisfy `P` in the state they start from. -/
def count (P : σ → ι → Bool) : σ → List ι → ℕ
  | _, [] => 0
  | s, i :: inputs => (if P s i then 1 else 0) + count P (next s i) inputs

/-- A measure that a step raises at most by one, and only when it is counted, is bounded by the
number of counted steps. -/
theorem measure_le_count {I : σ → Prop} {P : σ → ι → Bool} {f g : σ → ℕ}
    (hI : ∀ s i, I s → I (next s i))
    (hf : ∀ s i, I s → f (next s i) + g s ≤ f s + g (next s i) + if P s i then 1 else 0)
    {s : σ} (hs : I s) (inputs : List ι) :
    f (run next s inputs) + g s ≤ f s + g (run next s inputs) + count next P s inputs := by
  induction inputs generalizing s with
  | nil => simp [count]
  | cons i inputs ih =>
    have hhead := hf s i hs
    have htail := ih (hI s i hs)
    simp only [run_cons, count]
    omega

/-- A measure that exactly the counted steps raise, by one, is the number of counted steps. -/
theorem measure_eq_count {I : σ → Prop} {P : σ → ι → Bool} {f : σ → ℕ}
    (hI : ∀ s i, I s → I (next s i))
    (hf : ∀ s i, I s → f (next s i) = f s + if P s i then 1 else 0)
    {s : σ} (hs : I s) (inputs : List ι) :
    f (run next s inputs) = f s + count next P s inputs := by
  induction inputs generalizing s with
  | nil => rfl
  | cons i inputs ih =>
    have hhead := hf s i hs
    have htail := ih (hI s i hs)
    simp only [run_cons, count]
    omega

/-- What can be done only while `done` does not hold, and makes it hold for good, is done at most
once. -/
theorem count_le_one {I : σ → Prop} {P : σ → ι → Bool} {done : σ → Bool}
    (hI : ∀ s i, I s → I (next s i)) (hdone : ∀ s i, I s → done s → done (next s i))
    (hP : ∀ s i, I s → P s i → done s = false ∧ done (next s i)) {s : σ} (hs : I s)
    (inputs : List ι) : count next P s inputs ≤ if done s then 0 else 1 := by
  induction inputs generalizing s with
  | nil => exact Nat.zero_le _
  | cons i inputs ih =>
    have htail := ih (hI s i hs)
    unfold count
    by_cases hcounted : P s i
    · obtain ⟨hbefore, hafter⟩ := hP s i hs hcounted
      rw [if_pos hafter] at htail
      rw [if_pos hcounted, if_neg (by rw [hbefore]; decide)]
      omega
    · rw [if_neg hcounted]
      by_cases hbefore : done s
      · rw [if_pos (hdone s i hs hbefore)] at htail
        omega
      · rw [if_neg hbefore]
        split_ifs at htail <;> omega

end Machine
