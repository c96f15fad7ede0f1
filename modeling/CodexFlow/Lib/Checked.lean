import Mathlib

/-!
# Checks that raise

A computation in `Except` that begins with a check: what its success says about the check and
about the rest of the computation.
-/

namespace Checked

variable {ε α β : Type}

/-- Raises `error` unless `c` holds. -/
def ensure (c : Prop) [Decidable c] (error : ε) : Except ε Unit :=
  if c then .ok () else .error error

theorem bind_eq_ok {x : Except ε α} {f : α → Except ε β} {b : β} :
    (x >>= f) = .ok b ↔ ∃ a, x = .ok a ∧ f a = .ok b := by
  cases x with
  | ok a => exact ⟨fun h => ⟨a, rfl, h⟩, fun ⟨_, ha, h⟩ => Except.ok.inj ha ▸ h⟩
  | error e =>
    refine ⟨fun h => ?_, fun ⟨_, ha, _⟩ => ?_⟩
    · cases h
    · cases ha

theorem map_eq_ok {x : Except ε α} {f : α → β} {b : β} :
    x.map f = .ok b ↔ ∃ a, x = .ok a ∧ f a = b := by
  cases x with
  | ok a => exact ⟨fun h => ⟨a, rfl, Except.ok.inj h⟩, fun ⟨_, ha, h⟩ => h ▸ ha ▸ rfl⟩
  | error e =>
    refine ⟨fun h => ?_, fun ⟨_, ha, _⟩ => ?_⟩
    · cases h
    · cases ha

@[simp] theorem ensure_eq_ok {c : Prop} [Decidable c] {e : ε} {u : Unit} :
    ensure c e = .ok u ↔ c := by
  unfold ensure
  split_ifs with h
  · exact ⟨fun _ => h, fun _ => rfl⟩
  · refine ⟨fun hf => ?_, fun hf => absurd hf h⟩
    cases hf

@[simp] theorem ok_bind {a : α} {f : α → Except ε β} : (Except.ok a >>= f) = f a := rfl

theorem ensure_of {c : Prop} [Decidable c] (h : c) (e : ε) : ensure c e = .ok () := if_pos h

@[simp] theorem pure_eq_ok {a b : α} : (pure a : Except ε α) = .ok b ↔ a = b :=
  ⟨Except.ok.inj, congrArg _⟩

/-- What a sequence of checks and calls has returned, one after the other. -/
theorem checks_ok :
    (∀ (ε α β : Type) (x : Except ε α) (f : α → Except ε β) (b : β),
      (x >>= f) = .ok b ↔ ∃ a, x = .ok a ∧ f a = .ok b) ∧
    (∀ (ε : Type) (c : Prop) [Decidable c] (e : ε) (u : Unit), ensure c e = .ok u ↔ c) ∧
    ∀ (α : Type) [Nonempty α] (p : Prop), (∃ _ : α, p) ↔ p :=
  ⟨fun _ _ _ _ _ _ => bind_eq_ok, fun _ _ _ _ _ => ensure_eq_ok, fun _ _ _ => exists_const _⟩

/-- What they say with the value that they return. -/
theorem steps_ok :
    (∀ (ε α β : Type) (x : Except ε α) (f : α → Except ε β) (b : β),
      (x >>= f) = .ok b ↔ ∃ a, x = .ok a ∧ f a = .ok b) ∧
    (∀ (ε : Type) (c : Prop) [Decidable c] (e : ε) (u : Unit), ensure c e = .ok u ↔ c) ∧
    (∀ (α : Type) [Nonempty α] (p : Prop), (∃ _ : α, p) ↔ p) ∧
    ∀ (ε α : Type) (a b : α), (pure a : Except ε α) = .ok b ↔ a = b :=
  ⟨checks_ok.1, checks_ok.2.1, checks_ok.2.2, fun _ _ _ _ => pure_eq_ok⟩

theorem exists_ok_of_toOption {x : Except ε α} {p : α → Bool} (h : x.toOption.any p = true) :
    ∃ a, x = .ok a ∧ p a = true := by
  cases x with
  | error e => cases h
  | ok a => exact ⟨a, rfl, h⟩

theorem error_ne_ok {e : ε} {b : β} : (throw e : Except ε β) ≠ .ok b := by
  intro h
  cases h

theorem forM_eq_ok {f : α → Except ε Unit} {l : List α} :
    l.forM f = .ok () ↔ ∀ a ∈ l, f a = .ok () := by
  induction l with
  | nil => exact ⟨fun _ => nofun, fun _ => rfl⟩
  | cons a l ih =>
    show (f a >>= fun _ => l.forM f) = .ok () ↔ _
    rw [bind_eq_ok, List.forall_mem_cons, ← ih]
    exact ⟨fun ⟨_, ha, hl⟩ => ⟨ha, hl⟩, fun ⟨ha, hl⟩ => ⟨(), ha, hl⟩⟩

/-- Every result of a checked map comes from an element. -/
theorem mem_of_mapM_ok {f : α → Except ε β} {l : List α} :
    ∀ {results : List β}, l.mapM f = .ok results → ∀ b ∈ results, ∃ a ∈ l, f a = .ok b := by
  induction l with
  | nil =>
    intro results h
    cases h
    exact nofun
  | cons a l ih =>
    intro results h
    rw [List.mapM_cons] at h
    obtain ⟨first, hfirst, h⟩ := bind_eq_ok.mp h
    obtain ⟨rest, hrest, h⟩ := bind_eq_ok.mp h
    cases h
    intro b mem
    obtain rfl | mem := List.mem_cons.mp mem
    · exact ⟨a, List.mem_cons_self, hfirst⟩
    · obtain ⟨a', mem', h'⟩ := ih hrest b mem
      exact ⟨a', List.mem_cons_of_mem _ mem', h'⟩

/-- A list is read back from what its elements are written as exactly where every element is. -/
theorem mapM_map_eq_ok {write : α → β} {read : β → Except ε α} {l : List α} :
    (l.map write).mapM read = .ok l ↔ ∀ a ∈ l, read (write a) = .ok a := by
  induction l with
  | nil => exact ⟨fun _ => nofun, fun _ => rfl⟩
  | cons a l ih =>
    rw [List.map_cons, List.mapM_cons, List.forall_mem_cons, ← ih]
    simp only [bind_eq_ok, pure_eq_ok, List.cons.injEq]
    constructor
    · rintro ⟨_, hfirst, _, hrest, rfl, rfl⟩
      exact ⟨hfirst, hrest⟩
    · rintro ⟨hfirst, hrest⟩
      exact ⟨a, hfirst, l, hrest, rfl, rfl⟩

end Checked
