import CodexFlow.Lib.Checked

/-!
# What a computation raises

Where a computation in `Except` stops with an error, and a property that all of its errors have, by
the parts of the computation.
-/

namespace Checked

variable {ε α β : Type} {p : ε → Prop}

theorem bind_eq_error {x : Except ε α} {f : α → Except ε β} {e : ε} :
    (x >>= f) = .error e ↔ x = .error e ∨ ∃ a, x = .ok a ∧ f a = .error e := by
  cases x with
  | ok a =>
    refine ⟨fun h => .inr ⟨a, rfl, h⟩, ?_⟩
    rintro (h | ⟨_, ha, h⟩)
    · cases h
    · cases ha
      exact h
  | error e' =>
    constructor
    · intro h
      cases h
      exact .inl rfl
    · rintro (h | ⟨_, ha, -⟩)
      · cases h
        rfl
      · cases ha

/-- A loop stops at the first element whose step does. -/
theorem foldlM_eq_error {f : β → α → Except ε β} {l : List α} {b : β} {e : ε} :
    l.foldlM f b = .error e ↔ ∃ before a after c, l = before ++ a :: after ∧
      before.foldlM f b = .ok c ∧ f c a = .error e := by
  induction l generalizing b with
  | nil =>
    constructor
    · intro h
      cases h
    · rintro ⟨before, a, after, c, h, -⟩
      exact absurd h.symm (by simp)
  | cons first l ih =>
    rw [List.foldlM_cons, bind_eq_error]
    constructor
    · rintro (h | ⟨c, hc, h⟩)
      · exact ⟨[], first, l, b, rfl, rfl, h⟩
      · obtain ⟨before, a, after, c', rfl, hbefore, h⟩ := ih.1 h
        refine ⟨first :: before, a, after, c', rfl, ?_, h⟩
        rw [List.foldlM_cons, hc]
        exact hbefore
    · rintro ⟨before, a, after, c, hl, hbefore, h⟩
      cases before with
      | nil =>
        cases hl
        cases hbefore
        exact .inl h
      | cons first' before =>
        cases hl
        rw [List.foldlM_cons, bind_eq_ok] at hbefore
        obtain ⟨c', hc', hbefore⟩ := hbefore
        exact .inr ⟨c', hc', ih.2 ⟨before, a, after, c, rfl, hbefore, h⟩⟩

/-- What the computation raises has the property. -/
def OnlyRaises (p : ε → Prop) (x : Except ε α) : Prop := ∀ e, x = .error e → p e

namespace OnlyRaises

theorem ok (a : α) : OnlyRaises p (.ok a : Except ε α) := fun _ h => nomatch h

theorem error {e : ε} (h : p e) : OnlyRaises p (.error e : Except ε α) := by
  rintro e' ⟨⟩
  exact h

theorem ensure {c : Prop} [Decidable c] {e : ε} (h : p e) : OnlyRaises p (ensure c e) := by
  unfold Checked.ensure
  split_ifs
  · exact .ok ()
  · exact .error h

theorem bind {x : Except ε α} {f : α → Except ε β} (hx : OnlyRaises p x)
    (hf : ∀ a, x = .ok a → OnlyRaises p (f a)) : OnlyRaises p (x >>= f) := by
  intro e h
  obtain h | ⟨a, ha, h⟩ := bind_eq_error.1 h
  · exact hx e h
  · exact hf a ha e h

theorem forM {f : α → Except ε Unit} {l : List α} (h : ∀ a ∈ l, OnlyRaises p (f a)) :
    OnlyRaises p (l.forM f) := by
  induction l with
  | nil => exact .ok ()
  | cons a l ih =>
    obtain ⟨ha, hl⟩ := List.forall_mem_cons.1 h
    exact .bind ha fun _ _ => ih hl

theorem mapM {f : α → Except ε β} {l : List α} (h : ∀ a ∈ l, OnlyRaises p (f a)) :
    OnlyRaises p (l.mapM f) := by
  induction l with
  | nil => exact .ok []
  | cons a l ih =>
    obtain ⟨ha, hl⟩ := List.forall_mem_cons.1 h
    rw [List.mapM_cons]
    exact .bind ha fun _ _ => .bind (ih hl) fun _ _ => .ok _

end OnlyRaises

end Checked
