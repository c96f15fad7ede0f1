import Mathlib

/-!
# Stateful computations that raise

A computation keeps the state it reached when it raises. `Ends x s Q` is its weakest precondition:
run from `s`, it ends in an outcome and a state of which `Q` holds. The rules are equivalences, so
they both bound what a computation may do and compute what it does.
-/

/-- A computation over the state `σ` that may raise an `ε`, and keeps its state when it does. -/
abbrev Raising (σ ε : Type) := ExceptT ε (StateM σ)

namespace Raising

variable {σ ε α β : Type} {s : σ} {Q Q' : Except ε α → σ → Prop}

def exec (x : Raising σ ε α) (s : σ) : Except ε α × σ := StateT.run (ExceptT.run x) s

/-- Run from `s`, the computation ends as `Q` says. -/
def Ends (x : Raising σ ε α) (s : σ) (Q : Except ε α → σ → Prop) : Prop :=
  Q (x.exec s).1 (x.exec s).2

/-- The outcome of a computation as a value: `try` with every exception caught. -/
def attempt (x : Raising σ ε α) : Raising σ ε (Except ε α) :=
  ExceptT.mk (Except.ok <$> ExceptT.run x)

/-- The postcondition of the first half of a sequence. -/
def followed (f : α → Raising σ ε β) (Q : Except ε β → σ → Prop) : Except ε α → σ → Prop
  | .ok a, s => Ends (f a) s Q
  | .error e, s => Q (.error e) s

@[simp] theorem followed_ok {f : α → Raising σ ε β} {Q : Except ε β → σ → Prop} {a : α} :
    followed f Q (.ok a) s ↔ Ends (f a) s Q := Iff.rfl

@[simp] theorem followed_error {f : α → Raising σ ε β} {Q : Except ε β → σ → Prop} {e : ε} :
    followed f Q (.error e) s ↔ Q (.error e) s := Iff.rfl

theorem ends_congr {x : Raising σ ε α} (h : ∀ a s', Q a s' ↔ Q' a s') :
    Ends x s Q ↔ Ends x s Q' := h _ _

@[simp] theorem ends_pure {a : α} : Ends (pure a) s Q ↔ Q (.ok a) s := Iff.rfl

@[simp] theorem ends_throw {e : ε} : Ends (throw e) s Q ↔ Q (.error e) s := Iff.rfl

@[simp] theorem ends_modify {f : σ → σ} {Q : Except ε PUnit → σ → Prop} :
    Ends (modify f) s Q ↔ Q (.ok ⟨⟩) (f s) := Iff.rfl

@[simp] theorem ends_get {Q : Except ε σ → σ → Prop} : Ends get s Q ↔ Q (.ok s) s := Iff.rfl

@[simp] theorem ends_bind {x : Raising σ ε α} {f : α → Raising σ ε β}
    {Q : Except ε β → σ → Prop} : Ends (x >>= f) s Q ↔ Ends x s (followed f Q) := by
  have run : (x >>= f).exec s = match x.exec s with
      | (.ok a, s') => (f a).exec s'
      | (.error e, s') => (.error e, s') := by
    change StateT.run (ExceptT.run x >>= ExceptT.bindCont f) s = _
    rw [StateT.run_bind]
    change (match x.exec s with
      | (a, s') => StateT.run (ExceptT.bindCont f a) s') = _
    rcases x.exec s with ⟨a | e, s'⟩ <;> rfl
  unfold Ends
  rw [run]
  rcases x.exec s with ⟨_ | _, _⟩ <;> rfl

@[simp] theorem ends_map {x : Raising σ ε α} {f : α → β} {Q : Except ε β → σ → Prop} :
    Ends (f <$> x) s Q ↔ Ends x s fun a s' => Q (a.map f) s' := by
  rw [map_eq_pure_bind, ends_bind]
  refine ends_congr fun a s' => ?_
  cases a <;> exact Iff.rfl

@[simp] theorem ends_attempt {x : Raising σ ε α} {Q : Except ε (Except ε α) → σ → Prop} :
    Ends (attempt x) s Q ↔ Ends x s fun a s' => Q (.ok a) s' := Iff.rfl

/-- A value of `Except` as a computation that leaves the state as it is. -/
def lift : Except ε α → Raising σ ε α
  | .ok a => pure a
  | .error e => throw e

@[simp] theorem ends_lift {a : Except ε α} : Ends (lift a) s Q ↔ Q a s := by
  cases a <;> exact Iff.rfl

theorem ends_ite {c : Prop} [Decidable c] {x y : Raising σ ε α} :
    Ends (if c then x else y) s Q ↔ (c → Ends x s Q) ∧ (¬ c → Ends y s Q) := by
  split_ifs with h <;> simp [h]

theorem Ends.mono {x : Raising σ ε α} (h : Ends x s Q) (hQ : ∀ a s', Q a s' → Q' a s') :
    Ends x s Q' := hQ _ _ h

end Raising
