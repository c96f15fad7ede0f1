import CodexFlow.Lib.Checked

/-!
# Records with a constructor

A record whose constructor checks its fields and may put them in a form of its own, which it accepts
as it is. A record that the constructor returned carries this.
-/

/-- The part of a constructor that runs once the fields are set. -/
class PostInit (ε : outParam Type) (α : Type) where
  postInit : α → Except ε α
  idempotent : ∀ {a b}, postInit a = .ok b → postInit b = .ok b

open PostInit

/-- A record that its constructor returned. -/
structure Built (α : Type) {ε : Type} [PostInit ε α] where
  val : α
  built : postInit val = .ok val

namespace Built

variable {ε α : Type} [PostInit ε α]

theorem ext {a b : Built α} (h : a.val = b.val) : a = b := by
  cases a
  cases b
  subst h
  rfl

def new (a : α) : Except ε (Built α) :=
  match h : postInit a with
  | .ok b => .ok ⟨b, idempotent h⟩
  | .error e => .error e

theorem new_eq_ok {a : α} {b : Built α} : new a = .ok b ↔ postInit a = .ok b.val := by
  unfold new
  split
  · rename_i c h
    refine ⟨fun same => ?_, fun same => ?_⟩
    · cases same
      exact h
    · exact congrArg _ (ext (Except.ok.inj (h.symm.trans same)))
  · rename_i h
    exact ⟨nofun, fun same => absurd (h.symm.trans same) nofun⟩

@[simp] theorem new_val (b : Built α) : new b.val = .ok b := new_eq_ok.2 b.built

end Built

/-- A constructor that checks its fields and leaves them as they are. -/
abbrev PostInit.ofCheck {ε α : Type} (check : α → Except ε Unit) : PostInit ε α where
  postInit a := do
    check a
    pure a
  idempotent := by
    intro a b h
    obtain ⟨_, _, hpure⟩ := Checked.bind_eq_ok.1 h
    cases Checked.pure_eq_ok.1 hpure
    exact h

theorem PostInit.ofCheck_eq_ok {ε α : Type} {check : α → Except ε Unit} {a b : α} :
    (ofCheck check).postInit a = .ok b ↔ check a = .ok () ∧ a = b := by
  show (check a >>= fun _ => pure a) = .ok b ↔ _
  rw [Checked.bind_eq_ok]
  exact ⟨fun ⟨_, hcheck, hpure⟩ => ⟨hcheck, Checked.pure_eq_ok.1 hpure⟩,
    fun ⟨hcheck, hpure⟩ => ⟨(), hcheck, Checked.pure_eq_ok.2 hpure⟩⟩
