import Mathlib

/-!
# Waiting graphs

An edge `R a b` makes `b` wait for `a`. A graph without cycles has no set of nodes that wait for one
another, and one more edge keeps it so exactly when it does not close a way back.
-/

namespace Waiting

open Relation

variable {α : Type*} {R S : α → α → Prop} {a b x y : α}

/-- No chain of edges comes back to where it began. -/
def Acyclic (R : α → α → Prop) : Prop := ∀ a, ¬TransGen R a a

theorem Acyclic.mono (hR : Acyclic R) (h : ∀ a b, S a b → R a b) : Acyclic S :=
  fun a hs => hR a (TransGen.mono h a a hs)

def insertEdge (R : α → α → Prop) (a b : α) : α → α → Prop := fun x y => R x y ∨ x = a ∧ y = b

/-- A chain that uses the new edge comes to its source and leaves from its target. -/
theorem transGen_insertEdge (h : TransGen (insertEdge R a b) x y) :
    TransGen R x y ∨ ReflTransGen R x a ∧ ReflTransGen R b y := by
  induction h with
  | single hstep =>
    obtain hstep | ⟨rfl, rfl⟩ := hstep
    · exact .inl (.single hstep)
    · exact .inr ⟨.refl, .refl⟩
  | tail _ hstep ih =>
    obtain hstep | ⟨rfl, rfl⟩ := hstep
    · obtain hold | ⟨hto, hfrom⟩ := ih
      · exact .inl (hold.tail hstep)
      · exact .inr ⟨hto, hfrom.tail hstep⟩
    · obtain hold | ⟨hto, -⟩ := ih
      · exact .inr ⟨hold.to_reflTransGen, .refl⟩
      · exact .inr ⟨hto, .refl⟩

theorem acyclic_insertEdge (h : Acyclic R) :
    Acyclic (insertEdge R a b) ↔ ¬ReflTransGen R b a := by
  constructor
  · intro hnew hback
    have hedge : insertEdge R a b a b := .inr ⟨rfl, rfl⟩
    exact hnew a (TransGen.head' hedge (ReflTransGen.mono (fun _ _ h => .inl h) b a hback))
  · intro hback x hcycle
    obtain hold | ⟨hto, hfrom⟩ := transGen_insertEdge hcycle
    · exact h x hold
    · exact hback (hfrom.trans hto)

/-- Some node of every nonempty finite set waits for no node of the set. -/
theorem Acyclic.exists_free (h : Acyclic R) {nodes : Finset α} (hne : nodes.Nonempty) :
    ∃ b ∈ nodes, ∀ a ∈ nodes, ¬R a b := by
  have htrans : IsTrans nodes fun x y => TransGen R x y := ⟨fun _ _ _ h₁ h₂ => h₁.trans h₂⟩
  have hirrefl : Std.Irrefl fun x y : nodes => TransGen R (x : α) y := ⟨fun x => h x⟩
  have hwf := Finite.wellFounded_of_trans_of_irrefl fun x y : nodes => TransGen R (x : α) y
  obtain ⟨c, hc⟩ := hne
  obtain ⟨b, -, hmin⟩ := hwf.has_min Set.univ ⟨⟨c, hc⟩, trivial⟩
  exact ⟨b, b.2, fun a ha hedge => hmin ⟨a, ha⟩ trivial (.single hedge)⟩

end Waiting
