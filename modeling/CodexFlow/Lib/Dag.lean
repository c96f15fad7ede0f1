import Mathlib

/-!
# Finite acyclic graphs

A graph given by its nodes, each before its parents, and by the parents of a node. `Reaches` is the
ancestry of the graph; `walk` computes it in one pass, marking the parents of every marked node.
-/

/-- A finite acyclic graph: its nodes are listed from the newest to the oldest. -/
structure Dag (α : Type) where
  nodes : List α
  parents : α → List α
  closed : ∀ a ∈ nodes, ∀ p ∈ parents a, p ∈ nodes
  ordered : nodes.Pairwise fun newer older => newer ≠ older ∧ newer ∉ parents older
  irrefl : ∀ a, a ∉ parents a

namespace Dag

variable {α : Type} (G : Dag α)

/-- `b` is `a` or one of its ancestors. -/
def Reaches (a b : α) : Prop := Relation.ReflTransGen (fun a b => b ∈ G.parents a) a b

variable {G}

theorem Reaches.refl (a : α) : G.Reaches a a := Relation.ReflTransGen.refl

theorem Reaches.parent {a p b : α} (hp : p ∈ G.parents a) (h : G.Reaches p b) : G.Reaches a b :=
  Relation.ReflTransGen.head hp h

theorem Reaches.eq_or_parent {a b : α} (h : G.Reaches a b) :
    a = b ∨ ∃ p ∈ G.parents a, G.Reaches p b := by
  obtain rfl | ⟨p, hp, h⟩ := Relation.ReflTransGen.cases_head h
  · exact .inl rfl
  · exact .inr ⟨p, hp, h⟩

/-- What is closed under parents holds every ancestor of its members. -/
theorem Reaches.mem {s : List α} (closed : ∀ a ∈ s, ∀ p ∈ G.parents a, p ∈ s) {a b : α}
    (ha : a ∈ s) (h : G.Reaches a b) : b ∈ s := by
  induction h with
  | refl => exact ha
  | tail _ hp ih => exact closed _ ih _ hp

theorem Reaches.mem_nodes {a b : α} (ha : a ∈ G.nodes) (h : G.Reaches a b) : b ∈ G.nodes :=
  h.mem G.closed ha

variable [DecidableEq α] (G)

/-- One pass over nodes, newest first: a marked node is kept and marks its parents. -/
def walk (marked : List α) : List α → List α
  | [] => []
  | a :: rest => if a ∈ marked then a :: walk (marked ++ G.parents a) rest else walk marked rest

variable {G}

/-- The walk keeps what the marks reach, over any list of nodes that is closed and ordered. -/
theorem mem_walk {nodes : List α} :
    ∀ {marked : List α}, (∀ a ∈ nodes, ∀ p ∈ G.parents a, p ∈ nodes) →
      nodes.Pairwise (fun newer older => newer ≠ older ∧ newer ∉ G.parents older) →
      ∀ b, b ∈ G.walk marked nodes ↔ ∃ m ∈ marked, m ∈ nodes ∧ G.Reaches m b := by
  induction nodes with
  | nil => exact fun _ _ b => ⟨nofun, fun ⟨_, _, hm, _⟩ => nomatch hm⟩
  | cons a rest ih =>
    intro marked closed ordered b
    obtain ⟨newest, ordered'⟩ := List.pairwise_cons.mp ordered
    have closed' : ∀ x ∈ rest, ∀ p ∈ G.parents x, p ∈ rest := by
      intro x hx p hp
      obtain rfl | hp' := List.mem_cons.mp (closed x (List.mem_cons_of_mem _ hx) p hp)
      · exact absurd hp (newest x hx).2
      · exact hp'
    have below : ∀ p ∈ G.parents a, p ∈ rest := by
      intro p hp
      obtain rfl | hp' := List.mem_cons.mp (closed a List.mem_cons_self p hp)
      · exact absurd hp (G.irrefl p)
      · exact hp'
    have older : ∀ m ∈ rest, ¬ G.Reaches m a := fun m hm h =>
      (newest a (h.mem closed' hm)).1 rfl
    unfold walk
    by_cases marks : a ∈ marked
    · rw [if_pos marks, List.mem_cons, ih closed' ordered']
      constructor
      · rintro (rfl | ⟨m, hm, hrest, h⟩)
        · exact ⟨b, marks, List.mem_cons_self, Reaches.refl b⟩
        · obtain hm | hp := List.mem_append.mp hm
          · exact ⟨m, hm, List.mem_cons_of_mem _ hrest, h⟩
          · exact ⟨a, marks, List.mem_cons_self, h.parent hp⟩
      · rintro ⟨m, hm, hnode, h⟩
        obtain rfl | hrest := List.mem_cons.mp hnode
        · obtain rfl | ⟨p, hp, h⟩ := h.eq_or_parent
          · exact .inl rfl
          · exact .inr ⟨p, List.mem_append_right _ hp, below p hp, h⟩
        · exact .inr ⟨m, List.mem_append_left _ hm, hrest, h⟩
    · rw [if_neg marks, ih closed' ordered']
      constructor
      · rintro ⟨m, hm, hrest, h⟩
        exact ⟨m, hm, List.mem_cons_of_mem _ hrest, h⟩
      · rintro ⟨m, hm, hnode, h⟩
        obtain rfl | hrest := List.mem_cons.mp hnode
        · exact absurd hm marks
        · exact ⟨m, hm, hrest, h⟩

variable (G)

def ancestors (a : α) : List α := G.walk [a] G.nodes

variable {G}

theorem mem_ancestors {a b : α} : b ∈ G.ancestors a ↔ a ∈ G.nodes ∧ G.Reaches a b := by
  rw [ancestors, mem_walk G.closed G.ordered]
  simp

end Dag
