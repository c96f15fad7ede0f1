import CodexFlow.Capsule.Persistence
import CodexFlow.Lib.Reach

/-!
# Ownership of surfaces

Two nodes of which neither comes after the other may run at once. The constructor of a graph keeps
them from owning one surface; a surface and one below it are two surfaces to it.
-/

namespace CodexFlow.Capsule

open Hook (PyStr lit)
open Git (PurePath)
open Checked

variable {floats : Floats}

/-- The check of a capsule on a mutable and a protected path. -/
def Overlaps (s t : PyStr) : Prop :=
  (PurePath.new t).Under (.new s) ∨ (PurePath.new s).Under (.new t)

instance (s t : PyStr) : Decidable (Overlaps s t) := by unfold Overlaps; infer_instance

/-- The second surface lies below the first. -/
def Below (s t : PyStr) : Prop := PurePath.new s ∈ (PurePath.new t).parents

instance (s t : PyStr) : Decidable (Below s t) := by unfold Below; infer_instance

theorem mem_parents {p q : PurePath} : q ∈ p.parents ↔ p.Under q ∧ p ≠ q := by
  constructor
  · intro h
    refine ⟨PurePath.isWithin_iff.1 (by simp [PurePath.isWithin, h]), ?_⟩
    rintro rfl
    obtain ⟨i, hi, hsame⟩ := List.mem_map.1 h
    have hlength := congrArg (fun p => p.parts.length) hsame
    rw [List.mem_range] at hi
    simp only [List.length_take] at hlength
    omega
  · rintro ⟨hunder, hne⟩
    have hwithin := PurePath.isWithin_iff.2 hunder
    simp only [PurePath.isWithin, Bool.or_eq_true, decide_eq_true_eq] at hwithin
    exact hwithin.resolve_left hne

theorem overlaps_iff {s t : PyStr} :
    Overlaps s t ↔ PurePath.new s = .new t ∨ Below s t ∨ Below t s := by
  simp only [Overlaps, Below, mem_parents]
  constructor
  · by_cases hsame : PurePath.new s = .new t
    · exact fun _ => .inl hsame
    · rintro (h | h)
      · exact .inr (.inl ⟨h, Ne.symm hsame⟩)
      · exact .inr (.inr ⟨h, hsame⟩)
  · rintro (hsame | ⟨h, -⟩ | ⟨h, -⟩)
    · rw [hsame]
      exact .inl ⟨rfl, List.prefix_rfl⟩
    · exact .inl h
    · exact .inr h

/-- A path that is admitted as relative is written the way that it is read. -/
theorem new_injective {s t : PyStr} (hs : isRelativePath s = true) (ht : isRelativePath t = true)
    (h : PurePath.new s = .new t) : s = t := by
  simp only [isRelativePath, Bool.and_eq_true, decide_eq_true_eq] at hs ht
  rw [← hs.2, ← ht.2, h]

namespace ProgramGraph

variable (g : ProgramGraph floats)

/-- A node depends on another, directly or through others. -/
def DependsOn : Identifier → Identifier → Prop := Relation.TransGen (Reach.Edge g.dependencies)

/-- Neither of the nodes depends on the other, so both may run at once. -/
def Independent (a b : ProgramNodeSpec floats) : Prop :=
  a.milestoneId ≠ b.milestoneId ∧ ¬ g.DependsOn a.milestoneId b.milestoneId ∧
    ¬ g.DependsOn b.milestoneId a.milestoneId

/-- Independent nodes never own overlapping surfaces. -/
def Exclusive : Prop :=
  ∀ a ∈ g.nodes, ∀ b ∈ g.nodes, g.Independent a b →
    ∀ s ∈ a.capsule.mutablePaths, ∀ t ∈ b.capsule.mutablePaths, ¬ Overlaps s t

/-- No surface of a node lies below a surface of an independent one. -/
def Unnested : Prop :=
  ∀ a ∈ g.nodes, ∀ b ∈ g.nodes, g.Independent a b →
    ∀ s ∈ a.capsule.mutablePaths, ∀ t ∈ b.capsule.mutablePaths, ¬ Below s t

variable {g}

theorem leadsTo_eq (target : Identifier) (n : ℕ) :
    g.leadsTo target n = Reach.within g.dependencies target n := by
  induction n with
  | zero => rfl
  | succ n ih =>
    funext id
    show ((g.dependencies id).any fun d => d = target || g.leadsTo target n d) = _
    rw [ih]
    rfl

theorem mem_ids_of_dependencies {id : Identifier} (h : g.dependencies id ≠ []) : id ∈ g.ids := by
  unfold dependencies at h
  cases hfind : g.nodes.find? fun node => node.milestoneId = id with
  | none =>
    rw [hfind] at h
    exact absurd rfl h
  | some node =>
    have hid := List.find?_some hfind
    exact List.mem_map.2 ⟨node, List.mem_of_find?_eq_some hfind, of_decide_eq_true hid⟩

theorem dependsOn_iff {id target : Identifier} :
    g.dependsOn id target = true ↔ g.DependsOn id target := by
  unfold dependsOn
  rw [leadsTo_eq]
  refine Reach.within_iff_transGen (s := g.ids.toFinset) (fun id h => ?_) ?_ id
  · exact List.mem_toFinset.2 (mem_ids_of_dependencies h)
  · exact (List.toFinset_card_le _).trans (List.length_map _).le

/-! ### What a constructed graph promises -/

variable {host : Host}

theorem new_ok {g₀ g : ProgramGraph host.floats} (h : ProgramGraph.new host g₀ = .ok g) :
    (∀ node ∈ g.nodes, node.check host = .ok ()) ∧ g.check = .ok () := by
  simp only [ProgramGraph.new, bind_eq_ok, pure_eq_ok] at h
  obtain ⟨⟨⟩, hnodes, ⟨⟩, hcheck, rfl⟩ := h
  exact ⟨forM_eq_ok.1 hnodes, hcheck⟩

theorem relative_of_check {node : ProgramNodeSpec host.floats} (h : node.check host = .ok ())
    {s : PyStr} (hs : s ∈ node.capsule.mutablePaths) : isRelativePath s = true := by
  simp only [ProgramNodeSpec.check, checks_ok] at h
  obtain ⟨hconstruct, -⟩ := h
  simp only [ExecutionCapsule.construct, steps_ok] at hconstruct
  obtain ⟨-, root, -, workspace, -, ⟨⟩, hcheck, hsame⟩ := hconstruct
  rw [hsame] at hcheck
  simp only [ExecutionCapsule.check, ExecutionCapsule.checkPlace, relativePaths,
    checks_ok] at hcheck
  exact List.all_eq_true.1 hcheck.1.2.2.2.2.1.1 s hs

/-- Nodes that may run at once own no surface in common. -/
def Apart (g : ProgramGraph floats) (a b : ProgramNodeSpec floats) : Prop :=
  g.Independent a b → ∀ s ∈ a.capsule.mutablePaths, s ∉ b.capsule.mutablePaths

instance (g : ProgramGraph floats) : Std.Symm g.Apart where
  symm _ _ h hfree s hs hs' := h ⟨hfree.1.symm, hfree.2.2, hfree.2.1⟩ s hs' hs

theorem apart_of_not_concurrentOwners {g : ProgramGraph floats} {a b : ProgramNodeSpec floats}
    (h : ¬ g.concurrentOwners a b) : g.Apart a b := by
  intro hfree s hs hs'
  refine h ?_
  simp only [concurrentOwners, Bool.and_eq_true, Bool.not_eq_true', List.any_eq_true,
    decide_eq_true_eq]
  refine ⟨⟨⟨s, hs, hs'⟩, ?_⟩, ?_⟩
  · exact Bool.eq_false_iff.2 fun h => hfree.2.1 (dependsOn_iff.1 h)
  · exact Bool.eq_false_iff.2 fun h => hfree.2.2 (dependsOn_iff.1 h)

theorem apart_of_check {g : ProgramGraph floats} (h : g.check = .ok ()) :
    ∀ a ∈ g.nodes, ∀ b ∈ g.nodes, g.Apart a b := by
  simp only [check, checks_ok] at h
  have howners := h.2.2.2.2.2.2.2.2.2.2.2
  intro a ha b hb
  refine (howners.imp apart_of_not_concurrentOwners).forall_of_forall (fun c _ hfree => ?_) ha hb
  exact absurd rfl hfree.1

end ProgramGraph

/-- A constructed graph keeps independent nodes apart exactly when it has no surface below a
surface of an independent node. -/
theorem graph_ownership (host : Host) (g₀ g : ProgramGraph host.floats)
    (h : ProgramGraph.new host g₀ = .ok g) : g.Exclusive ↔ g.Unnested := by
  obtain ⟨hnodes, hcheck⟩ := ProgramGraph.new_ok h
  constructor
  · intro hexclusive a ha b hb hfree s hs t ht hbelow
    exact hexclusive a ha b hb hfree s hs t ht (overlaps_iff.2 (.inr (.inl hbelow)))
  · intro hunnested a ha b hb hfree s hs t ht hoverlaps
    obtain hsame | hbelow | hbelow := overlaps_iff.1 hoverlaps
    · obtain rfl := new_injective (ProgramGraph.relative_of_check (hnodes a ha) hs)
        (ProgramGraph.relative_of_check (hnodes b hb) ht) hsame
      exact ProgramGraph.apart_of_check hcheck a ha b hb hfree s hs ht
    · exact hunnested a ha b hb hfree s hs t ht hbelow
    · exact hunnested b hb a ha ⟨hfree.1.symm, hfree.2.2, hfree.2.1⟩ t ht s hs hbelow

/-! ### A surface below another -/

def sampleNode (milestone : Identifier) (surface : PyStr) :
    ProgramNodeSpec Host.sample.floats where
  milestoneId := milestone
  capsule := { sampleCapsule [] with milestoneId := milestone, mutablePaths := [surface] }
  dependencies := []
  reviewBaseSha := some (List.replicate 40 (Hook.codePoint '0'))
  adoptedCandidateSha := some (List.replicate 40 (Hook.codePoint '1'))

/-- Two nodes without dependencies, of which the second owns what lies below the first's surface. -/
theorem isIdentifier_program : isIdentifier 127 (lit "program") = true := by decide

theorem isIdentifier_store : isIdentifier 127 (lit "store") = true := by decide

theorem isIdentifier_queue : isIdentifier 127 (lit "queue") = true := by decide

def nestedGraph : ProgramGraph Host.sample.floats where
  programId := ⟨lit "program", isIdentifier_program⟩
  planPath := .new (lit "/repository/plan")
  planRevisionSha256 := List.replicate 64 (Hook.codePoint '0')
  nodes := [sampleNode ⟨lit "store", isIdentifier_store⟩ (lit "src"),
    sampleNode ⟨lit "queue", isIdentifier_queue⟩ (lit "src/queue")]
  trunkHead := List.replicate 40 (Hook.codePoint '0')
  integrationStrategy := lit "merge"

theorem nestedGraph_new : ProgramGraph.new Host.sample nestedGraph = .ok nestedGraph := by
  have hnodes : (nestedGraph.nodes.forM (·.check Host.sample)) = .ok () := by decide
  have hcheck : nestedGraph.check = .ok () := by decide
  unfold ProgramGraph.new
  rw [hnodes]
  show (do nestedGraph.check; pure nestedGraph) = _
  rw [hcheck]
  rfl

/-- The graph is accepted, and its two nodes may run at once. -/
theorem nestedGraph_not_exclusive :
    ∃ g₀ g, ProgramGraph.new Host.sample g₀ = .ok g ∧ ¬ g.Exclusive := by
  refine ⟨nestedGraph, nestedGraph, nestedGraph_new, fun hexclusive => ?_⟩
  have hfree : nestedGraph.Independent (sampleNode ⟨lit "store", by decide⟩ (lit "src"))
      (sampleNode ⟨lit "queue", by decide⟩ (lit "src/queue")) := by
    refine ⟨by decide, ?_, ?_⟩ <;> rw [← ProgramGraph.dependsOn_iff] <;> decide
  exact hexclusive _ (by simp [nestedGraph]) _ (by simp [nestedGraph]) hfree
    (lit "src") (by simp [sampleNode]) (lit "src/queue") (by simp [sampleNode]) (by decide)

/-- Nothing of the graph's nodes lies below the other node's surface exactly when they are kept
apart. -/
theorem nestedGraph_ownership : nestedGraph.Exclusive ↔ nestedGraph.Unnested :=
  graph_ownership Host.sample nestedGraph nestedGraph nestedGraph_new

end CodexFlow.Capsule
