import CodexFlow.Lib.Reach
import CodexFlow.Programs.Projection
import CodexFlow.Programs.Runs
import CodexFlow.Programs.Revisions

/-!
# Ready milestones

The dependencies of a registered program have no cycle, so among the milestones that are not closed
one waits for none of the others: a program stands still only while a milestone is under way, or at a
blocker of the whole program.
-/

namespace CodexFlow.Programs

open Checked

variable {P : Program} {m : Milestone} {n : NodeProjection} {s : NodeStatus}
  {nodes : List NodeStatus} {id : String}

/-! ### Dependencies -/

namespace ProgramGraph

variable (g : ProgramGraph)

def dependenciesOf (id : String) : List String := (g.nodes.get? id).elim [] (·.dependencies)

theorem reaches_eq_within (target : String) (k : ℕ) (a : String) :
    g.reaches target k a = Reach.within g.dependenciesOf target k a := by
  induction k generalizing a with
  | zero => rfl
  | succ k ih =>
    have hnext : ∀ d, (decide (d = target) || g.reaches target k d) =
        (decide (d = target) || Reach.within g.dependenciesOf target k d) := fun d => by rw [ih d]
    show ((g.nodes.get? a).any fun node => node.dependencies.any fun d =>
      decide (d = target) || g.reaches target k d) = (g.dependenciesOf a).any _
    unfold dependenciesOf
    cases g.nodes.get? a with
    | none => rfl
    | some node => exact congrArg node.dependencies.any (funext hnext)

variable {g}

theorem acyclic_of_check (h : g.check = .ok ()) (id : String) :
    ¬Relation.TransGen (Reach.Edge g.dependenciesOf) id id := by
  simp only [check, checks_ok] at h
  obtain ⟨-, -, -, -, hcycle⟩ := h
  intro hreach
  have hnodes : ∀ a, g.dependenciesOf a ≠ [] → a ∈ g.nodes.keys.toFinset := by
    intro a ha
    unfold dependenciesOf at ha
    cases hget : g.nodes.get? a with
    | none =>
      rw [hget] at ha
      exact absurd rfl ha
    | some node => exact List.mem_toFinset.2 (Table.mem_keys_of_get? hget)
  have hcard : g.nodes.keys.toFinset.card ≤ g.nodes.entries.length :=
    (List.toFinset_card_le _).trans_eq (List.length_map _)
  have hid : id ∈ g.nodes.keys := by
    obtain ⟨d, hd, -⟩ := Relation.TransGen.head'_iff.1 hreach
    exact List.mem_toFinset.1 (hnodes id (List.ne_nil_of_mem hd))
  have hnone := List.all_eq_true.1 hcycle id hid
  rw [reaches_eq_within, (Reach.within_iff_transGen hnodes hcard id).2 hreach] at hnone
  cases hnone

theorem node_of_continues (h : g.program.Continues P) (hm : P.milestones.get? id = some m) :
    g.nodes.get? id = some m.node := by
  have hkey : id ∈ g.program.milestones.keys := h.keys ▸ Table.mem_keys_of_get? hm
  obtain ⟨m₀, hget⟩ := Option.ne_none_iff_exists'.1 (mt Table.get?_eq_none.1 (not_not.2 hkey))
  obtain ⟨m', hm', hsame⟩ := h.milestones id m₀ hget
  obtain rfl := Option.some.inj (hm.symm.trans hm')
  obtain ⟨entry, hentry, heq⟩ := List.mem_map.1 (Table.get?_eq_some.1 hget)
  obtain ⟨rfl, rfl⟩ := Prod.mk.inj heq
  rw [hsame.node]
  exact Table.get?_eq_some.2 hentry

theorem milestone_of_continues (h : g.program.Continues P) (hid : id ∈ g.nodes.keys) :
    ∃ m, P.milestones.get? id = some m := by
  have hkeys : P.milestones.keys = g.nodes.keys := h.keys.trans List.map_map
  rw [← hkeys] at hid
  exact Option.ne_none_iff_exists'.1 (mt Table.get?_eq_none.1 (not_not.2 hid))

end ProgramGraph

/-! ### Statuses -/

theorem Milestone.status_eq (h : m.status id = .ok s) : ∃ n, s = m.statusOf n id := by
  simp only [Milestone.status, bind_eq_ok, pure_eq_ok] at h
  obtain ⟨n, -, -, -, rfl⟩ := h
  exact ⟨n, rfl⟩

theorem Milestone.blocker_of_closed (h : m.statusClosure n = true) : n.blocker = none := by
  unfold Milestone.statusClosure at h
  have hfacts := ((Bool.and_eq_true _ _).mp h).1
  unfold Programs.closureSatisfied at hfacts
  split_ifs at hfacts with hopen
  by_contra hblocker
  exact hopen (.inl (Option.isSome_iff_ne_none.2 hblocker))

namespace Program

theorem mem_nodes (hnodes : P.nodes = .ok nodes) (hs : s ∈ nodes) :
    ∃ m n, P.milestones.get? s.milestoneId = some m ∧ s = m.statusOf n s.milestoneId := by
  obtain ⟨⟨id, m⟩, hentry, hsame⟩ := LastMatch.mem_of_forall₂ (nodeStatuses_ok.1 hnodes).flip hs
  obtain ⟨n, rfl⟩ := Milestone.status_eq hsame
  exact ⟨m, n, Table.get?_eq_some.2 hentry, rfl⟩

theorem exists_node (hnodes : P.nodes = .ok nodes) (hm : P.milestones.get? id = some m) :
    ∃ s ∈ nodes, s.milestoneId = id := by
  obtain ⟨s, hs, hsame⟩ :=
    LastMatch.mem_of_forall₂ (nodeStatuses_ok.1 hnodes) (Table.get?_eq_some.1 hm)
  obtain ⟨n, rfl⟩ := Milestone.status_eq hsame
  exact ⟨_, hs, rfl⟩

end Program

/-- Every milestone that this one waits for is closed. -/
def WaitsForNone (nodes : List NodeStatus) (s : NodeStatus) : Prop :=
  ∀ s' ∈ nodes, s'.milestoneId ∈ s.dependencies → s'.closureSatisfied = true

theorem WaitsForNone.unblocked (h : WaitsForNone nodes s) (hnodes : P.nodes = .ok nodes)
    (hfree : ∀ s ∈ nodes, ∀ b, s.blocker = some b → b.promotionBlocking = true →
      b.scope ≠ .wholeProgram) :
    (nodes.any fun source => source.blocker.any fun b =>
      blockerAppliesTo b .ready source.milestoneId s.milestoneId s.dependencies) = false := by
  refine List.any_eq_false.2 fun source hsource happlies => ?_
  obtain ⟨b, hb, happlies⟩ := (Option.any_eq_true _ _).1 happlies
  unfold blockerAppliesTo at happlies
  split_ifs at happlies with hblocking hwhole hlater
  · exact hfree source hsource b hb (by simpa using hblocking) hwhole
  · exact absurd hlater (by decide)
  · -- a blocker of a milestone that is closed
    have hdependency := of_decide_eq_true ((Bool.and_eq_true _ _).mp happlies).2
    have hclosed := h source hsource hdependency
    obtain ⟨m, n, -, hstatus⟩ := Program.mem_nodes hnodes hsource
    rw [hstatus] at hclosed hb
    rw [show (m.statusOf n source.milestoneId).blocker = n.blocker from rfl,
      Milestone.blocker_of_closed hclosed] at hb
    cases hb

namespace ProgramGraph

variable {g : ProgramGraph}

theorem exists_waitsForNone (hcheck : g.check = .ok ()) (h : g.program.Continues P)
    (hnodes : P.nodes = .ok nodes) (hopen : ∃ s ∈ nodes, s.closureSatisfied = false) :
    ∃ s ∈ nodes, s.closureSatisfied = false ∧ WaitsForNone nodes s := by
  obtain ⟨a, ha, hlast⟩ := Reach.exists_last (acyclic_of_check hcheck)
    ((nodes.filter fun s => !s.closureSatisfied).map (·.milestoneId)).toFinset (by
      obtain ⟨s, hs, hclosed⟩ := hopen
      refine ⟨s.milestoneId, List.mem_toFinset.2 (List.mem_map_of_mem (List.mem_filter.2 ⟨hs, ?_⟩))⟩
      rw [hclosed]
      rfl)
  obtain ⟨s, hs, rfl⟩ := List.mem_map.1 (List.mem_toFinset.1 ha)
  obtain ⟨hs, hclosed⟩ := List.mem_filter.1 hs
  rw [Bool.not_eq_true'] at hclosed
  refine ⟨s, hs, hclosed, fun s' hs' hdependency => ?_⟩
  by_contra hnot
  refine hlast s'.milestoneId ?_ (List.mem_toFinset.2 (List.mem_map_of_mem
    (List.mem_filter.2 ⟨hs', ?_⟩)))
  · obtain ⟨m, n, hm, hstatus⟩ := Program.mem_nodes hnodes hs
    rw [hstatus] at hdependency
    unfold dependenciesOf
    rw [node_of_continues h hm]
    exact hdependency
  · rw [Bool.of_not_eq_true hnot]
    rfl

theorem dependencies_closed (hcheck : g.check = .ok ()) (h : g.program.Continues P)
    (hnodes : P.nodes = .ok nodes) (hs : s ∈ nodes) (hwaits : WaitsForNone nodes s) :
    (s.dependencies.all fun d =>
      nodes.any fun s => s.milestoneId = d && s.closureSatisfied) = true := by
  simp only [check, checks_ok] at hcheck
  obtain ⟨-, -, -, hdeclared, -⟩ := hcheck
  refine List.all_eq_true.2 fun d hd => ?_
  obtain ⟨m, n, hm, hstatus⟩ := Program.mem_nodes hnodes hs
  have hentry := Table.get?_eq_some.1 (node_of_continues h hm)
  have hkey : d ∈ g.nodes.keys := by
    rw [hstatus] at hd
    exact of_decide_eq_true (List.all_eq_true.1 (List.all_eq_true.1 hdeclared _ hentry) d hd)
  obtain ⟨m', hm'⟩ := milestone_of_continues h hkey
  obtain ⟨s', hs', rfl⟩ := Program.exists_node hnodes hm'
  refine List.any_eq_true.2 ⟨s', hs', ?_⟩
  rw [hwaits s' hs' hd, Bool.and_true]
  exact decide_eq_true rfl

end ProgramGraph

namespace System

variable {host : Host} {S : System} {programId : String}

theorem Reachable.graph (hS : S.Reachable host) (hP : S.programs.get? programId = some P) :
    ∃ g : ProgramGraph, g.register = .ok g.program ∧ g.program.Continues P := by
  refine hS.program (I := fun P => ∃ g : ProgramGraph, g.register = .ok g.program ∧
    g.program.Continues P) ?_ ?_ ?_ ?_ hP
  · intro g P h
    obtain rfl := register_ok h
    exact ⟨g, h, .refl _⟩
  · intro P P' call now event hI hrun
    obtain ⟨g, hg, h⟩ := hI
    exact ⟨g, hg, h.trans (Programs.run_continues hrun)⟩
  · intro P P' queue b now hI hcommit
    obtain ⟨g, hg, h⟩ := hI
    exact ⟨g, hg, h.trans (commitActions_continues hcommit).1⟩
  · intro P P' actionId effectId b state isNew hI heffect
    obtain ⟨g, hg, h⟩ := hI
    exact ⟨g, hg, h.trans (recordActionEffect_continues heffect)⟩

/-- While no milestone is under way and no blocker of the whole program is open, a program of which
some milestone is not closed has one that is ready. -/
theorem some_milestone_ready (hS : S.Reachable host) (hP : S.programs.get? programId = some P)
    (hnodes : P.nodes = .ok nodes)
    (hidle : ∀ s ∈ nodes, s.closureSatisfied = true ∨ s.state = .planned)
    (hfree : ∀ s ∈ nodes, ∀ b, s.blocker = some b → b.promotionBlocking = true →
      b.scope ≠ .wholeProgram)
    (hopen : ∃ s ∈ nodes, s.closureSatisfied = false) : readyMilestones nodes ≠ [] := by
  obtain ⟨g, hregister, hcontinues⟩ := hS.graph hP
  simp only [ProgramGraph.register, steps_ok] at hregister
  obtain ⟨⟨⟩, hcheck, hgates, -⟩ := hregister
  obtain ⟨s, hs, hclosed, hwaits⟩ :=
    ProgramGraph.exists_waitsForNone hcheck hcontinues hnodes hopen
  have hready : s.ready = true := by
    have hplanned := (hidle s hs).resolve_left (by rw [hclosed]; exact Bool.false_ne_true)
    have hnone : s.unsatisfiedGateIds.isEmpty = true := by
      obtain ⟨m, n, hm, hstatus⟩ := Program.mem_nodes hnodes hs
      rw [hstatus]
      exact List.all_eq_true.1 hgates _
        (Table.get?_eq_some.1 (ProgramGraph.node_of_continues hcontinues hm))
    unfold NodeStatus.ready
    rw [hplanned, hclosed, hnone]
    rfl
  refine List.ne_nil_of_mem (List.mem_map_of_mem (List.mem_filter.2 ⟨hs, ?_⟩))
  rw [hready, ProgramGraph.dependencies_closed hcheck hcontinues hnodes hs hwaits,
    hwaits.unblocked hnodes hfree]
  rfl

/-- The second milestone waits for the first. -/
def dependentGraph : ProgramGraph :=
  { sampleGraph .git with
    nodes :=
      ⟨[("m1", sampleNode .git),
        ("m2", { sampleNode .git with dependencies := ["m1"], mutableSurfaces := ["docs"] })],
        by decide⟩ }

theorem dependentGraph_ready : ∃ P nodes,
    (Machine.run (next Host.sample) {} [.register dependentGraph]).programs.get? "run" = some P ∧
      P.nodes = .ok nodes ∧ readyMilestones nodes ≠ [] := by
  have hplanned : ((Machine.run (next Host.sample) {} [.register dependentGraph]).programs.get?
      "run").any (fun P => P.nodes.toOption.any fun nodes => !nodes.isEmpty &&
        nodes.all fun s => s.state = .planned && s.blocker.isNone && !s.closureSatisfied) = true := by
    decide +kernel
  obtain ⟨P, hP, hplanned⟩ := (Option.any_eq_true _ _).1 hplanned
  obtain ⟨nodes, hnodes, hplanned⟩ := (Option.any_eq_true _ _).1 hplanned
  cases hresult : P.nodes with
  | error e =>
    rw [hresult] at hnodes
    cases hnodes
  | ok nodes' =>
    rw [hresult] at hnodes
    obtain rfl : nodes' = nodes := Option.some.inj hnodes
    simp only [Bool.and_eq_true, List.all_eq_true, decide_eq_true_eq, Bool.not_eq_true',
      Option.isNone_iff_eq_none, List.isEmpty_eq_false_iff_exists_mem] at hplanned
    obtain ⟨⟨s, hs⟩, hall⟩ := hplanned
    refine ⟨P, nodes', hP, hresult, some_milestone_ready ⟨_, rfl⟩ hP hresult
      (fun s hs => .inr (hall s hs).1.1) (fun s hs b hb => ?_) ⟨s, hs, (hall s hs).2⟩⟩
    rw [(hall s hs).1.2] at hb
    cases hb

end System

end CodexFlow.Programs
