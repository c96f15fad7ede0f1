import CodexFlow.Capsule.Ownership
import CodexFlow.Lib.Traversal

/-!
# The dependencies of a graph

The constructor of a graph visits its nodes depth first, and refuses a node that it is visiting
already; its gates are checked by a search of their own. The interpreter runs through the set of a
node's dependencies in an order of its own.
-/

namespace CodexFlow.Capsule

open Hook (lit)

variable {floats : Floats}

namespace ProgramGraph

/-- An order of the dependencies of each node: `graph[id]` is a set. -/
structure Order (g : ProgramGraph floats) where
  next : Identifier → List Identifier
  mem_next : ∀ {id d}, d ∈ next id ↔ d ∈ g.dependencies id

variable (g : ProgramGraph floats) (order : g.Order)

/-- The loop of `visit` over all nodes: a node is on the way to itself in a way no longer than there
are nodes. -/
def visitAll : Except Traversal.Stop (Traversal.Colours Identifier) :=
  Traversal.visitAll order.next (g.ids.length + 1) g.ids

/-- The loop of `depends_on`, as often as the fuel allows. -/
def searchFor (fuel : ℕ) (id dependency : Identifier) : Option Bool :=
  Traversal.search order.next dependency fuel (order.next id) ∅

/-- What the constructor has checked before it visits a node. -/
structure Declared : Prop where
  unique : g.ids.Nodup
  known : ∀ node ∈ g.nodes, ∀ d ∈ node.dependencies, d ∈ g.ids

/-- A node that depends on itself, through others. -/
def Cyclic : Prop := ∃ id, g.DependsOn id id

variable {g order}

theorem Declared.mem_ids (h : g.Declared) {id d : Identifier} (hd : d ∈ g.dependencies id) :
    d ∈ g.ids := by
  unfold dependencies at hd
  cases hfind : g.nodes.find? fun node => node.milestoneId = id with
  | none =>
    rw [hfind] at hd
    exact absurd hd List.not_mem_nil
  | some node =>
    rw [hfind] at hd
    exact h.known node (List.mem_of_find?_eq_some hfind) d hd

theorem Declared.next (h : g.Declared) :
    ∀ id ∈ g.ids.toFinset, ∀ d ∈ order.next id, d ∈ g.ids.toFinset :=
  fun _ _ _ hd => List.mem_toFinset.2 (h.mem_ids (order.mem_next.1 hd))

theorem edge_order : Reach.Edge order.next = Reach.Edge g.dependencies := by
  funext id d
  exact propext order.mem_next

theorem dependsOn_order {id d : Identifier} :
    Relation.TransGen (Reach.Edge order.next) id d ↔ g.DependsOn id d := by
  rw [edge_order]
  rfl

/-- The visits end with every node visited, or at a cycle. -/
theorem visitAll_searched (h : g.Declared) :
    Traversal.Searched order.next {} g.ids (g.visitAll order) :=
  Traversal.visitAll_searched h.next
    (Nat.lt_succ_of_le (List.toFinset_card_le g.ids)) fun _ => List.mem_toFinset.2

theorem not_cyclic_of_visitAll (h : g.Declared) {c : Traversal.Colours Identifier}
    (hvisit : g.visitAll order = .ok c) : ¬ g.Cyclic := by
  have hsearched : Traversal.Searched order.next {} g.ids (g.visitAll order) :=
    visitAll_searched h
  rw [hvisit] at hsearched
  obtain ⟨hsettled, -, -, hall⟩ := hsearched
  rintro ⟨id, hcycle⟩
  have hid : id ∈ g.ids := by
    obtain ⟨d, hd, -⟩ := Relation.TransGen.head'_iff.1 hcycle
    exact mem_ids_of_dependencies (List.ne_nil_of_mem hd)
  exact hsettled.acyclic id (hall id hid) (dependsOn_order.2 hcycle)

theorem cyclic_of_visitAll (h : g.Declared) {stop : Traversal.Stop}
    (hvisit : g.visitAll order = .error stop) : stop = .cycle ∧ g.Cyclic := by
  have hsearched : Traversal.Searched order.next {} g.ids (g.visitAll order) :=
    visitAll_searched h
  rw [hvisit] at hsearched
  cases stop with
  | cycle =>
    obtain ⟨id, hcycle⟩ := hsearched
    exact ⟨rfl, id, dependsOn_order.1 hcycle⟩
  | depth => exact hsearched.elim

/-- In whatever order, the visits accept what the check along bounded paths accepts. -/
theorem visitAll_iff_check (h : g.Declared) :
    (∃ c, g.visitAll order = .ok c) ↔ ∀ id ∈ g.ids, ¬ g.dependsOn id id := by
  constructor
  · rintro ⟨c, hvisit⟩ id _ hcycle
    exact not_cyclic_of_visitAll h hvisit ⟨id, dependsOn_iff.1 hcycle⟩
  · intro hcheck
    cases hvisit : g.visitAll order with
    | ok c => exact ⟨c, rfl⟩
    | error stop =>
      obtain ⟨-, id, hcycle⟩ := cyclic_of_visitAll h hvisit
      have hid : id ∈ g.ids := by
        obtain ⟨d, hd, -⟩ := Relation.TransGen.head'_iff.1 hcycle
        exact mem_ids_of_dependencies (List.ne_nil_of_mem hd)
      exact absurd (dependsOn_iff.2 hcycle) (hcheck id hid)

theorem searchFor_answers (h : g.Declared) (id dependency : Identifier) :
    ∃ steps, ∀ fuel, steps < fuel →
      ∃ answer, g.searchFor order fuel id dependency = some answer ∧
        (answer = true ↔ g.DependsOn id dependency) := by
  refine ⟨Traversal.stepsLeft order.next g.ids.toFinset (order.next id) ∅, fun fuel hfuel => ?_⟩
  have hpending : ∀ d ∈ order.next id, d ∈ g.ids.toFinset := fun d hd =>
    List.mem_toFinset.2 (h.mem_ids (order.mem_next.1 hd))
  have hstart : Traversal.Frontier order.next dependency id (order.next id) ∅ :=
    ⟨fun d hd => .single hd, fun d hd => .inr hd, fun a ha => absurd ha (Finset.notMem_empty a),
      Finset.notMem_empty dependency⟩
  obtain ⟨answer, hanswer, hiff⟩ := Traversal.search_spec h.next hpending hfuel hstart
  exact ⟨answer, hanswer, hiff.trans dependsOn_order⟩

end ProgramGraph

/-- The visits accept a graph exactly when it has no cycle and refuse it exactly when it has one, in
whatever order they come to the nodes and their dependencies; and the search for a dependency ends
on every graph, with the answer whether there is a path. -/
theorem graphs_are_dags (g : ProgramGraph floats) (order : g.Order) (h : g.Declared) :
    ((∃ c, g.visitAll order = .ok c) ↔ ¬ g.Cyclic) ∧
      (g.visitAll order = .error .cycle ↔ g.Cyclic) ∧
      ∀ id dependency, ∃ steps, ∀ fuel, steps < fuel →
        ∃ answer, g.searchFor order fuel id dependency = some answer ∧
          (answer = true ↔ g.DependsOn id dependency) := by
  refine ⟨⟨?_, fun hfree => ?_⟩, ⟨fun hvisit => ?_, fun hcyclic => ?_⟩, fun id dependency => ?_⟩
  · rintro ⟨c, hvisit⟩
    exact ProgramGraph.not_cyclic_of_visitAll h hvisit
  · cases hvisit : g.visitAll order with
    | ok c => exact ⟨c, rfl⟩
    | error stop => exact absurd (ProgramGraph.cyclic_of_visitAll h hvisit).2 hfree
  · exact (ProgramGraph.cyclic_of_visitAll h hvisit).2
  · cases hvisit : g.visitAll order with
    | ok c => exact absurd hcyclic (ProgramGraph.not_cyclic_of_visitAll h hvisit)
    | error stop => rw [(ProgramGraph.cyclic_of_visitAll h hvisit).1]
  · exact ProgramGraph.searchFor_answers h id dependency

/-- Two nodes that wait for each other. -/
def waitingGraph : ProgramGraph Host.sample.floats where
  programId := ⟨lit "program", isIdentifier_program⟩
  planPath := .new (lit "/repository/plan")
  planRevisionSha256 := List.replicate 64 (Hook.codePoint '0')
  nodes := [
    { sampleNode ⟨lit "store", isIdentifier_store⟩ (lit "src") with
      dependencies := [⟨lit "queue", isIdentifier_queue⟩] },
    { sampleNode ⟨lit "queue", isIdentifier_queue⟩ (lit "tests") with
      dependencies := [⟨lit "store", isIdentifier_store⟩] }]
  trunkHead := List.replicate 40 (Hook.codePoint '0')
  integrationStrategy := lit "merge"

def waitingOrder : waitingGraph.Order := ⟨waitingGraph.dependencies, Iff.rfl⟩

theorem waitingGraph_refused :
    waitingGraph.visitAll waitingOrder = .error .cycle ↔ waitingGraph.Cyclic :=
  (graphs_are_dags waitingGraph waitingOrder ⟨by decide, by decide⟩).2.1

theorem waitingGraph_visits : (∃ c, waitingGraph.visitAll waitingOrder = .ok c) ↔
    ∀ id ∈ waitingGraph.ids, ¬ waitingGraph.dependsOn id id :=
  ProgramGraph.visitAll_iff_check ⟨by decide, by decide⟩

end CodexFlow.Capsule
