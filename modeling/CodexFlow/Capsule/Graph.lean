import CodexFlow.Capsule.Plans

/-!
# Registered graphs

The program graph that a registration keeps as text, and the graph that is read back from it.
-/

namespace CodexFlow.Capsule

open Hook (PyStr Json Dict lit)
open Git (PurePath)
open Checked

variable {floats : Floats}

/-! ### Graphs -/

structure ProgramNodeSpec (floats : Floats) where
  milestoneId : Identifier
  capsule : ExecutionCapsule floats
  dependencies : List Identifier
  reviewBaseSha : Option PyStr
  adoptedCandidateSha : Option PyStr

/-- `ProgramNodeSpec.__post_init__` -/
def ProgramNodeSpec.check (host : Host) (node : ProgramNodeSpec host.floats) : Checked Unit := do
  ensure (node.capsule.construct host = .ok node.capsule)
    "program node capsule must be an ExecutionCapsule"
  ensure (node.capsule.milestoneId = node.milestoneId)
    "program node milestone does not match its capsule"
  ensure (node.milestoneId ∉ node.dependencies ∧ node.dependencies.Nodup)
    "program node dependencies must be unique and acyclic at the node boundary"
  ensure (node.reviewBaseSha.isSome = node.adoptedCandidateSha.isSome)
    "adopted program nodes require both review base and candidate"
  ensure (node.reviewBaseSha.all (isHex 40)) "program review base is invalid"
  ensure (node.adoptedCandidateSha.all (isHex 40)) "adopted program candidate is invalid"
  ensure (node.reviewBaseSha.isSome = true ↔ node.capsule.integrationMode = .alreadyIntegrated)
    "already-integrated nodes require an explicit review base and candidate"

structure ProgramGraph (floats : Floats) where
  programId : Identifier
  planPath : PurePath
  planRevisionSha256 : PyStr
  nodes : List (ProgramNodeSpec floats)
  trunkHead : PyStr
  integrationStrategy : PyStr

namespace ProgramGraph

variable (g : ProgramGraph floats)

def ids : List Identifier := g.nodes.map (·.milestoneId)

/-- `graph[id]` -/
def dependencies (id : Identifier) : List Identifier :=
  ((g.nodes.find? fun node => node.milestoneId = id).map (·.dependencies)).getD []

/-- A dependency leads to the target, along at most as many edges as there are nodes. -/
def leadsTo (target : Identifier) : ℕ → Identifier → Bool
  | 0, _ => false
  | fuel + 1, id => (g.dependencies id).any fun d => d = target || leadsTo target fuel d

/-- `depends_on` -/
def dependsOn (id target : Identifier) : Bool := g.leadsTo target g.nodes.length id

def gates : List ProgramApprovalGate := g.nodes.flatMap (·.capsule.approvalGates)

/-- Two nodes that own one mutable surface, neither after the other. -/
def concurrentOwners (a b : ProgramNodeSpec floats) : Bool :=
  (a.capsule.mutablePaths.any fun surface => surface ∈ b.capsule.mutablePaths) &&
    !g.dependsOn a.milestoneId b.milestoneId && !g.dependsOn b.milestoneId a.milestoneId

def strategies : List PyStr := [lit "merge", lit "fast_forward", lit "cherry_pick"]

/-- `ProgramGraph.__post_init__` -/
def check : Checked Unit := do
  ensure (g.planPath.isAbsolute ∧ lit ".." ∉ g.planPath.parts)
    "program plan path must be an absolute canonical path"
  ensure (isHex 64 g.planRevisionSha256) "program plan revision digest is invalid"
  ensure (isHex 40 g.trunkHead) "program trunk HEAD is invalid"
  ensure (g.integrationStrategy ∈ strategies) "program integration strategy is unsupported"
  ensure (1 ≤ g.nodes.length ∧ g.nodes.length ≤ 128)
    "program graph must contain one to 128 nodes"
  ensure g.ids.Nodup "program graph milestone ids must be unique"
  ensure (∀ node ∈ g.nodes, ∀ d ∈ node.dependencies, d ∈ g.ids)
    "program graph dependency is not declared"
  ensure (∀ id ∈ g.ids, ¬ g.dependsOn id id) "program graph contains a dependency cycle"
  ensure (g.gates.map (·.gateId)).Nodup "program approval gate ids must be unique"
  ensure (∀ gate ∈ g.gates, (∀ id ∈ gate.prerequisiteMilestoneIds, id ∈ g.ids) ∧
      ∀ id ∈ gate.protectedMilestoneIds, id ∈ g.ids)
    "program approval gate references an unknown milestone"
  ensure (∀ gate ∈ g.gates, ∀ protected_ ∈ gate.protectedMilestoneIds,
      ∀ prerequisite ∈ gate.prerequisiteMilestoneIds,
        protected_ ≠ prerequisite ∧ ¬ g.dependsOn protected_ prerequisite)
    "program approval gate creates a dependency bypass"
  ensure (g.nodes.Pairwise fun a b => ¬ g.concurrentOwners a b)
    "program mutable surface has concurrent owners"

end ProgramGraph

/-- `ProgramGraph(...)`, of nodes that are checked before. -/
def ProgramGraph.new (host : Host) (g : ProgramGraph host.floats) :
    Checked (ProgramGraph host.floats) := do
  g.nodes.forM (·.check host)
  let g := { g with planPath := .new g.planPath.asPosix }
  g.check
  pure g

/-! ### Registration -/

def optionalText : Option PyStr → JsonValue floats
  | none => .null
  | some text => .str text

def ProgramNodeSpec.fields (node : ProgramNodeSpec floats) : List (PyStr × JsonValue floats) :=
  [(lit "milestone_id", .str node.milestoneId.val),
    (lit "dependencies", texts (node.dependencies.map (·.val))),
    (lit "mutable_surfaces", texts node.capsule.mutablePaths),
    (lit "review_base_sha", optionalText node.reviewBaseSha),
    (lit "adopted_candidate_sha", optionalText node.adoptedCandidateSha),
    (lit "capsule", .dict node.capsule.written)]

def ProgramNodeSpec.toJson (node : ProgramNodeSpec floats) : DictValue floats :=
  .ofFields node.fields (by
    show [lit "milestone_id", lit "dependencies", lit "mutable_surfaces", lit "review_base_sha",
      lit "adopted_candidate_sha", lit "capsule"].Nodup
    decide)

def graphSchema : PyStr := lit "codex-flow/program-graph/v1"

def ProgramGraph.fields (g : ProgramGraph floats) : List (PyStr × JsonValue floats) :=
  [(lit "schema", .str graphSchema),
    (lit "program_id", .str g.programId.val),
    (lit "plan_path", .str g.planPath.asPosix),
    (lit "plan_revision_sha256", .str g.planRevisionSha256),
    (lit "trunk_head", .str g.trunkHead),
    (lit "integration_strategy", .str g.integrationStrategy),
    (lit "nodes", .list (g.nodes.map fun node => .dict node.toJson))]

/-- `_program_graph_projection` -/
def ProgramGraph.projection (g : ProgramGraph floats) : DictValue floats :=
  .ofFields g.fields (by
    show [lit "schema", lit "program_id", lit "plan_path", lit "plan_revision_sha256",
      lit "trunk_head", lit "integration_strategy", lit "nodes"].Nodup
    decide)

structure ProgramRow where
  programId : Identifier
  programDigest : PyStr
  programGraphJson : PyStr
  trunkHead : PyStr
deriving DecidableEq

/-- `_encode_json(value)`, bound as a text of the database. -/
def encodeJson (value : DictValue floats) : Checked PyStr := do
  ensure (printable (.obj value.val)) "Exceeds the limit for integer string conversion"
  ensure (interoperable (.obj value.val)) "surrogates not allowed"
  pure (text (.obj value.val))

/-- `register_program` of the ledger over the rows that have a program. -/
def registerProgram (host : Host) (rows : List ProgramRow) (g : ProgramGraph host.floats) :
    Checked ProgramRow := do
  ensure (g.nodes.all fun node => node.capsule.approvalGates.isEmpty)
    "approval_capability_unavailable"
  let _ ← g.nodes.mapM fun node => capsuleJson host node.capsule
  let encoded ← encodeJson g.projection
  match rows.find? fun row => row.programId = g.programId with
  | some existing =>
    ensure (existing.programDigest = g.planRevisionSha256 ∧
        existing.programGraphJson = encoded ∧ existing.trunkHead = g.trunkHead)
      "program registration conflicts with its durable graph"
    pure existing
  | none =>
    pure
      { programId := g.programId, programDigest := g.planRevisionSha256,
        programGraphJson := encoded, trunkHead := g.trunkHead }

/-! ### Reading -/

/-- One node of `_program_node_payloads`, with its id. -/
def nodePayload (raw : JsonValue floats) : Checked (PyStr × DictValue floats) := do
  let node ← expect raw.asDict "program graph node is invalid"
  let id ← expect (node.get (lit "milestone_id")).asStr "program graph node is invalid"
  ensure ((node.get (lit "dependencies")).asStrings.isSome ∧
      (node.get (lit "mutable_surfaces")).asStrings.isSome)
    "program graph node ownership facts are invalid"
  ensure ((node.get? (lit "review_base_sha")).isSome =
      (node.get? (lit "adopted_candidate_sha")).isSome)
    "program graph node adoption facts are incomplete"
  pure (id, node)

/-- `_program_node_payloads` -/
def programNodePayloads (graph : DictValue floats) : Checked (List (PyStr × DictValue floats)) := do
  ensure ((graph.get (lit "schema")).asStr = some graphSchema) "program graph schema is invalid"
  let raw ← expect (graph.get (lit "nodes")).asList "program graph nodes are invalid"
  let payloads ← raw.mapM nodePayload
  ensure (payloads.map (·.1)).Nodup "program graph contains duplicate nodes"
  pure payloads

/-- A commit of an adoption, when the payload has one. -/
def optionalSha (value : JsonValue floats) (label : String) : Checked (Option PyStr) :=
  match value.val with
  | .null => pure none
  | _ => (expect value.asStr label).map some

def nodeFromPayload (host : Host) (payload : PyStr × DictValue host.floats) :
    Checked (ProgramNodeSpec host.floats) := do
  let milestoneId ← Identifier.new "milestone id" payload.1
  let capsule ← expect (payload.2.get (lit "capsule")).asDict "the capsule is not an object"
  let capsule ← capsuleFromJson host capsule
  let dependencies ← expect (payload.2.get (lit "dependencies")).asStrings
    "program graph node ownership facts are invalid"
  let dependencies ← dependencies.mapM (Identifier.new "milestone id")
  let reviewBaseSha ← optionalSha (payload.2.get (lit "review_base_sha"))
    "program review base is invalid"
  let adoptedCandidateSha ← optionalSha (payload.2.get (lit "adopted_candidate_sha"))
    "adopted program candidate is invalid"
  pure { milestoneId, capsule, dependencies, reviewBaseSha, adoptedCandidateSha }

def maxGraphBytes : ℕ := 2000000

def graphText (graph : DictValue floats) (field : String) : Checked PyStr :=
  expect (graph.get (lit field)).asStr "program graph projection cannot be rehydrated"

/-- `program_graph` -/
def programGraph (host : Host) (row : ProgramRow) : Checked (ProgramGraph host.floats) := do
  let value ← strictJsonLoads host.floats maxGraphBytes row.programGraphJson
  let graph ← expect value.asDict "program graph is not an object"
  let payloads ← programNodePayloads graph
  let sorted := payloads.mergeSort fun a b => Hook.keyLE a.1 b.1
  let nodes ← sorted.mapM (nodeFromPayload host)
  let planPath ← graphText graph "plan_path"
  let planRevisionSha256 ← graphText graph "plan_revision_sha256"
  let trunkHead ← graphText graph "trunk_head"
  let integrationStrategy ← graphText graph "integration_strategy"
  ProgramGraph.new host
    { programId := row.programId, planPath := .new planPath, planRevisionSha256, nodes, trunkHead,
      integrationStrategy }

/-! ### The order of the nodes -/

section Order

variable {g : ProgramGraph floats}

def ProgramGraph.sorted (g : ProgramGraph floats) : ProgramGraph floats :=
  { g with nodes := g.nodes.mergeSort fun a b =>
      Hook.keyLE a.milestoneId.val b.milestoneId.val }

theorem find?_perm {α β : Type} [DecidableEq β] {key : α → β} {l l' : List α} (perm : l.Perm l')
    (nodup : (l.map key).Nodup) (b : β) :
    (l.find? fun a => key a = b) = l'.find? fun a => key a = b := by
  refine Option.ext fun a => ?_
  have found : ∀ {l : List α}, (l.map key).Nodup →
      ((l.find? fun a => key a = b) = some a ↔ a ∈ l ∧ key a = b) := by
    intro l nodup
    constructor
    · exact fun h => ⟨List.mem_of_find?_eq_some h, by simpa using List.find?_some h⟩
    · rintro ⟨mem, same⟩
      have some : (l.find? fun a => key a = b).isSome = true :=
        List.find?_isSome.mpr ⟨a, mem, by simpa using same⟩
      obtain ⟨a', h⟩ := Option.isSome_iff_exists.mp some
      have same' : key a' = b := by simpa using List.find?_some h
      rw [h, List.inj_on_of_nodup_map nodup (List.mem_of_find?_eq_some h) mem
        (same'.trans same.symm)]
  rw [found nodup, found ((perm.map key).nodup_iff.mp nodup), perm.mem_iff]

variable {nodes : List (ProgramNodeSpec floats)}

theorem dependencies_perm (perm : g.nodes.Perm nodes) (nodup : g.ids.Nodup) :
    { g with nodes }.dependencies = g.dependencies := by
  funext id
  rw [ProgramGraph.dependencies, ProgramGraph.dependencies,
    find?_perm perm nodup id]

theorem leadsTo_perm (perm : g.nodes.Perm nodes) (nodup : g.ids.Nodup) (target : Identifier)
    (fuel : ℕ) (id : Identifier) :
    { g with nodes }.leadsTo target fuel id = g.leadsTo target fuel id := by
  induction fuel generalizing id with
  | zero => rfl
  | succ fuel ih =>
    simp only [ProgramGraph.leadsTo, dependencies_perm perm nodup, ih]

theorem dependsOn_perm (perm : g.nodes.Perm nodes) (nodup : g.ids.Nodup) :
    { g with nodes }.dependsOn = g.dependsOn := by
  funext id target
  show { g with nodes }.leadsTo target nodes.length id = _
  rw [leadsTo_perm perm nodup, ← perm.length_eq]
  rfl

theorem concurrentOwners_comm (a b : ProgramNodeSpec floats) :
    g.concurrentOwners a b = g.concurrentOwners b a := by
  have surfaces : (a.capsule.mutablePaths.any fun surface => surface ∈ b.capsule.mutablePaths) =
      b.capsule.mutablePaths.any fun surface => surface ∈ a.capsule.mutablePaths := by
    rw [Bool.eq_iff_iff]
    simp only [List.any_eq_true, decide_eq_true_eq]
    exact ⟨fun ⟨s, ha, hb⟩ => ⟨s, hb, ha⟩, fun ⟨s, hb, ha⟩ => ⟨s, ha, hb⟩⟩
  rw [ProgramGraph.concurrentOwners, ProgramGraph.concurrentOwners, surfaces, Bool.and_assoc,
    Bool.and_assoc, Bool.and_comm (!g.dependsOn a.milestoneId b.milestoneId)]

/-- The checks of a graph do not depend on the order of its nodes. -/
theorem check_perm (perm : g.nodes.Perm nodes) (checked : g.check = .ok ()) :
    { g with nodes }.check = .ok () := by
  simp only [ProgramGraph.check, checks_ok] at checked ⊢
  obtain ⟨path, revision, head, strategy, size, nodup, declared, acyclic, gateIds, known, bypass,
    owners⟩ := checked
  have ids : { g with nodes }.ids.Perm g.ids := (perm.map _).symm
  have gates : { g with nodes }.gates.Perm g.gates := (perm.flatMap_right _).symm
  have memIds : ∀ id, id ∈ { g with nodes }.ids ↔ id ∈ g.ids := fun id => ids.mem_iff
  have memGates : ∀ gate, gate ∈ { g with nodes }.gates ↔ gate ∈ g.gates := fun _ => gates.mem_iff
  have depends := dependsOn_perm perm nodup
  refine ⟨path, revision, head, strategy, perm.length_eq ▸ size, ids.nodup_iff.mpr nodup, ?_, ?_,
    (gates.map _).nodup_iff.mpr gateIds, ?_, ?_, ?_⟩
  · intro node mem d hd
    exact (memIds d).mpr (declared node (perm.mem_iff.mpr mem) d hd)
  · simpa only [memIds, depends] using acyclic
  · simpa only [memIds, memGates] using known
  · simpa only [memGates, depends] using bypass
  · have same : { g with nodes }.concurrentOwners = g.concurrentOwners := by
      funext a b
      simp only [ProgramGraph.concurrentOwners, depends]
    rw [same]
    refine (perm.pairwise_iff fun {a b} apart => ?_).mp owners
    rwa [concurrentOwners_comm]

end Order

/-! ### What a registration gives back -/

section Registered

variable {host : Host} {g : ProgramGraph host.floats}

theorem optionalSha_optionalText (sha : Option PyStr) (label : String) :
    optionalSha (optionalText sha : JsonValue floats) label = .ok sha := by
  cases sha <;> rfl

theorem nodePayload_toJson (node : ProgramNodeSpec floats) :
    nodePayload (.dict node.toJson) = .ok (node.milestoneId.val, node.toJson) := by
  have id : node.toJson.get (lit "milestone_id") = .str node.milestoneId.val :=
    get_ofFields (i := 0) rfl
  have dependencies : node.toJson.get (lit "dependencies") =
      texts (node.dependencies.map (·.val)) := get_ofFields (i := 1) rfl
  have surfaces : node.toJson.get (lit "mutable_surfaces") = texts node.capsule.mutablePaths :=
    get_ofFields (i := 2) rfl
  have base : node.toJson.get? (lit "review_base_sha") = some (optionalText node.reviewBaseSha) :=
    DictValue.get?_ofFields (List.mem_of_getElem? (i := 3) rfl)
  have adopted : node.toJson.get? (lit "adopted_candidate_sha") =
      some (optionalText node.adoptedCandidateSha) :=
    DictValue.get?_ofFields (List.mem_of_getElem? (i := 4) rfl)
  rw [nodePayload, JsonValue.asDict_dict, expect_some, ok_bind, id, JsonValue.asStr_str,
    expect_some, ok_bind, dependencies, surfaces, base, adopted, asStrings_texts, asStrings_texts]
  rfl

/-- A node is read back unless the keys of its capsule are not listed. -/
theorem nodeFromPayload_toJson {node : ProgramNodeSpec host.floats}
    (checked : node.check host = .ok ()) :
    nodeFromPayload host (node.milestoneId.val, node.toJson) = .ok node ↔
      ¬ Unlisted node.capsule := by
  simp only [ProgramNodeSpec.check, checks_ok] at checked
  have self : node.capsule.construct host = .ok node.capsule := checked.1
  have capsule : node.toJson.get (lit "capsule") = .dict node.capsule.written :=
    get_ofFields (i := 5) rfl
  have dependencies : node.toJson.get (lit "dependencies") =
      texts (node.dependencies.map (·.val)) := get_ofFields (i := 1) rfl
  have base : node.toJson.get (lit "review_base_sha") = optionalText node.reviewBaseSha :=
    get_ofFields (i := 3) rfl
  have adopted : node.toJson.get (lit "adopted_candidate_sha") =
      optionalText node.adoptedCandidateSha := get_ofFields (i := 4) rfl
  rw [nodeFromPayload]
  simp only [Identifier.new_val, ok_bind, capsule, JsonValue.asDict_dict, expect_some,
    capsuleFromJson_written self, dependencies, asStrings_texts, identifiers, base, adopted,
    optionalSha_optionalText]
  split_ifs with unlisted
  · exact iff_of_false nofun (not_not_intro unlisted)
  · exact iff_of_true rfl unlisted

theorem mapM_map_eq_ok {α β : Type} {f : β → Checked α} {k : α → β} {l : List α} :
    (l.map k).mapM f = .ok l ↔ ∀ a ∈ l, f (k a) = .ok a := by
  induction l with
  | nil => exact iff_of_true rfl (by simp)
  | cons a l ih =>
    rw [List.map_cons, List.mapM_cons, List.forall_mem_cons, ← ih]
    simp only [bind_eq_ok, pure_eq_ok]
    constructor
    · rintro ⟨b, first, bs, others, same⟩
      obtain ⟨rfl, rfl⟩ := List.cons.inj same
      exact ⟨first, others⟩
    · rintro ⟨first, others⟩
      exact ⟨a, first, l, others, rfl⟩

theorem programNodePayloads_projection (nodup : g.ids.Nodup) :
    programNodePayloads g.projection =
      .ok (g.nodes.map fun node => (node.milestoneId.val, node.toJson)) := by
  have schema : g.projection.get (lit "schema") = .str graphSchema := get_ofFields (i := 0) rfl
  have nodes : g.projection.get (lit "nodes") =
      .list (g.nodes.map fun node => .dict node.toJson) := get_ofFields (i := 6) rfl
  have fresh : (g.nodes.map fun node => node.milestoneId.val).Nodup := by
    rw [ProgramGraph.ids] at nodup
    have := nodup.map Subtype.val_injective
    rwa [List.map_map] at this
  rw [programNodePayloads, schema, JsonValue.asStr_str, ensure_of rfl, ok_bind, nodes, JsonValue.asList_list,
    expect_some, ok_bind, mapM_map_ok nodePayload_toJson, ok_bind, ensure_of (by
      rw [List.map_map]
      exact fresh)]
  rfl

theorem graphText_projection {i : ℕ} {field : String} {value : PyStr}
    (h : g.fields[i]? = some (lit field, .str value)) :
    graphText g.projection field = .ok value := by
  have eq : g.projection.get (lit field) = .str value := get_ofFields h
  rw [graphText, eq, JsonValue.asStr_str, expect_some]

theorem ProgramGraph.new_eq_ok {given : ProgramGraph host.floats}
    (h : ProgramGraph.new host given = .ok g) :
    (∀ node ∈ g.nodes, node.check host = .ok ()) ∧ Git.Proper g.planPath ∧ g.check = .ok () := by
  simp only [ProgramGraph.new, bind_eq_ok, pure_eq_ok] at h
  obtain ⟨_, nodes, _, checked, rfl⟩ := h
  exact ⟨forM_eq_ok.mp nodes, Git.proper_new _, checked⟩

/-- A registered graph is read back, its nodes in the order of their ids, unless its text is too
long or the keys of a capsule are not listed. -/
theorem programGraph_registered {given : ProgramGraph host.floats} {rows : List ProgramRow}
    {row : ProgramRow} (built : ProgramGraph.new host given = .ok g)
    (registered : registerProgram host rows g = .ok row) :
    programGraph host row = .ok g.sorted ↔
      (∀ node ∈ g.nodes, ¬ Unlisted node.capsule) ∧
        byteLength (text (.obj g.projection.val)) ≤ maxGraphBytes := by
  obtain ⟨nodes, proper, checked⟩ := ProgramGraph.new_eq_ok built
  have nodup : g.ids.Nodup := by
    simp only [ProgramGraph.check, checks_ok] at checked
    obtain ⟨-, -, -, -, -, nodup, -⟩ := checked
    exact nodup
  obtain ⟨readable, id, encoded⟩ : Readable host.floats (.obj g.projection.val) ∧
      row.programId = g.programId ∧ row.programGraphJson = text (.obj g.projection.val) := by
    simp only [registerProgram, encodeJson, steps_ok] at registered
    obtain ⟨-, _, -, _, ⟨printed, clean, rfl⟩, registered⟩ := registered
    refine ⟨⟨g.projection.property, printed, clean⟩, ?_⟩
    split at registered
    next existing found =>
      simp only [steps_ok] at registered
      obtain ⟨same, rfl⟩ := registered
      exact ⟨by simpa using List.find?_some found, same.2.1⟩
    next =>
      cases registered
      exact ⟨rfl, rfl⟩
  have sortedPerm : g.nodes.Perm g.sorted.nodes := (List.mergeSort_perm ..).symm
  have sort : (g.nodes.map fun node => (node.milestoneId.val, node.toJson)).mergeSort
      (fun a b => Hook.keyLE a.1 b.1) =
        g.sorted.nodes.map fun node => (node.milestoneId.val, node.toJson) := by
    symm
    apply List.map_mergeSort
    exact fun _ _ _ _ => rfl
  have readNodes : (g.sorted.nodes.map fun node => (node.milestoneId.val, node.toJson)).mapM
      (nodeFromPayload host) = .ok g.sorted.nodes ↔ ∀ node ∈ g.nodes, ¬ Unlisted node.capsule := by
    rw [mapM_map_eq_ok]
    constructor
    · intro h node mem
      exact (nodeFromPayload_toJson (nodes node mem)).mp (h node (sortedPerm.mem_iff.mp mem))
    · intro h node mem
      have mem := sortedPerm.mem_iff.mpr mem
      exact (nodeFromPayload_toJson (nodes node mem)).mpr (h node mem)
  have read : strictLoads host.floats maxGraphBytes row.programGraphJson =
      if byteLength (text (.obj g.projection.val)) ≤ maxGraphBytes then
        some (.obj g.projection.val) else none := by
    have read := strictLoads_text readable (.inl rfl) maxGraphBytes
    rw [List.append_nil] at read
    rw [encoded]
    exact read
  have path : PurePath.new g.planPath.asPosix = g.planPath := proper.new_asPosix
  have made : ProgramGraph.new host g.sorted = .ok g.sorted := by
    simp only [ProgramGraph.new, bind_eq_ok, pure_eq_ok]
    refine ⟨(), forM_eq_ok.mpr fun node mem => nodes node (sortedPerm.mem_iff.mpr mem), (), ?_, ?_⟩
    · show ProgramGraph.check { g.sorted with planPath := .new g.planPath.asPosix } = .ok ()
      rw [path]
      exact check_perm (g := g) sortedPerm checked
    · show { g.sorted with planPath := .new g.planPath.asPosix } = g.sorted
      rw [path]
      rfl
  by_cases short : byteLength (text (.obj g.projection.val)) ≤ maxGraphBytes
  · have value : strictJsonLoads host.floats maxGraphBytes row.programGraphJson =
        .ok (.dict g.projection) :=
      strictJsonLoads_eq_ok.mpr (by rw [read, if_pos short]; rfl)
    rw [programGraph, value, ok_bind, JsonValue.asDict_dict, expect_some, ok_bind,
      programNodePayloads_projection nodup, ok_bind]
    dsimp only
    rw [sort, graphText_projection (i := 2) rfl, graphText_projection (i := 3) rfl,
      graphText_projection (i := 4) rfl, graphText_projection (i := 5) rfl, and_iff_left short,
      ← readNodes]
    simp only [ok_bind, id, path]
    constructor
    · intro h
      obtain ⟨read, mapped, h⟩ := bind_eq_ok.mp h
      simp only [ProgramGraph.new, bind_eq_ok, pure_eq_ok] at h
      obtain ⟨_, -, _, -, same⟩ := h
      rw [mapped, ← same]
    · intro mapped
      rw [mapped]
      exact made
  · refine iff_of_false (fun loaded => ?_) fun all => short all.2
    obtain ⟨value, decoded, -⟩ := bind_eq_ok.mp loaded
    rw [strictJsonLoads_eq_ok, read, if_neg short] at decoded
    cases decoded

end Registered

end CodexFlow.Capsule
