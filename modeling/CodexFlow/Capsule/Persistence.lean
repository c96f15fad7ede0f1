import CodexFlow.Capsule.Graph

/-!
# What persists

A capsule comes back from its dictionary, its text, its plan and its program exactly where the key
sets of the decoder list it and its text is one that the reader takes.
-/

namespace CodexFlow.Capsule

open Hook (PyStr Json lit)
open Git (PurePath)
open Checked

/-- The capsule comes back from the dictionary that it is written as. -/
def ByValue (host : Host) (given c : ExecutionCapsule host.floats) : Prop :=
  (do capsuleFromJson host (← capsuleJson host given)) = .ok c

/-- The capsule comes back from its canonical text. -/
def ByText (host : Host) (given c : ExecutionCapsule host.floats) : Prop :=
  (do loadCapsule host (← capsuleContent host given)) = .ok c

/-- Whatever is planned later, the capsule is planned again without change, and loaded. -/
def ByPlan (p : Planner) (planned : Plans) (given c : ExecutionCapsule p.host.floats)
    (record : ExecutionRecord) : Prop :=
  ∀ plans, p.Later planned plans →
    p.plan plans given = .ok (record, plans) ∧ p.loadDurable plans record = .ok c

section Persists

variable {host : Host} {given c : ExecutionCapsule host.floats}

theorem byValue_iff (canonical : given.canonicalize host = .ok c) :
    ByValue host given c ↔ ¬ Unlisted c := by
  have self : c.construct host = .ok c := construct_self canonical
  have written : capsuleJson host given = .ok c.written := by
    rw [capsuleJson, canonical]
    rfl
  rw [ByValue, written, ok_bind, capsuleFromJson_written self]
  split_ifs with unlisted
  · exact iff_of_false (by rintro ⟨⟩) (not_not_intro unlisted)
  · exact iff_of_true rfl unlisted

theorem byText_iff (canonical : given.canonicalize host = .ok c) :
    ByText host given c ↔
      ¬ Unlisted c ∧ c.Encodable ∧ byteLength c.text ≤ maxJsonBytes := by
  have self : c.construct host = .ok c := construct_self canonical
  have content : capsuleContent host given = capsuleContent host c := by
    rw [capsuleContent, capsuleContent, capsuleJson_self self, capsuleJson, canonical]
    rfl
  rw [ByText, content]
  constructor
  · intro h
    obtain ⟨text, written, loaded⟩ := bind_eq_ok.mp h
    obtain ⟨encodable, rfl⟩ := (capsuleContent_eq_ok self).mp written
    obtain ⟨listed, short⟩ := (loadCapsule_text self encodable).mp loaded
    exact ⟨listed, encodable, short⟩
  · rintro ⟨listed, encodable, short⟩
    rw [(capsuleContent_eq_ok self).mpr ⟨encodable, rfl⟩, ok_bind]
    exact (loadCapsule_text self encodable).mpr ⟨listed, short⟩

end Persists

theorem byPlan_iff {p : Planner} {plans planned : Plans} {given c : ExecutionCapsule p.host.floats}
    {record : ExecutionRecord} (canonical : given.canonicalize p.host = .ok c)
    (fresh : plans.executions (c.runId, c.milestoneId) = none)
    (h : p.plan plans given = .ok (record, planned)) :
    ByPlan p planned given c record ↔ ¬ Unlisted c ∧ byteLength c.text ≤ maxJsonBytes := by
  obtain ⟨encodable, inspected, eq, keeps⟩ := plan_first canonical fresh h
  rw [← loadCapsule_text (construct_self canonical) encodable]
  generalize record.protectedBeforeSha256 = protectedBefore at inspected eq
  subst eq
  constructor
  · intro always
    exact (plan_again canonical encodable inspected keeps).2.mp (always _ (.refl _)).2
  · intro loaded later steps
    obtain ⟨again, load⟩ := plan_again canonical encodable inspected (keeps.later steps)
    exact ⟨again.mpr loaded, load.mpr loaded⟩

/-- Surroundings with one float, where every path is its own. -/
def Host.sample : Host where
  floats :=
    { isRepr := fun text => text = lit "1.0"
      read := fun text => if text = lit "1.0" then some text else none
      ofInt := fun n => if n = 1 then some (lit "1.0") else none
      isPositive := fun _ => true
      token := fun text h => by
        rw [of_decide_eq_true h]
        decide
      round_trip := fun _ h => if_pos (of_decide_eq_true h)
      read_isRepr := fun text value h => by
        split_ifs at h with one
        exact decide_eq_true (Option.some.inj h ▸ one) }
  resolve path := if PurePath.new path.asPosix = path then some path else none
  validateOutputSchema _ := true
  resolve_resolved path resolved h := by
    split_ifs at h with proper
    cases h
    exact if_pos proper
  resolved_new path resolved h := by
    split_ifs at h with proper
    exact Option.some.inj h ▸ proper

def sampleRequirement : DictValue Host.sample.floats :=
  .ofFields [(lit "name", .str (lit "documents"))] (by decide)

/-- A commit that is already integrated, with the given plugin requirements. -/
def sampleCapsule (requirements : List (DictValue Host.sample.floats)) :
    ExecutionCapsule Host.sample.floats where
  capsuleVersion := 2
  runId := ⟨lit "run", by decide⟩
  milestoneId := ⟨lit "milestone", by decide⟩
  repositoryRoot := .new (lit "/repository")
  workspaceMode := .currentCheckout
  workspacePath := .new (lit "/repository")
  branch := lit "main"
  baseSha := List.replicate 40 (Hook.codePoint '0')
  lane := lit "lane"
  mutablePaths := [lit "src"]
  protectedPaths := []
  validation := ⟨[lit "true"], lit "1.0", by decide⟩
  model := lit "model"
  reasoningEffort := .high
  prompt := lit "prompt"
  outputSchema := ⟨[], by decide⟩
  permissionMode := .inheritNative
  acceptanceModes := [.objective]
  pluginRequirements := requirements
  localImagePaths := []
  outcomeKind := .commit
  integrationMode := .alreadyIntegrated
  runtimeArtifactPaths := []
  runtimeArtifactMaxFiles := none
  runtimeArtifactMaxBytes := none
  approvalGates := []
  acceptanceCriteriaSha256 := none

theorem sample_canonical (requirements : List (DictValue Host.sample.floats)) :
    (sampleCapsule requirements).canonicalize Host.sample = .ok (sampleCapsule requirements) := by
  have checked : (sampleCapsule requirements).check Host.sample = .ok () :=
    (by decide : (sampleCapsule []).check Host.sample = .ok ())
  have root : Host.sample.resolve (.new (lit "/repository")) = some (.new (lit "/repository")) := by
    decide
  simp only [ExecutionCapsule.canonicalize, ExecutionCapsule.construct, steps_ok, expect_eq_ok]
  exact ⟨.inl rfl, _, root, _, root, (), checked, rfl⟩

/-- A state directory whose checkout needs no inspection. -/
def Planner.sample : Planner where
  host := Host.sample
  stateDir := .new (lit "/repository/.codex-flow")
  inspect _ := .ok (lit "protected")
  digestBytes text := text

/-- `_MODEL_KEYS` -/
def modelKeys : List PyStr :=
  [lit "schema_version", lit "objective", lit "decomposition", lit "acceptance_criteria",
    lit "surfaces", lit "acceptance", lit "prompt", lit "recovery_policy"]

/-- The key sets of a model-facing capsule, each without `_MODEL_KEYS`. -/
def modelShapes : List (List PyStr) :=
  [[], pluginKeys, imageKeys, imageKeys ++ pluginKeys, outcomeKeys, outcomeKeys ++ pluginKeys,
    outcomeKeys ++ imageKeys, outcomeKeys ++ imageKeys ++ pluginKeys]

/-- The key sets of an execution capsule, each without `_EXECUTION_KEYS`. -/
def executionShapes : List (List PyStr) :=
  [[],
    criteriaKeys,
    modesKeys,
    criteriaKeys ++ modesKeys,
    pluginKeys,
    criteriaKeys ++ pluginKeys,
    modesKeys ++ pluginKeys,
    criteriaKeys ++ modesKeys ++ pluginKeys,
    imageKeys,
    criteriaKeys ++ imageKeys,
    imageKeys ++ modesKeys,
    criteriaKeys ++ imageKeys ++ modesKeys,
    imageKeys ++ pluginKeys,
    criteriaKeys ++ imageKeys ++ pluginKeys,
    imageKeys ++ modesKeys ++ pluginKeys,
    criteriaKeys ++ imageKeys ++ modesKeys ++ pluginKeys]

variable {host : Host}

def hasOneOf (value : DictValue host.floats) (keys : List PyStr) : Bool :=
  keys.any fun key => (value.get? key).isSome

/-- `load_control_capsule`, of the text of the file: the capsule, and the digest of the text. The
projection of a model-facing capsule fails with the message of a `ProjectionError`, or otherwise. -/
def loadControlCapsule (host : Host) (sha256 : PyStr → PyStr)
    (project : DictValue host.floats → Except (Option String) (ExecutionCapsule host.floats))
    (path : String) (raw : PyStr) : Checked (ExecutionCapsule host.floats × PyStr) := do
  let decoded ← (strictJsonLoads host.floats maxJsonBytes raw).mapError fun _ =>
    "capsule cannot be decoded: " ++ path
  let value ← expect decoded.asDict "capsule root must be an object"
  if modelShapes.any fun keys => value.keysAre (modelKeys ++ keys) then do
    let c ← (project value).mapError (·.getD "model-facing capsule is malformed")
    pure (c, sha256 raw)
  else if executionShapes.any fun keys => value.keysAre (expectedKeys ++ keys) then do
    let c ← (capsuleFromJson host value).mapError fun _ => "internal execution capsule is malformed"
    pure (c, sha256 raw)
  else if hasOneOf value modelKeys && hasOneOf value expectedKeys then
    .error "capsule shape is mixed or ambiguous"
  else .error "capsule keys do not match the closed model-facing or internal schema"

/-! ### What is loaded of a written capsule -/

variable {sha256 : PyStr → PyStr} {path : String}
  {project : DictValue host.floats → Except (Option String) (ExecutionCapsule host.floats)}
  {given c : ExecutionCapsule host.floats} {content : PyStr}

theorem not_modelShape (c : ExecutionCapsule host.floats) :
    (modelShapes.any fun keys => c.written.keysAre (modelKeys ++ keys)) = false := by
  have table : ∀ plugins images criteria outcome,
      (modelShapes.any fun keys =>
        (writtenKeys plugins images criteria outcome).all (· ∈ modelKeys ++ keys) &&
          (modelKeys ++ keys).all (· ∈ writtenKeys plugins images criteria outcome)) = false := by
    decide
  simp only [ExecutionCapsule.written, DictValue.keysAre_ofFields, ExecutionCapsule.fields_keys]
  exact table _ _ _ _

theorem executionShape_iff (c : ExecutionCapsule host.floats) :
    (executionShapes.any fun keys => c.written.keysAre (expectedKeys ++ keys)) =
      !c.carriesOutcome := by
  have table : ∀ plugins images criteria outcome,
      (executionShapes.any fun keys =>
        (writtenKeys plugins images criteria outcome).all (· ∈ expectedKeys ++ keys) &&
          (expectedKeys ++ keys).all (· ∈ writtenKeys plugins images criteria outcome)) =
        !outcome := by decide +kernel
  simp only [ExecutionCapsule.written, DictValue.keysAre_ofFields, ExecutionCapsule.fields_keys]
  exact table _ _ _ _

theorem hasOneOf_written (c : ExecutionCapsule host.floats) :
    hasOneOf c.written modelKeys = true ∧ hasOneOf c.written expectedKeys = true := by
  have prompt : (c.written.get? (lit "prompt")).isSome = true := by
    rw [get?_base c (i := 14) rfl]
    rfl
  exact ⟨List.any_eq_true.mpr ⟨lit "prompt", by decide, prompt⟩,
    List.any_eq_true.mpr ⟨lit "prompt", by decide, prompt⟩⟩

theorem loadControlCapsule_written (canonical : given.canonicalize host = .ok c)
    (written : capsuleContent host given = .ok content) :
    loadControlCapsule host sha256 project path content =
      if maxJsonBytes < byteLength content then .error ("capsule cannot be decoded: " ++ path)
      else if c.carriesOutcome then .error "capsule shape is mixed or ambiguous"
      else .ok (c, sha256 content) := by
  have self : c.construct host = .ok c := construct_self canonical
  have same : capsuleContent host given = capsuleContent host c := by
    rw [capsuleContent, capsuleContent, capsuleJson_self self, capsuleJson, canonical]
    rfl
  rw [same] at written
  obtain ⟨encodable, rfl⟩ := (capsuleContent_eq_ok self).mp written
  have read : strictLoads host.floats maxJsonBytes c.text =
      if byteLength c.text ≤ maxJsonBytes then some (.obj c.written.val) else none :=
    strictLoads_text (readable_written encodable) (.inr rfl) maxJsonBytes
  by_cases long : maxJsonBytes < byteLength c.text
  · rw [if_pos long]
    cases value : strictJsonLoads host.floats maxJsonBytes c.text with
    | ok value' =>
      rw [strictJsonLoads_eq_ok, read, if_neg (Nat.not_le_of_lt long)] at value
      cases value
    | error e =>
      rw [loadControlCapsule, value]
      rfl
  · have value : strictJsonLoads host.floats maxJsonBytes c.text = .ok (.dict c.written) :=
      strictJsonLoads_eq_ok.mpr (by rw [read, if_pos (Nat.le_of_not_lt long)]; rfl)
    have decoded : (strictJsonLoads host.floats maxJsonBytes c.text).mapError
        (fun _ => "capsule cannot be decoded: " ++ path) = .ok (.dict c.written) := by
      rw [value]
      rfl
    rw [if_neg long, loadControlCapsule, decoded, ok_bind, JsonValue.asDict_dict, expect_some,
      ok_bind, not_modelShape, executionShape_iff, (hasOneOf_written c).1, (hasOneOf_written c).2]
    cases outcome : c.carriesOutcome with
    | true => rfl
    | false =>
      have listed : ¬ Unlisted c := fun unlisted => by
        rw [unlisted.2.2] at outcome
        cases outcome
      rw [capsuleFromJson_written self, if_neg listed]
      rfl

end CodexFlow.Capsule
