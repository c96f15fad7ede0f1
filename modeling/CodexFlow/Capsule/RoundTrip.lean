import CodexFlow.Capsule.Codec

/-!
# Capsule persistence

A capsule that its constructor accepts is read back as it was written, by value and through its
canonical text, unless it has plugin requirements and an outcome group but no images: the decoder's
list of key sets leaves that combination out.
-/

namespace CodexFlow.Capsule

open Hook (PyStr lit codePoint isSurrogate)
open Git (PurePath)
open Checked
open Programs (AcceptanceMode ProgramOutcomeKind)
open Review (ReasoningEffort)

theorem expect_some {α : Type} (a : α) (error : String) : expect (some a) error = .ok a := rfl

theorem expect_eq_ok {α : Type} {value : Option α} {error : String} {a : α} :
    expect value error = .ok a ↔ value = some a := by
  cases value with
  | none =>
    constructor <;> intro h
    · cases h
    · cases h
  | some b => exact ⟨fun h => congrArg some (Except.ok.inj h), fun h => h ▸ rfl⟩

theorem mapM_map_ok {α β γ : Type} {f : α → β} {g : β → Checked γ} {k : α → γ}
    (h : ∀ a, g (f a) = .ok (k a)) (l : List α) : (l.map f).mapM g = .ok (l.map k) := by
  induction l with
  | nil => rfl
  | cons a l ih =>
    rw [List.map_cons, List.mapM_cons, h, ih]
    rfl

/-! ### The constructor -/

section Construct

variable {host : Host} {c c' : ExecutionCapsule host.floats}

/-- What the constructor accepts: the roots resolve, and every check passes. -/
theorem construct_eq_ok (h : c.construct host = .ok c') :
    (c.capsuleVersion = 2 ∨ c.capsuleVersion = 3) ∧
      host.resolve c.repositoryRoot = some c'.repositoryRoot ∧
      host.resolve c.workspacePath = some c'.workspacePath ∧
      c' = { c with repositoryRoot := c'.repositoryRoot, workspacePath := c'.workspacePath } ∧
      c'.check host = .ok () := by
  simp only [ExecutionCapsule.construct, steps_ok, expect_eq_ok] at h
  obtain ⟨version, root, hroot, workspace, hworkspace, _, checked, rfl⟩ := h
  exact ⟨version, hroot, hworkspace, rfl, checked⟩

/-- A capsule that the constructor has made passes it unchanged. -/
theorem construct_self (h : c.construct host = .ok c') : c'.construct host = .ok c' := by
  obtain ⟨version, root, workspace, eq, checked⟩ := construct_eq_ok h
  have version' : c'.capsuleVersion = 2 ∨ c'.capsuleVersion = 3 := by
    rw [eq]
    exact version
  simp only [ExecutionCapsule.construct, steps_ok, expect_eq_ok]
  exact ⟨version', _, host.resolve_resolved _ _ root, _, host.resolve_resolved _ _ workspace, (),
    checked, rfl⟩

theorem commit_artifacts (h : c.check host = .ok ()) (commit : c.outcomeKind = .commit) :
    c.runtimeArtifactPaths = [] ∧ c.runtimeArtifactMaxFiles = none ∧
      c.runtimeArtifactMaxBytes = none := by
  simp only [ExecutionCapsule.check, checks_ok] at h
  obtain ⟨_, -, -, -, -, -, -, -, _, -, -, _, artifacts, -⟩ := h
  simpa [ExecutionCapsule.checkArtifacts, commit] using artifacts

theorem criteria_hex (h : c.check host = .ok ()) :
    c.acceptanceCriteriaSha256.all (isHex 64) = true := by
  simp only [ExecutionCapsule.check, checks_ok] at h
  obtain ⟨_, -, -, -, -, -, -, -, _, -, -, _, -, _, -, -, -, criteria⟩ := h
  exact criteria

end Construct

/-! ### Written fields -/

section Fields

variable {floats : Floats} (c : ExecutionCapsule floats)

def ExecutionCapsule.written : DictValue floats := .ofFields c.fields c.fields_nodup

variable {c} in
theorem mem_fields {field : PyStr × JsonValue floats} :
    field ∈ c.fields ↔ field ∈ c.baseFields ∨ field ∈ c.pluginFields ∨ field ∈ c.imageFields ∨
      field ∈ c.criteriaFields ∨ field ∈ c.outcomeFields := by
  simp only [ExecutionCapsule.fields, List.mem_append, or_assoc]

theorem get?_written {key : PyStr} {value : JsonValue floats} (h : (key, value) ∈ c.fields) :
    c.written.get? key = some value := DictValue.get?_ofFields h

theorem get?_base {i : ℕ} {key : PyStr} {value : JsonValue floats}
    (h : c.baseFields[i]? = some (key, value)) : c.written.get? key = some value :=
  get?_written c (mem_fields.mpr (.inl (List.mem_of_getElem? h)))

theorem get_base {i : ℕ} {key : PyStr} {value : JsonValue floats}
    (h : c.baseFields[i]? = some (key, value)) : c.written.get key = value := by
  rw [DictValue.get, get?_base c h, Option.getD_some]

theorem requireString_base {i : ℕ} {field : String} {text : PyStr}
    (h : c.baseFields[i]? = some (lit field, .str text)) :
    requireString c.written field = .ok text := by
  rw [requireString, get_base c h, JsonValue.asStr_str, expect_some]

theorem get?_absent {key : PyStr}
    (h : key ∉ writtenKeys (c.pluginRequirements ≠ []) (c.localImagePaths ≠ [])
      c.acceptanceCriteriaSha256.isSome c.carriesOutcome) : c.written.get? key = none :=
  DictValue.get?_ofFields_none (by rwa [ExecutionCapsule.fields_keys])

theorem get_plugins :
    (c.written.get? (lit "plugin_requirements")).getD (.list []) =
      .list (c.pluginRequirements.map .dict) := by
  by_cases some : c.pluginRequirements = []
  · have absent : ∀ images criteria outcome, lit "plugin_requirements" ∉
        writtenKeys false images criteria outcome := by decide +kernel
    rw [get?_absent c (by simpa [some] using absent _ _ _), some]
    rfl
  · have mem : (lit "plugin_requirements", .list (c.pluginRequirements.map .dict)) ∈
        c.pluginFields := by simp [ExecutionCapsule.pluginFields, some]
    rw [get?_written c (mem_fields.mpr (.inr (.inl mem))), Option.getD_some]

theorem get_images :
    (c.written.get? (lit "local_image_paths")).getD (.list []) = texts c.localImagePaths := by
  by_cases some : c.localImagePaths = []
  · have absent : ∀ plugins criteria outcome, lit "local_image_paths" ∉
        writtenKeys plugins false criteria outcome := by decide
    rw [get?_absent c (by simpa [some] using absent _ _ _), some]
    rfl
  · have mem : (lit "local_image_paths", texts c.localImagePaths) ∈ c.imageFields := by
      simp [ExecutionCapsule.imageFields, some]
    rw [get?_written c (mem_fields.mpr (.inr (.inr (.inl mem)))), Option.getD_some]

theorem get_criteria :
    c.written.get (lit "acceptance_criteria_sha256") =
      match c.acceptanceCriteriaSha256 with
      | none => .null
      | some digest => .str digest := by
  cases h : c.acceptanceCriteriaSha256 with
  | none =>
    have absent : ∀ plugins images outcome, lit "acceptance_criteria_sha256" ∉
        writtenKeys plugins images false outcome := by decide
    rw [DictValue.get, get?_absent c (by simpa [h] using absent _ _ _)]
    rfl
  | some digest =>
    have mem : (lit "acceptance_criteria_sha256", .str digest) ∈ c.criteriaFields := by
      simp [ExecutionCapsule.criteriaFields, h]
    rw [DictValue.get, get?_written c (mem_fields.mpr (.inr (.inr (.inr (.inl mem))))),
      Option.getD_some]

/-- The outcome group, or what stands for it where it is left out. -/
theorem get_outcome {i : ℕ} {key : PyStr} {value : JsonValue floats} {default : JsonValue floats}
    (isKey : outcomeKeys[i]? = some key)
    (present : c.carriesOutcome = true → c.outcomeFields[i]? = some (key, value))
    (left : c.carriesOutcome = false → value = default) :
    (c.written.get? key).getD default = value := by
  cases carries : c.carriesOutcome with
  | false =>
    have absent : ∀ plugins images criteria, ∀ key ∈ outcomeKeys,
        key ∉ writtenKeys plugins images criteria false := by decide
    rw [get?_absent c (by
      rw [carries]
      exact absent _ _ _ key (List.mem_of_getElem? isKey)), left carries, Option.getD_none]
  | true =>
    have mem := List.mem_of_getElem? (present carries)
    rw [get?_written c (mem_fields.mpr (.inr (.inr (.inr (.inr mem))))), Option.getD_some]

end Fields

/-! ### Nested records -/

section Nested

variable {floats : Floats}

theorem asStrings_texts (values : List PyStr) :
    (texts values : JsonValue floats).asStrings = some values := JsonValue.asStrings_list values

theorem requireEnum_value {α : Type} [StrEnum α] (a : α) :
    requireEnum α (StrEnum.value a) = .ok a := by
  rw [requireEnum, StrEnum.ofValue_value, expect_some]

theorem limitOf_optionalInt (n : Option ℤ) (label : String) :
    limitOf (optionalInt n : JsonValue floats) label = .ok n := by
  cases n <;> rfl

theorem identifiers (ids : List Identifier) (label : String) :
    (ids.map (·.val)).mapM (Identifier.new label) = .ok ids := by
  rw [mapM_map_ok (Identifier.new_val label), List.map_id']

theorem get_ofFields {fields : List (PyStr × JsonValue floats)}
    {nodup : (fields.map (·.1)).Nodup} {i : ℕ} {key : PyStr} {value : JsonValue floats}
    (h : fields[i]? = some (key, value)) :
    (DictValue.ofFields fields nodup).get key = value := by
  rw [DictValue.get, DictValue.get?_ofFields (List.mem_of_getElem? h), Option.getD_some]

theorem gate_fromJson (gate : ProgramApprovalGate) :
    ProgramApprovalGate.fromJson (gate.toJson : DictValue floats) = .ok gate := by
  have keys : (gate.toJson : DictValue floats).keysAre [lit "gate_id",
      lit "prerequisite_milestone_ids", lit "protected_milestone_ids",
      lit "scope_description"] = true := by
    have written : (gate.fields : List (PyStr × JsonValue floats)).map (·.1) = [lit "gate_id",
      lit "prerequisite_milestone_ids", lit "protected_milestone_ids", lit "scope_description"] :=
      rfl
    rw [ProgramApprovalGate.toJson, DictValue.keysAre_ofFields, written]
    decide
  have gateId : (gate.toJson : DictValue floats).get (lit "gate_id") = .str gate.gateId :=
    get_ofFields (i := 0) rfl
  have prerequisites : (gate.toJson : DictValue floats).get (lit "prerequisite_milestone_ids") =
      texts (gate.prerequisiteMilestoneIds.map (·.val)) := get_ofFields (i := 1) rfl
  have protected_ : (gate.toJson : DictValue floats).get (lit "protected_milestone_ids") =
      texts (gate.protectedMilestoneIds.map (·.val)) := get_ofFields (i := 2) rfl
  have scope : (gate.toJson : DictValue floats).get (lit "scope_description") =
      .str gate.scopeDescription := get_ofFields (i := 3) rfl
  rw [ProgramApprovalGate.fromJson, ensure_of keys, prerequisites, protected_, gateId, scope]
  simp only [ok_bind, asStrings_texts, JsonValue.asStr_str, expect_some, identifiers]
  exact ProgramApprovalGate.new_self gate

end Nested

/-! ### Reading what is written -/

section Reading

variable {host : Host} {c : ExecutionCapsule host.floats}

/-- The optional groups that the key sets of the decoder leave out together. -/
def Unlisted {floats : Floats} (c : ExecutionCapsule floats) : Prop :=
  c.pluginRequirements ≠ [] ∧ c.localImagePaths = [] ∧ c.carriesOutcome = true

instance {floats : Floats} (c : ExecutionCapsule floats) : Decidable (Unlisted c) :=
  inferInstanceAs (Decidable (_ ∧ _ ∧ _))

/-- The decoder accepts the keys of every capsule but the unlisted ones. -/
theorem accepted_iff {floats : Floats} (c : ExecutionCapsule floats) :
    (acceptedKeys.any fun keys => c.written.keysAre (expectedKeys ++ keys)) = true ↔
      ¬ Unlisted c := by
  have table : ∀ plugins images criteria outcome,
      (acceptedKeys.any fun keys =>
        (writtenKeys plugins images criteria outcome).all (· ∈ expectedKeys ++ keys) &&
          (expectedKeys ++ keys).all (· ∈ writtenKeys plugins images criteria outcome)) =
        !(plugins && !images && outcome) := by decide +kernel
  simp only [ExecutionCapsule.written, DictValue.keysAre_ofFields, ExecutionCapsule.fields_keys]
  rw [table]
  simp [Unlisted]
  tauto

theorem optional_digest {digest : Option PyStr} {value : JsonValue host.floats}
    (eq : value = match digest with | none => .null | some digest => .str digest) :
    value.asStr = digest ∧ (digest.all (isHex 64) = true →
      (value.isNull || value.asStr.any (isHex 64)) = true) := by
  subst eq
  cases digest with
  | none => exact ⟨rfl, fun _ => rfl⟩
  | some digest => exact ⟨rfl, fun h => Bool.or_eq_true_iff.mpr (.inr (by simpa using h))⟩

theorem readFields_written (checked : c.check host = .ok ()) :
    readFields host c.written = .ok { c with
      repositoryRoot := .new c.repositoryRoot.asPosix,
      workspacePath := .new c.workspacePath.asPosix } := by
  have version : c.written.get (lit "capsule_version") = .int c.capsuleVersion :=
    get_base c (i := 0) rfl
  have validation : c.written.get (lit "validation") = .dict c.validation.toJson :=
    get_base c (i := 11) rfl
  have mutable : c.written.get (lit "mutable_paths") = texts c.mutablePaths :=
    get_base c (i := 9) rfl
  have protected_ : c.written.get (lit "protected_paths") = texts c.protectedPaths :=
    get_base c (i := 10) rfl
  have schema : c.written.get (lit "output_schema") = .dict c.outputSchema :=
    get_base c (i := 15) rfl
  have modes : (c.written.get? (lit "acceptance_modes")).getD
      (.list [enumText AcceptanceMode.objective]) = .list (c.acceptanceModes.map enumText) := by
    rw [get?_base c (i := 17) rfl]
    rfl
  have argv : c.validation.toJson.get (lit "argv") = texts c.validation.argv :=
    get_ofFields (i := 0) rfl
  have timeout : (c.validation.toJson.get (lit "timeout_seconds")).asFloat =
      some c.validation.timeoutSeconds := by
    rw [show c.validation.toJson.get (lit "timeout_seconds") = _ from get_ofFields (i := 1) rfl]
    rfl
  have spec : (c.validation.toJson).keysAre [lit "argv", lit "timeout_seconds"] = true := by
    have written : c.validation.fields.map (·.1) = [lit "argv", lit "timeout_seconds"] := rfl
    rw [ValidationSpec.toJson, DictValue.keysAre_ofFields, written]
    decide
  have validation' : (c.written.get (lit "validation")).asDict.filter (fun value =>
      value.keysAre [lit "argv", lit "timeout_seconds"]) = some c.validation.toJson := by
    rw [validation, JsonValue.asDict_dict, Option.filter_some, if_pos spec]
  obtain ⟨digest, isDigest⟩ := optional_digest (get_criteria c)
  have isDigest := isDigest (criteria_hex checked)
  rw [digest] at isDigest
  have commit : c.carriesOutcome = false →
      c.outcomeKind = .commit ∧ c.integrationMode = .git ∧ c.approvalGates = [] := by
    simp [ExecutionCapsule.carriesOutcome, and_assoc]
  have artifacts := fun h => commit_artifacts checked (commit h).1
  have outcome : (c.written.get? (lit "outcome_kind")).getD
      (enumText ProgramOutcomeKind.commit) = enumText c.outcomeKind :=
    get_outcome c (i := 0) rfl (fun h => by rw [ExecutionCapsule.outcomeFields, if_pos h]; rfl)
      fun h => by rw [(commit h).1]
  have integration : (c.written.get? (lit "integration_mode")).getD
      (enumText ProgramIntegrationMode.git) = enumText c.integrationMode :=
    get_outcome c (i := 1) rfl (fun h => by rw [ExecutionCapsule.outcomeFields, if_pos h]; rfl)
      fun h => by rw [(commit h).2.1]
  have paths : (c.written.get? (lit "runtime_artifact_paths")).getD (.list []) =
      texts c.runtimeArtifactPaths :=
    get_outcome c (i := 2) rfl (fun h => by rw [ExecutionCapsule.outcomeFields, if_pos h]; rfl)
      fun h => by rw [(artifacts h).1]; rfl
  have maxFiles : c.written.get (lit "runtime_artifact_max_files") =
      optionalInt c.runtimeArtifactMaxFiles :=
    get_outcome c (i := 3) rfl (fun h => by rw [ExecutionCapsule.outcomeFields, if_pos h]; rfl)
      fun h => by rw [(artifacts h).2.1]; rfl
  have maxBytes : c.written.get (lit "runtime_artifact_max_bytes") =
      optionalInt c.runtimeArtifactMaxBytes :=
    get_outcome c (i := 4) rfl (fun h => by rw [ExecutionCapsule.outcomeFields, if_pos h]; rfl)
      fun h => by rw [(artifacts h).2.2]; rfl
  have gates : (c.written.get? (lit "approval_gates")).getD (.list []) =
      .list (c.approvalGates.map fun gate => .dict gate.toJson) :=
    get_outcome c (i := 5) rfl (fun h => by rw [ExecutionCapsule.outcomeFields, if_pos h]; rfl)
      fun h => by rw [(commit h).2.2]; rfl
  have gateDicts : (JsonValue.list (c.approvalGates.map fun gate =>
      JsonValue.dict (gate.toJson : DictValue host.floats))).asDicts =
        some (c.approvalGates.map ProgramApprovalGate.toJson) := by
    rw [← JsonValue.asDicts_list, List.map_map]
    rfl
  have modeTexts : (JsonValue.list (c.acceptanceModes.map enumText) :
      JsonValue host.floats).asStrings = some (c.acceptanceModes.map StrEnum.value) := by
    rw [← JsonValue.asStrings_list, List.map_map]
    rfl
  have gateValues : (c.approvalGates.map ProgramApprovalGate.toJson :
      List (DictValue host.floats)).mapM ProgramApprovalGate.fromJson = .ok c.approvalGates := by
    rw [mapM_map_ok gate_fromJson, List.map_id']
  have modeValues : (c.acceptanceModes.map StrEnum.value).mapM (requireEnum AcceptanceMode) =
      .ok c.acceptanceModes := by
    rw [mapM_map_ok requireEnum_value, List.map_id']
  have enums : ((enumText c.outcomeKind : JsonValue host.floats).asStr.bind StrEnum.ofValue) =
      some c.outcomeKind ∧
      ((enumText c.integrationMode : JsonValue host.floats).asStr.bind StrEnum.ofValue) =
        some c.integrationMode :=
    ⟨StrEnum.ofValue_value c.outcomeKind, StrEnum.ofValue_value c.integrationMode⟩
  rw [readFields, version, validation', mutable, protected_, schema, modes, outcome, integration,
    paths, maxFiles, maxBytes, gates, get_plugins, get_images,
    requireString_base c (i := 3) rfl, requireString_base c (i := 5) rfl,
    requireString_base c (i := 6) rfl, requireString_base c (i := 7) rfl,
    requireString_base c (i := 8) rfl, requireString_base c (i := 12) rfl,
    requireString_base c (i := 14) rfl, requireString_base c (i := 4) rfl,
    requireString_base c (i := 13) rfl, requireString_base c (i := 16) rfl,
    requireString_base c (i := 1) rfl, requireString_base c (i := 2) rfl]
  simp only [JsonValue.asInt_int, JsonValue.asDict_dict, expect_some, ok_bind, argv, timeout,
    asStrings_texts, JsonValue.asDicts_list, gateDicts, modeTexts, gateValues, modeValues,
    Identifier.new_val, requireEnum_value, limitOf_optionalInt, enums,
    digest, ensure_of isDigest, ValidationSpec.new_self]
  rfl

theorem capsuleFromJson_written (self : c.construct host = .ok c) :
    capsuleFromJson host c.written =
      if Unlisted c then .error "capsule keys do not match the closed execution schema"
      else .ok c := by
  obtain ⟨-, root, workspace, -, checked⟩ := construct_eq_ok self
  split_ifs with unlisted
  · rw [capsuleFromJson, ensure, if_neg fun accepted => (accepted_iff c).mp accepted unlisted]
    rfl
  · rw [capsuleFromJson, ensure_of ((accepted_iff c).mpr unlisted), ok_bind,
      readFields_written checked, ok_bind, host.resolved_new _ _ root,
      host.resolved_new _ _ workspace]
    exact self

theorem capsuleJson_self (self : c.construct host = .ok c) :
    capsuleJson host c = .ok c.written := by
  rw [capsuleJson, ExecutionCapsule.canonicalize, self]
  rfl

end Reading

end CodexFlow.Capsule
