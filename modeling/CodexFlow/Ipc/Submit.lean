import CodexFlow.Contracts.Reviews

/-!
# Submission of a result

What a worker does between its last message and its request: it reads its private capability, reads
the result and parses it as its controller will, and puts the text of the result into a request.
-/

namespace CodexFlow.Ipc

open Hook (PyStr Json lit encodeSurrogatePass isSurrogate)
open Capsule (Floats JsonValue DictValue StrEnum Checked expect expect_eq_ok isHex intText textBytes
  fieldBytes quotedBytes separated sortedKeys ordered_obj_iff)
open Contracts
open Checked

variable {floats : Floats}

/-! ### Private files -/

structure PrivateFile where
  isLink : Bool
  isRegular : Bool
  links : ℕ
  mode : ℕ
  content : Option (List UInt8)

/-- `_read_private_file` -/
def readPrivateFile (file : Option PrivateFile) (maxBytes : ℕ) (requireReadonly : Bool) :
    Checked (List UInt8) := do
  let file ← expect file "worker private input is unavailable"
  ensure (file.isLink = false ∧ file.isRegular = true ∧ file.links = 1 ∧
      (requireReadonly = true → file.mode = 0o400)) "worker private input path is unsafe"
  let raw ← expect file.content "worker private input cannot be read"
  ensure (raw.length ≤ maxBytes) "worker private input exceeds its bound"
  pure raw

/-! ### Capabilities -/

inductive CapabilityKey where
  | version
  | operation
  | dispatchId
  | generation
  | attempt
  | backend
  | workspacePath
  | schemaSha256
  | token
  | socketPath
  | workerRole
  | allowedOperations
  | leafWorkerPolicy
  | effectivePermission
  | nativeProfileSha256
  | nativeCompatibilitySha256
  | pluginRequirements
  | pluginCapabilities
deriving DecidableEq

instance : RecordKeys CapabilityKey where
  all := [.version, .operation, .dispatchId, .generation, .attempt, .backend, .workspacePath,
    .schemaSha256, .token, .socketPath, .workerRole, .allowedOperations, .leafWorkerPolicy,
    .effectivePermission, .nativeProfileSha256, .nativeCompatibilitySha256, .pluginRequirements,
    .pluginCapabilities]
  value
    | .version => lit "version"
    | .operation => lit "operation"
    | .dispatchId => lit "dispatch_id"
    | .generation => lit "generation"
    | .attempt => lit "attempt"
    | .backend => lit "backend"
    | .workspacePath => lit "workspace_path"
    | .schemaSha256 => lit "schema_sha256"
    | .token => lit "token"
    | .socketPath => lit "socket_path"
    | .workerRole => lit "worker_role"
    | .allowedOperations => lit "allowed_operations"
    | .leafWorkerPolicy => lit "leaf_worker_policy"
    | .effectivePermission => lit "effective_permission"
    | .nativeProfileSha256 => lit "native_profile_sha256"
    | .nativeCompatibilitySha256 => lit "native_compatibility_sha256"
    | .pluginRequirements => lit "plugin_requirements"
    | .pluginCapabilities => lit "plugin_capabilities"
  find_value a := by cases a <;> decide
  nodup := by decide

/-- What a worker rests on beside its files: the digest of bytes, and that of the schema of a
reviewer's result. -/
structure WorkerHost where
  floats : Floats
  sha256 : List UInt8 → PyStr
  reviewSchemaSha256 : PyStr

structure PrivateWorkerCapability (floats : Floats) where
  payload : DictValue floats
  pluginRequirements : List (Built PluginRequirement)
  pluginSnapshots : List (Built PluginCapabilitySnapshot)

/-- `LEAF_WORKER_CONFIG_OVERRIDES` -/
def leafWorkerConfigOverrides : List PyStr :=
  [lit "agents.enabled=false", lit "features.multi_agent=false"]

/-- `_leaf_policy` -/
def leafPolicy (capability : DictValue floats) : Bool :=
  (at_ capability CapabilityKey.workerRole).asStr = some (lit "leaf") &&
    (at_ capability CapabilityKey.allowedOperations).asStrings = some [lit "submit_result"] &&
    (at_ capability CapabilityKey.leafWorkerPolicy).asDict.any fun policy =>
      policy.keysAre [lit "agents.enabled", lit "config_overrides", lit "features.multi_agent"] &&
        equalsInt (policy.get (lit "agents.enabled")) 0 &&
        (policy.get (lit "config_overrides")).asStrings = some leafWorkerConfigOverrides &&
        equalsInt (policy.get (lit "features.multi_agent")) 0

theorem sortedKeys_filter {fields : Hook.Dict} (p : PyStr × Json → Bool)
    (h : sortedKeys fields = true) : sortedKeys (fields.filter p) = true := by
  induction fields with
  | nil => rfl
  | cons field fields ih =>
    rw [sortedKeys, Bool.and_eq_true, List.all_eq_true] at h
    rw [List.filter_cons]
    split_ifs
    · rw [sortedKeys, Bool.and_eq_true, List.all_eq_true]
      exact ⟨fun next hnext => h.1 next (List.mem_filter.1 hnext).1, ih h.2⟩
    · exact ih h.2

def without (d : DictValue floats) (key : PyStr) : DictValue floats :=
  ⟨d.val.filter fun field => field.1 ≠ key, by
    obtain ⟨hsorted, hfields⟩ := ordered_obj_iff.1 d.property
    exact ordered_obj_iff.2 ⟨sortedKeys_filter _ hsorted, fun field hmem =>
      hfields field (List.mem_filter.1 hmem).1⟩⟩

/-- One of the raw snapshots, which carries its own digest. -/
def readSnapshot (host : WorkerHost) (value : JsonValue host.floats) :
    Checked (Built PluginCapabilitySnapshot) := do
  let malformed := "worker plugin capability digest is malformed"
  let raw ← expect value.asDict malformed
  let digest ← expect (raw.get (lit "capability_sha256")).asStr malformed
  let snapshot ← PluginCapabilitySnapshot.fromJson (without raw (lit "capability_sha256"))
  let computed ← snapshot.val.capabilityDigest host.floats host.sha256
  ensure (digest = computed) "worker plugin capability digest does not match its snapshot"
  pure snapshot

/-- `_parse_private_plugin_authority` -/
def parsePrivatePluginAuthority (host : WorkerHost) (capability : DictValue host.floats) :
    Checked (List (Built PluginRequirement) × List (Built PluginCapabilitySnapshot)) := do
  let malformed := "worker plugin capability authority is malformed"
  let rawRequirements ← expect (at_ capability CapabilityKey.pluginRequirements).asList malformed
  let rawCapabilities ← expect (at_ capability CapabilityKey.pluginCapabilities).asList malformed
  let requirements ← rawRequirements.mapM fun item => do
    PluginRequirement.fromJson (← expect item.asDict "plugin requirement keys are unsupported")
  let snapshots ← rawCapabilities.mapM (readSnapshot host)
  ensure (snapshots.length = requirements.length ∧
      ∀ pair ∈ requirements.zip snapshots, pair.2.val.satisfies pair.1.val = true)
    "worker plugin capability facts do not satisfy their requirements"
  pure (requirements, snapshots)

def maxCapabilityBytes : ℕ := 8192

/-- `_read_private_capability` -/
def readPrivateCapability (host : WorkerHost) (file : Option PrivateFile) :
    Checked (PrivateWorkerCapability host.floats) := do
  let raw ← readPrivateFile file maxCapabilityBytes true
  let capability ← readObject host.floats maxCapabilityBytes raw
    "capability file root must be an object"
  ensure (hasKeys capability (StrEnum.all : List CapabilityKey) = true ∧
      equalsInt (at_ capability CapabilityKey.version) 1 = true ∧
      (at_ capability CapabilityKey.operation).asStr = some (lit "submit_result"))
    "capability file has an unsupported closed shape"
  ensure (leafPolicy capability) "worker capability is not bound to the leaf-worker policy"
  ensure ((at_ capability CapabilityKey.token).asStr.any (isHex 64)) "capability token is invalid"
  let (pluginRequirements, pluginSnapshots) ← parsePrivatePluginAuthority host capability
  pure { payload := capability, pluginRequirements, pluginSnapshots }

/-! ### Requests -/

/-- `str(value)`, where it may be a digest: that of a list or an object never is. -/
def strOf (value : JsonValue floats) : Option PyStr :=
  match value.val with
  | .null => some (lit "None")
  | .bool true => some (lit "True")
  | .bool false => some (lit "False")
  | .int n => some (intText n)
  | .float literal => some literal
  | .str s => some s
  | _ => none

/-- The parse of the result before it is sent, by the schema of the capability. -/
def parseResult (host : WorkerHost) (capability : DictValue host.floats) (raw : List UInt8) :
    Checked Unit :=
  if strOf (at_ capability CapabilityKey.schemaSha256) = some host.reviewSchemaSha256 then
    (ReviewResult.fromAgentMessage host.floats raw).map fun _ => ()
  else (ModelFacingResult.fromAgentMessage host.floats raw).map fun _ => ()

inductive RequestKey where
  | version
  | operation
  | dispatchId
  | generation
  | attempt
  | backend
  | workspacePath
  | schemaSha256
  | token
  | rawResult
deriving DecidableEq

instance : RecordKeys RequestKey where
  all := [.version, .operation, .dispatchId, .generation, .attempt, .backend, .workspacePath,
    .schemaSha256, .token, .rawResult]
  value
    | .version => lit "version"
    | .operation => lit "operation"
    | .dispatchId => lit "dispatch_id"
    | .generation => lit "generation"
    | .attempt => lit "attempt"
    | .backend => lit "backend"
    | .workspacePath => lit "workspace_path"
    | .schemaSha256 => lit "schema_sha256"
    | .token => lit "token"
    | .rawResult => lit "raw_result"
  find_value a := by cases a <;> decide
  nodup := by decide

/-- The fields around the result. -/
def envelope (capability : DictValue floats) : RequestKey → Option (JsonValue floats)
  | .version => some (.int 1)
  | .operation => some (.str (lit "submit_result"))
  | .dispatchId => some (at_ capability CapabilityKey.dispatchId)
  | .generation => some (at_ capability CapabilityKey.generation)
  | .attempt => some (at_ capability CapabilityKey.attempt)
  | .backend => some (at_ capability CapabilityKey.backend)
  | .workspacePath => some (at_ capability CapabilityKey.workspacePath)
  | .schemaSha256 => some (at_ capability CapabilityKey.schemaSha256)
  | .token => some (at_ capability CapabilityKey.token)
  | .rawResult => none

def requestField (capability : DictValue floats) (text : PyStr) :
    RequestKey → Option (JsonValue floats)
  | .rawResult => some (.str text)
  | key => envelope capability key

/-- The request of `_submit_result`. -/
def submitRequest (capability : DictValue floats) (text : PyStr) : DictValue floats :=
  record (requestField capability text)

def maxResultBytes : ℕ := 65536

/-- `_submit_result`, up to the request that it sends. -/
def buildRequest (host : WorkerHost) (capabilityFile resultFile : Option PrivateFile) :
    Checked (DictValue host.floats) := do
  let binding ← readPrivateCapability host capabilityFile
  let raw ← readPrivateFile resultFile maxResultBytes false
  parseResult host binding.payload raw
  let text ← expect (decodeUtf8 raw) "the result is not UTF-8"
  pure (submitRequest binding.payload text)

/-- The controller's bound on a raw result: `len(payload["raw_result"].encode("utf-8"))`. -/
def harnessAdmits (text : PyStr) : Bool :=
  (encodeUtf8 text).any fun raw => raw.length ≤ maxResultBytes

/-- The bytes of the request without its result, and those of the key of the result. -/
def envelopeBytes (capability : DictValue floats) : ℕ :=
  textBytes (.obj (record (envelope capability)).val) + 1 + (quotedBytes (lit "raw_result") + 1)

/-! ### What is accepted and what is sent -/

theorem readPrivateFile_eq_ok {file : Option PrivateFile} {maxBytes : ℕ} {requireReadonly : Bool}
    {raw : List UInt8} (h : readPrivateFile file maxBytes requireReadonly = .ok raw) :
    raw.length ≤ maxBytes := by
  simp only [readPrivateFile, steps_ok] at h
  obtain ⟨-, -, -, content, -, hlength, rfl⟩ := h
  exact hlength

theorem encodable_capability {host : WorkerHost} {file : Option PrivateFile}
    {capability : PrivateWorkerCapability host.floats}
    (h : readPrivateCapability host file = .ok capability) :
    encodable (.obj capability.payload.val) = true := by
  simp only [readPrivateCapability, steps_ok] at h
  obtain ⟨raw, -, payload, hread, -, -, -, _, -, rfl⟩ := h
  exact (readObject_eq_ok hread).2

theorem decode_of_parseResult {host : WorkerHost} {capability : DictValue host.floats}
    {raw : List UInt8} (h : parseResult host capability raw = .ok ()) :
    ∃ text, decodeUtf8 raw = some text := by
  unfold parseResult at h
  split_ifs at h
  · obtain ⟨result, hresult, -⟩ := map_eq_ok.1 h
    obtain ⟨d, hread, -⟩ := bind_eq_ok.1 hresult
    exact (readObject_eq_ok hread).1
  · obtain ⟨result, hresult, -⟩ := map_eq_ok.1 h
    obtain ⟨d, hread, -⟩ := bind_eq_ok.1 hresult
    exact (readObject_eq_ok hread).1

/-- The request takes the bytes of its envelope and those of the result as a JSON string. -/
theorem textBytes_submitRequest (capability : DictValue floats) (text : PyStr) :
    textBytes (.obj (submitRequest capability text).val) =
      envelopeBytes capability + quotedBytes text := by
  have hitems : items (requestField capability text) =
      items (envelope capability) ++ [(lit "raw_result", .str text)] := rfl
  have hlength : (items (envelope capability)).length = 9 := rfl
  have hlast : [(lit "raw_result", (.str text : JsonValue floats))].map
      (fun item => fieldBytes (item.1, item.2.val)) =
        [quotedBytes (lit "raw_result") + 1 + quotedBytes text] := by
    show [quotedBytes (lit "raw_result") + 1 + textBytes (.str text)] = _
    rw [Capsule.textBytes_str]
  unfold envelopeBytes submitRequest record
  rw [textBytes_ofFields, textBytes_ofFields, hitems, List.map_append, hlast]
  unfold separated
  rw [List.sum_append, List.sum_singleton, List.length_append, List.length_map, hlength,
    List.length_singleton]
  omega

theorem encodable_submitRequest {capability : DictValue floats} {text : PyStr}
    (hcapability : encodable (.obj capability.val) = true) (htext : text.any isSurrogate = false) :
    encodable (.obj (submitRequest capability text).val) = true := by
  refine encodable_record.2 fun key value hvalue => ⟨by cases key <;> decide, ?_⟩
  cases key with
  | version =>
    cases hvalue
    exact (by decide : encodable (.int 1) = true)
  | operation =>
    cases hvalue
    exact (by decide : encodable (.str (lit "submit_result")) = true)
  | rawResult =>
    cases hvalue
    exact (encodable_str text).trans (by rw [htext]; rfl)
  | _ =>
    cases hvalue
    exact encodable_at hcapability _

theorem encodeFrame_iff {d : DictValue floats} (h : encodable (.obj d.val) = true) :
    (∃ frame, encodeFrame d.val = .ok frame) ↔ textBytes (.obj d.val) ≤ maxFrameBytes := by
  have hbytes := (canonicalBytes_iff d.property).2 ⟨h, rfl⟩
  have hlength := length_of_canonicalBytes d.property hbytes
  constructor
  · rintro ⟨frame, hframe⟩
    unfold encodeFrame at hframe
    rw [hbytes] at hframe
    dsimp only at hframe
    split_ifs at hframe with hlarge
    rw [not_or, Nat.not_lt] at hlarge
    exact hlength ▸ hlarge.2
  · intro hfits
    exact ⟨_, encodeFrame_ok hbytes (hlength.trans_le hfits)⟩

/-- A frame takes the request exactly where the envelope and the result, written as a JSON string,
are within its limit. -/
theorem encodeFrame_submitRequest {capability : DictValue floats} {text : PyStr}
    (hcapability : encodable (.obj capability.val) = true) (htext : text.any isSurrogate = false) :
    (∃ frame, encodeFrame (submitRequest capability text).val = .ok frame) ↔
      envelopeBytes capability + quotedBytes text ≤ maxFrameBytes := by
  rw [encodeFrame_iff (encodable_submitRequest hcapability htext), textBytes_submitRequest]

theorem buildRequest_eq {host : WorkerHost} {capabilityFile resultFile : Option PrivateFile}
    {capability : PrivateWorkerCapability host.floats} {raw : List UInt8} {text : PyStr}
    (hcapability : readPrivateCapability host capabilityFile = .ok capability)
    (hraw : readPrivateFile resultFile maxResultBytes false = .ok raw)
    (hparse : parseResult host capability.payload raw = .ok ())
    (htext : decodeUtf8 raw = some text) :
    buildRequest host capabilityFile resultFile = .ok (submitRequest capability.payload text) := by
  unfold buildRequest
  rw [hcapability, ok_bind, hraw, ok_bind, hparse, ok_bind, htext]
  rfl

/-- A capability and a result that the worker accepts make a request; the controller's bound admits
every such result, and a frame takes the request exactly where the envelope and the result, written
as a JSON string, are within the limit of a frame. -/
theorem results_submitted {host : WorkerHost} {capabilityFile resultFile : Option PrivateFile}
    {capability : PrivateWorkerCapability host.floats} {raw : List UInt8}
    (hcapability : readPrivateCapability host capabilityFile = .ok capability)
    (hraw : readPrivateFile resultFile maxResultBytes false = .ok raw)
    (hparse : parseResult host capability.payload raw = .ok ()) :
    ∃ text, decodeUtf8 raw = some text ∧
      buildRequest host capabilityFile resultFile =
        .ok (submitRequest capability.payload text) ∧
      harnessAdmits text = true ∧
      ((∃ frame, encodeFrame (submitRequest capability.payload text).val = .ok frame) ↔
        envelopeBytes capability.payload + quotedBytes text ≤ maxFrameBytes) := by
  obtain ⟨text, htext⟩ := decode_of_parseResult hparse
  have hencode := encodeUtf8_decodeUtf8 htext
  have hclean : text.any isSurrogate = false := (encode_of_utf8Points htext).2
  refine ⟨text, htext, buildRequest_eq hcapability hraw hparse htext, ?_,
    encodeFrame_submitRequest (encodable_capability hcapability) hclean⟩
  unfold harnessAdmits
  rw [hencode]
  exact decide_eq_true (readPrivateFile_eq_ok hraw)

/-! ### A small result and a large one -/

def sampleWorker : WorkerHost where
  floats := Capsule.Host.sample.floats
  sha256 raw := raw.map fun byte => ⟨byte.toNat, by have := byte.toNat_lt; omega⟩
  reviewSchemaSha256 := lit "review"

def samplePolicy : DictValue sampleWorker.floats where
  val := [(lit "agents.enabled", .bool false),
    (lit "config_overrides", .arr (leafWorkerConfigOverrides.map .str)),
    (lit "features.multi_agent", .bool false)]
  property := by decide

def sampleCapability : CapabilityKey → Option (JsonValue sampleWorker.floats)
  | .version => some (.int 1)
  | .operation => some (.str (lit "submit_result"))
  | .dispatchId => some (.str (lit "run/build/executor/1"))
  | .generation => some (.int 1)
  | .attempt => some (.int 1)
  | .backend => some (.str (lit "codex_sdk"))
  | .workspacePath => some (.str (lit "/repository"))
  | .schemaSha256 => some (.str (lit "result"))
  | .token => some (.str (List.replicate 64 (Hook.codePoint 'a')))
  | .socketPath => some (.str (lit "/run/controller.sock"))
  | .workerRole => some (.str (lit "leaf"))
  | .allowedOperations => some (.list [.str (lit "submit_result")])
  | .leafWorkerPolicy => some (.dict samplePolicy)
  | .effectivePermission => some (.str (lit "inherit_native"))
  | .nativeProfileSha256 => some .null
  | .nativeCompatibilitySha256 => some .null
  | .pluginRequirements => some (.list [])
  | .pluginCapabilities => some (.list [])

def privateFile (d : DictValue floats) : PrivateFile where
  isLink := false
  isRegular := true
  links := 1
  mode := 0o400
  content := some (encodeSurrogatePass (Capsule.text (.obj d.val)))

theorem readPrivateFile_privateFile {d : DictValue floats} {maxBytes : ℕ} (requireReadonly : Bool)
    (h : textBytes (.obj d.val) ≤ maxBytes) :
    readPrivateFile (some (privateFile d)) maxBytes requireReadonly =
      .ok (encodeSurrogatePass (Capsule.text (.obj d.val))) := by
  simp only [readPrivateFile, steps_ok, expect_eq_ok]
  exact ⟨_, rfl, ⟨rfl, rfl, rfl, fun _ => rfl⟩, _, rfl, h, rfl⟩

theorem sampleCapability_read :
    readPrivateCapability sampleWorker (some (privateFile (record sampleCapability))) =
      .ok { payload := record sampleCapability, pluginRequirements := [], pluginSnapshots := [] } := by
  have hfields : ∀ key value, sampleCapability key = some value →
      ((StrEnum.value key).any isSurrogate = false ∧ encodable value.val = true) ∧
        fieldBytes (StrEnum.value key, value.val) ≤ 200 := by
    intro key value h
    cases key <;> cases h <;> decide +kernel
  have hencodable := encodable_record.2 fun key value h => (hfields key value h).1
  have hsize := textBytes_record_le fun key value h => (hfields key value h).2
  have hbound : textBytes (.obj (record sampleCapability).val) ≤ maxCapabilityBytes :=
    hsize.trans (by decide)
  have hkeys : hasKeys (record sampleCapability) (StrEnum.all : List CapabilityKey) = true := by
    refine (hasKeys_record _ _).2 fun key => ⟨fun _ => mem_all key, fun _ => ?_⟩
    cases key <;> rfl
  have hleaf : leafPolicy (record sampleCapability) = true := by
    unfold leafPolicy
    rw [at_record, at_record, at_record]
    decide
  have hplugins : parsePrivatePluginAuthority sampleWorker (record sampleCapability) =
      .ok ([], []) := by
    unfold parsePrivatePluginAuthority
    rw [at_record, at_record]
    rfl
  have hread := readObject_writeObject (writeObject_eq_ok.2 ⟨hencodable, rfl⟩) hbound
    "capability file root must be an object"
  simp only [readPrivateCapability, steps_ok]
  refine ⟨_, readPrivateFile_privateFile true hbound, _, hread, ⟨hkeys, ?_, ?_⟩, hleaf, ?_,
    _, hplugins, rfl⟩
  · rw [at_record]
    decide
  · rw [at_record]
    rfl
  · rw [at_record]
    decide

def sampleResult (summary : PyStr) : ResultKey → Option (JsonValue sampleWorker.floats)
  | .schemaVersion => some (.int 1)
  | .status => some (.str (lit "completed"))
  | .summary => some (.str summary)
  | .changedSurfaces => some (.list [])
  | .validations => some (.list [])
  | .durableStatus => some (.str (lit "done"))
  | .nextAction => some .null
  | .blocker => none
  | .runtimeArtifactPaths => none

def sampleRead (summary : PyStr) : ModelFacingResult where
  schemaVersion := 1
  status := .completed
  summary := summary
  changedSurfaces := []
  validations := []
  durableStatus := lit "done"

theorem sampleResult_read {summary : PyStr} (h : isText maxText summary = true) :
    ∃ r, ModelFacingResult.fromJson (record (sampleResult summary)) = .ok r := by
  have hexpected : hasKeys (record (sampleResult summary)) ModelFacingResult.expectedKeys = true :=
    (hasKeys_record _ _).2 fun key => by cases key <;> simp [sampleResult,
      ModelFacingResult.expectedKeys]
  have hkeys : (ModelFacingResult.acceptedShapes (.int 1 : JsonValue sampleWorker.floats)).any
      (hasKeys (record (sampleResult summary)) ·) = true :=
    List.any_eq_true.2 ⟨_, List.mem_cons_self, hexpected⟩
  have hdone : isText 128 (lit "done") = true := by decide
  have hcheck : (sampleRead summary).check = .ok () := by
    simp only [ModelFacingResult.check, checks_ok, checkText_eq_ok]
    exact ⟨.inl rfl, h, hdone, (), rfl, (), rfl, Nat.zero_le _, fun hpaths => Bool.noConfusion hpaths.2,
      rfl⟩
  have hnew := PostInit.ofCheck_eq_ok.2 ⟨hcheck, rfl⟩
  refine ⟨⟨sampleRead summary, hnew⟩, ?_⟩
  simp only [ModelFacingResult.fromJson, bind_eq_ok, ensure_eq_ok, at_record]
  exact ⟨(), hkeys, _, rfl, _, rfl, _, rfl, _, rfl, _, rfl, _, rfl, _, rfl, _, rfl, _, rfl, _, rfl,
    _, rfl, _, rfl, Built.new_eq_ok.2 hnew⟩

theorem textBytes_sampleResult (summary : PyStr) :
    textBytes (.obj (record (sampleResult summary)).val) = 134 + quotedBytes summary := by
  have hsummary : fieldBytes (lit "summary", .str summary) = 10 + quotedBytes summary := by
    have hname : quotedBytes (lit "summary") = 9 := by decide
    unfold fieldBytes
    rw [Capsule.textBytes_str, hname]
  have hsizes : (items (sampleResult summary)).map (fun item => fieldBytes (item.1, item.2.val)) =
      [18, 20, fieldBytes (lit "summary", .str summary), 21, 16, 23, 18] := rfl
  unfold record
  rw [textBytes_ofFields, hsizes, hsummary]
  show 2 + (18 + (20 + (10 + quotedBytes summary + (21 + (16 + (23 + (18 + 0)))))) + 6) = _
  omega

theorem sampleResult_parsed {summary : PyStr} (h : isText maxText summary = true)
    (hclean : summary.any isSurrogate = false) (hsize : 134 + quotedBytes summary ≤ maxResultBytes) :
    decodeUtf8 (encodeSurrogatePass (Capsule.text (.obj (record (sampleResult summary)).val))) =
        some (Capsule.text (.obj (record (sampleResult summary)).val)) ∧
      parseResult sampleWorker (record sampleCapability)
        (encodeSurrogatePass (Capsule.text (.obj (record (sampleResult summary)).val))) = .ok () := by
  have hencodable : encodable (.obj (record (sampleResult summary)).val) = true := by
    refine encodable_record.2 fun key value hvalue => ⟨by cases key <;> decide, ?_⟩
    cases key with
    | summary =>
      cases hvalue
      exact (encodable_str summary).trans (by rw [hclean]; rfl)
    | _ => cases hvalue <;> decide
  have hwrite := writeObject_eq_ok.2 ⟨hencodable, rfl⟩
  have hlength := (textBytes_sampleResult summary).trans_le hsize
  constructor
  · exact decodeUtf8_encodeUtf8 (canonicalBytes_eq_some (expect_eq_ok.1 hwrite)).2
  · obtain ⟨r, hr⟩ := sampleResult_read h
    have hread := readObject_writeObject hwrite hlength
      "raw agentMessage result root must be an object"
    unfold parseResult
    rw [at_record, if_neg (by decide)]
    exact map_eq_ok.2 ⟨r, bind_eq_ok.2 ⟨_, hread, hr⟩, rfl⟩

theorem sampleEnvelope_le : envelopeBytes (record sampleCapability) ≤ 2100 := by
  have hfields : ∀ key value, envelope (record sampleCapability) key = some value →
      fieldBytes (StrEnum.value key, value.val) ≤ 200 := by
    intro key value h
    cases key <;> cases h <;> first
      | decide
      | rw [at_record]
        decide
  have hname : quotedBytes (lit "raw_result") = 12 := by decide
  have hsize := textBytes_record_le hfields
  have hkeys : (StrEnum.all : List RequestKey).length = 10 := rfl
  rw [hkeys] at hsize
  unfold envelopeBytes
  omega

/-- A result without escapes is framed. -/
theorem sampleResult_framed : ∃ text frame,
    buildRequest sampleWorker (some (privateFile (record sampleCapability)))
        (some (privateFile (record (sampleResult (lit "done"))))) =
      .ok (submitRequest (record sampleCapability) text) ∧
    encodeFrame (submitRequest (record sampleCapability) text).val = .ok frame := by
  have hquoted : quotedBytes (lit "done") = 6 := by decide
  have hbound : 134 + quotedBytes (lit "done") ≤ maxResultBytes := by decide
  obtain ⟨hdecode, hparse⟩ := sampleResult_parsed (by decide : isText maxText _ = true)
    (by decide) hbound
  have hraw := readPrivateFile_privateFile false
    ((textBytes_sampleResult (lit "done")).trans_le hbound)
  obtain ⟨text, htext, hbuild, -, hframe⟩ := results_submitted sampleCapability_read hraw hparse
  obtain rfl := Option.some.inj (hdecode.symm.trans htext)
  have henvelope := sampleEnvelope_le
  have hle := quotedBytes_le (Capsule.text (.obj (record (sampleResult (lit "done"))).val))
  have hsize := textBytes_sampleResult (lit "done")
  rw [hquoted] at hsize
  unfold textBytes at hsize
  have hfits : envelopeBytes (record sampleCapability) +
      quotedBytes (Capsule.text (.obj (record (sampleResult (lit "done"))).val)) ≤ 65536 := by omega
  obtain ⟨frame, hframed⟩ := hframe.2 hfits
  exact ⟨_, frame, hbuild, hframed⟩

/-- A summary of quotation marks, each of which is escaped in the result and again in the request. -/
def quotationMarks : PyStr := List.replicate maxText Capsule.quote

theorem quotedBytes_escaped (n : ℕ) :
    quotedBytes ((List.replicate n Capsule.quote).flatMap Capsule.escapeChar) = 2 + 4 * n := by
  induction n with
  | zero => rfl
  | succ n ih =>
    have hone : quotedBytes (Capsule.escapeChar Capsule.quote) = 6 := by decide
    have happend := quotedBytes_append (Capsule.escapeChar Capsule.quote)
      ((List.replicate n Capsule.quote).flatMap Capsule.escapeChar)
    rw [List.replicate_succ, List.flatMap_cons]
    omega

theorem quotationMarks_isText : isText maxText quotationMarks = true := by
  have hspace : Git.isSpace Capsule.quote = false := by decide
  have hstrip : Git.strip quotationMarks = quotationMarks := by
    unfold Git.strip quotationMarks
    simp [hspace]
  have hnul : Git.nul ∉ quotationMarks := by
    intro hmem
    exact absurd (List.eq_of_mem_replicate hmem) (by decide)
  have hsome : quotationMarks ≠ [] := by
    have hone : quotationMarks.length = maxText := List.length_replicate
    exact List.length_pos_iff.1 (hone ▸ by decide)
  have hlength : quotationMarks.length ≤ maxText := (List.length_replicate ..).le
  unfold isText
  rw [hstrip, decide_eq_true hsome, decide_eq_true hlength, decide_eq_true hnul]
  rfl

theorem quotationMarks_long :
    maxFrameBytes < quotedBytes (Capsule.text (.obj (record (sampleResult quotationMarks)).val)) := by
  have hmem : (lit "summary", Json.str quotationMarks) ∈ (record (sampleResult quotationMarks)).val :=
    DictValue.mem_ofFields.2 ⟨(lit "summary", .str quotationMarks),
      mem_items.2 ⟨.summary, rfl, rfl⟩, rfl⟩
  have hescaped : (quotationMarks.flatMap Capsule.escapeChar) <:+: Capsule.text (.str quotationMarks) :=
    ⟨[Capsule.quote], [Capsule.quote], by rw [Capsule.text]; rfl⟩
  have hle := quotedBytes_le_of_infix (hescaped.trans (infix_text hmem))
  have hmarks : quotedBytes (quotationMarks.flatMap Capsule.escapeChar) = 2 + 4 * maxText :=
    quotedBytes_escaped maxText
  have hlimit : maxFrameBytes < 2 + 4 * maxText := by decide
  omega

/-- The worker accepts the result and builds its request, which no frame takes. -/
theorem quotationMarks_refused : ∃ capability raw request,
    readPrivateCapability sampleWorker (some (privateFile (record sampleCapability))) =
      .ok capability ∧
    readPrivateFile (some (privateFile (record (sampleResult quotationMarks)))) maxResultBytes false =
      .ok raw ∧
    parseResult sampleWorker capability.payload raw = .ok () ∧
    buildRequest sampleWorker (some (privateFile (record sampleCapability)))
      (some (privateFile (record (sampleResult quotationMarks)))) = .ok request ∧
    ¬ ∃ frame, encodeFrame request.val = .ok frame := by
  have hquote : quotedBytes quotationMarks = 2 + maxText * 2 := by
    have hone : Capsule.byteLength (Capsule.escapeChar Capsule.quote) = 2 := by decide
    unfold quotationMarks
    rw [quotedBytes_replicate, hone]
  have hclean : quotationMarks.any isSurrogate = false := by
    unfold quotationMarks
    rw [List.any_replicate]
    decide
  have hbound : 134 + quotedBytes quotationMarks ≤ maxResultBytes := by
    rw [hquote]
    decide
  obtain ⟨hdecode, hparse⟩ := sampleResult_parsed quotationMarks_isText hclean hbound
  have hraw := readPrivateFile_privateFile false
    ((textBytes_sampleResult quotationMarks).trans_le hbound)
  have hlong := quotationMarks_long
  refine ⟨_, _, _, sampleCapability_read, hraw, hparse,
    buildRequest_eq sampleCapability_read hraw hparse hdecode, fun hframe => ?_⟩
  have hfits := (encodeFrame_submitRequest (encodable_capability sampleCapability_read)
    (encode_of_utf8Points hdecode).2).1 hframe
  omega

end CodexFlow.Ipc
