import CodexFlow.Hook.Json

/-!
# The create_thread payload

Validation of the advertised target variants, the one safe repair (a top-level `projectId` moved
into a project target), and the fingerprint that ties a `PostToolUse` result to the attempt its
`PreToolUse` event recorded. A `TargetContext` can only be a supported variant.
-/

namespace CodexFlow.Hook

def maxAttempts : ℕ := 32
def maxSeenSessions : ℕ := 16
def maxTitle : ℕ := 160
def maxTitleInput : ℕ := 4096
def maxId : ℕ := 256
def maxModel : ℕ := 128
def maxThinking : ℕ := 32
def maxPromptForDigest : ℕ := 32 * 1024
def maxDirectory : ℕ := 160
def maxJsonText : ℕ := 256 * 1024
def maxCandidates : ℕ := 256
def maxRetainedMatches : ℕ := 16

/-- What the hook takes from the Python library: the digest, the JSON decoder (`none` when
`json.loads` raises) and the Unicode tables. -/
structure Platform where
  sha256 : List UInt8 → PyStr
  loads : PyStr → Option Json
  normalizeNFC : PyStr → PyStr
  isSpace : CodePoint → Bool
  /-- `unicodedata.category(character).startswith("C")` -/
  isControl : CodePoint → Bool

/-- `PayloadError`: the native payload is malformed or internally contradictory. -/
structure PayloadError where
  message : PyStr
deriving DecidableEq

abbrev Checked (α : Type) := Except PayloadError α

def refuse {α : Type} (message : PyStr) : Checked α := .error ⟨message⟩

/-- `if not condition: raise PayloadError(message)`. -/
def require (condition : Bool) (message : PyStr) : Checked Unit :=
  if condition then .ok () else refuse message

/-- `d = value` when `isinstance(value, dict)`, else the error. -/
def requireDict (value : Json) (message : PyStr) : Checked Dict :=
  match value.asDict with
  | some fields => .ok fields
  | none => refuse message

def requireSome {α : Type} (value : Option α) (message : PyStr) : Checked α :=
  match value with
  | some a => .ok a
  | none => refuse message

def bounded (value : Json) (limit : ℕ) : Option PyStr :=
  match value with
  | .str s => if s = [] || limit < s.length then none else some s
  | _ => none

def nonemptyText (value : Json) : Bool :=
  match value with
  | .str s => s ≠ []
  | _ => false

def boundedOptional (value : Json) (limit : ℕ) : Option PyStr :=
  match value with
  | .str s => if limit < s.length then none else some s
  | _ => none

def validId (p : Platform) (value : Json) : Option PyStr :=
  match bounded value maxId with
  | none => none
  | some candidate =>
    if candidate.any p.isSpace then none
    else if candidate.any p.isControl then none
    else some candidate

/-- The exact bounded session identity required for state access. -/
def eventSessionId (event : Dict) : Option PyStr := bounded (event.get (lit "session_id")) maxId

/-- One bounded JSON string layer, decoded without recursion. -/
def decodeJsonString (p : Platform) (value : Json) : Json :=
  match value with
  | .str s => if s = [] || maxJsonText < s.length then .null else (p.loads s).getD .null
  | _ => value

/-! ### Target variants -/

inductive OnMissing where
  | error
  | createBranch
deriving DecidableEq

inductive StartingState where
  | workingTree
  | branch (branchName : PyStr) (onMissing : Option OnMissing)
deriving DecidableEq

inductive Environment where
  | local
  | worktree (startingState : Option StartingState)
deriving DecidableEq

/-- The complete, bounded identity of an advertised target variant. -/
inductive TargetContext where
  | project (projectId : PyStr) (environment : Environment)
  | projectless (directoryName : Option PyStr)
  | chatgptWorkCloud (projectId : Option PyStr)
deriving DecidableEq

def normaliseOnMissing (value : Option Json) : Checked (Option OnMissing) :=
  match value with
  | none => .ok none
  | some value =>
    if value.isStr (lit "error") then .ok (some .error)
    else if value.isStr (lit "create-branch") then .ok (some .createBranch)
    else refuse (lit "branch startingState.onMissing is invalid")

def normaliseStartingState (value : Json) : Checked StartingState := do
  let fields ← requireDict value (lit "target.environment.startingState must be an object")
  let stateType ← requireSome (bounded (fields.get (lit "type")) 64)
    (lit "target.environment.startingState.type must be valid")
  if stateType = lit "working-tree" then do
    require (fields.keysAre [lit "type"])
      (lit "working-tree startingState contains unsupported fields")
    return .workingTree
  else if stateType = lit "branch" then do
    require (fields.keysWithin [lit "type", lit "branchName", lit "onMissing"])
      (lit "branch startingState contains unsupported fields")
    let branchName ← requireSome (bounded (fields.get (lit "branchName")) maxId)
      (lit "branch startingState requires branchName")
    let onMissing ← normaliseOnMissing (fields.get? (lit "onMissing"))
    return .branch branchName onMissing
  else refuse (lit "unsupported startingState.type: " ++ stateType)

def normaliseEnvironment (value : Json) : Checked Environment := do
  let fields ← requireDict value (lit "target.environment must be an object")
  let environmentType ← requireSome (bounded (fields.get (lit "type")) 64)
    (lit "target.environment.type must be a non-empty string")
  if environmentType = lit "local" then do
    require (fields.keysAre [lit "type"]) (lit "local environment contains unsupported fields")
    return .local
  else if environmentType = lit "worktree" then do
    require (fields.keysWithin [lit "type", lit "startingState"])
      (lit "worktree environment contains unsupported fields")
    match fields.get? (lit "startingState") with
    | none => return .worktree none
    | some startingState => do
      let state ← normaliseStartingState startingState
      return .worktree (some state)
  else refuse (lit "unsupported target.environment.type: " ++ environmentType)

/-- An absent key is fine; a present one must be bounded text. -/
def optionalField (value : Option Json) (limit : ℕ) (message : PyStr) : Checked (Option PyStr) :=
  match value with
  | none => .ok none
  | some value => do
    let text ← requireSome (bounded value limit) message
    return some text

def targetContext (target : Json) : Checked TargetContext := do
  let fields ← requireDict target (lit "target must be an object")
  let targetType ← requireSome (bounded (fields.get (lit "type")) 64)
    (lit "target.type must be a non-empty string")
  if targetType = lit "project" then do
    require (fields.keysAre [lit "type", lit "projectId", lit "environment"])
      (lit "project target must contain projectId and environment only")
    let projectId ← requireSome (bounded (fields.get (lit "projectId")) maxId)
      (lit "project target requires target.projectId")
    let environment ← normaliseEnvironment (fields.get (lit "environment"))
    return .project projectId environment
  else if targetType = lit "projectless" then do
    require (fields.keysWithin [lit "type", lit "directoryName"])
      (lit "projectless target contains unsupported fields")
    let directory ← optionalField (fields.get? (lit "directoryName")) maxDirectory
      (lit "projectless target directoryName is malformed")
    return .projectless directory
  else if targetType = lit "chatgptWorkCloud" then do
    require (fields.keysWithin [lit "type", lit "projectId"])
      (lit "chatgptWorkCloud target contains unsupported fields")
    let projectId ← optionalField (fields.get? (lit "projectId")) maxId
      (lit "cloud target projectId is malformed")
    return .chatgptWorkCloud projectId
  else refuse (lit "unsupported target.type: " ++ targetType)

/-! ### Titles -/

structure TitleIdentity where
  length : ℕ
  digest : PyStr
  normalisedDigest : PyStr
deriving DecidableEq

/-- `s.strip()`. -/
def strip (p : Platform) (s : PyStr) : PyStr :=
  ((s.dropWhile p.isSpace).reverse.dropWhile p.isSpace).reverse

/-- `value` is `none` when the title key is absent. -/
def titleIdentity (p : Platform) (value : Option Json) : Checked (Option TitleIdentity) :=
  match value with
  | none => .ok none
  | some (.str s) => do
    require (s.length ≤ maxTitleInput) (lit "title must be a bounded string")
    return some
      { length := s.length
        digest := p.sha256 (encodeSurrogatePass s)
        normalisedDigest := p.sha256 (encodeSurrogatePass (strip p (p.normalizeNFC s))) }
  | some _ => refuse (lit "title must be a bounded string")

/-! ### Repair and fingerprint -/

/-- The top-level `projectId` moved into a project target; `true` when the payload changed. -/
def repairProjectId (repaired : Dict) : Checked (Dict × Bool) :=
  match repaired.get? (lit "projectId") with
  | none => .ok (repaired, false)
  | some topLevelProject => do
    let projectId ← requireSome (bounded topLevelProject maxId)
      (lit "top-level projectId must be a non-empty string")
    let target ← requireSome (repaired.get? (lit "target"))
      (lit "top-level projectId cannot manufacture a project target without environment")
    let target ← requireDict target (lit "top-level projectId conflicts with malformed target")
    require ((target.get (lit "type")).isStr (lit "project"))
      (lit "top-level projectId conflicts with non-project target")
    match target.get? (lit "projectId") with
    | some nestedProject => do
      let nested ← requireSome (bounded nestedProject maxId)
        (lit "target.projectId must be a non-empty string")
      require (nested = projectId) (lit "top-level and target projectId values conflict")
      return (repaired.del (lit "projectId"), true)
    | none => do
      let target := target.set (lit "projectId") (.str projectId)
      return ((repaired.set (lit "target") (.obj target)).del (lit "projectId"), true)

/-- `_repair_payload`: the repaired payload, whether it changed, and its target context. -/
def repairPayload (p : Platform) (toolInput : Json) : Checked (Dict × Bool × TargetContext) := do
  let input ← requireDict toolInput (lit "create_thread arguments must be an object")
  require (nonemptyText (input.get (lit "prompt")))
    (lit "create_thread.prompt must be a non-empty string")
  let _ ← titleIdentity p (input.get? (lit "title"))
  let (repaired, changed) ← repairProjectId input
  require (repaired.has (lit "target")) (lit "create_thread.target is required")
  let context ← targetContext (repaired.get (lit "target"))
  return (repaired, changed, context)

def promptDigest (p : Platform) (prompt : PyStr) : PyStr :=
  p.sha256 (encodeReplace (prompt.take maxPromptForDigest))

def StartingState.toJson : StartingState → Json
  | .workingTree => .obj [(lit "type", .str (lit "working-tree"))]
  | .branch branchName none =>
    .obj [(lit "type", .str (lit "branch")), (lit "branch_name", .str branchName)]
  | .branch branchName (some .error) =>
    .obj [(lit "type", .str (lit "branch")), (lit "branch_name", .str branchName),
      (lit "on_missing", .str (lit "error"))]
  | .branch branchName (some .createBranch) =>
    .obj [(lit "type", .str (lit "branch")), (lit "branch_name", .str branchName),
      (lit "on_missing", .str (lit "create-branch"))]

def Environment.toJson : Environment → Json
  | .local => .obj [(lit "type", .str (lit "local"))]
  | .worktree none => .obj [(lit "type", .str (lit "worktree"))]
  | .worktree (some state) =>
    .obj [(lit "type", .str (lit "worktree")), (lit "starting_state", state.toJson)]

def optionalText : Option PyStr → Json
  | none => .null
  | some s => .str s

def TargetContext.toJson : TargetContext → Json
  | .project projectId environment =>
    .obj [(lit "type", .str (lit "project")), (lit "project_id", .str projectId),
      (lit "environment", environment.toJson)]
  | .projectless directoryName =>
    .obj [(lit "type", .str (lit "projectless")), (lit "directory_name", optionalText directoryName)]
  | .chatgptWorkCloud projectId =>
    .obj [(lit "type", .str (lit "chatgptWorkCloud")), (lit "project_id", optionalText projectId)]

def TitleIdentity.toJson (t : TitleIdentity) : Json :=
  .obj [(lit "length", .int t.length), (lit "digest", .str t.digest),
    (lit "normalised_digest", .str t.normalisedDigest)]

/-- The first `limit` characters of a string field; anything else reads as the empty text. -/
def textField (input : Dict) (key : PyStr) (limit : ℕ) : PyStr :=
  ((input.get key).asStr.getD []).take limit

/-- `tool_input["prompt"]` of a repaired payload, whose prompt is known to be text. -/
def promptOf (input : Dict) : PyStr := (input.get (lit "prompt")).asStr.getD []

def canonical (p : Platform) (title : Option TitleIdentity) (input : Dict)
    (context : TargetContext) : Json :=
  .obj
    [(lit "title", (title.map TitleIdentity.toJson).getD .null),
      (lit "target", context.toJson),
      (lit "model", .str (textField input (lit "model") maxModel)),
      (lit "thinking", .str (textField input (lit "thinking") maxThinking)),
      (lit "prompt_digest", .str (promptDigest p (promptOf input)))]

def fingerprint (p : Platform) (input : Dict) (context : TargetContext) : Checked PyStr := do
  let title ← titleIdentity p (input.get? (lit "title"))
  return p.sha256 (encodeSurrogatePass (dumps (canonical p title input context)))

end CodexFlow.Hook
