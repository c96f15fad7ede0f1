import CodexFlow.Hook.State

/-!
# Reading tool responses

How a create response is classified, and how a `list_threads` snapshot is matched against the
title and target of an uncertain attempt. An invalid snapshot is kept apart from an empty one:
only the latter may prove that a create was not found.
-/

namespace CodexFlow.Hook

/-! ### Create responses -/

def classifyCreateResponse (p : Platform) (response : Json) :
    AttemptStatus × ResultClassification × Option PyStr :=
  match (decodeJsonString p response).asDict with
  | some fields =>
    if fields.keysAre [lit "threadId"] || fields.keysAre [lit "threadId", lit "hostId"] then
      let threadId := validId p (fields.get (lit "threadId"))
      let hostIsValid := !fields.has (lit "hostId") ||
        (validId p (fields.get (lit "hostId"))).isSome
      if threadId.isSome && hostIsValid then (.confirmed, .confirmed, threadId)
      else (.uncertain, .error, none)
    else if fields.keysAre [lit "clientThreadId"] then
      let clientId := validId p (fields.get (lit "clientThreadId"))
      if clientId.isSome then (.queued, .queued, clientId) else (.uncertain, .error, none)
    else (.uncertain, .error, none)
  | none => (.uncertain, .error, none)

/-! ### Snapshots -/

inductive Snapshot where
  | invalid
  | oversized
  | valid (items : List Json)

def listResponseKeysets : List (List PyStr) :=
  [[lit "threads"], [lit "pinnedThreads", lit "threads"], [lit "items"], [lit "results"]]

/-- The item lists under the given keys, appended to `items`. -/
def collectItems (fields : Dict) : List PyStr → List Json → Snapshot
  | [], items => .valid items
  | key :: keys, items =>
    match fields.get? key with
    | none => collectItems fields keys items
    | some (.arr value) =>
      if maxCandidates < items.length + value.length then .oversized
      else collectItems fields keys (items ++ value)
    | some _ => .invalid

def candidateItems (p : Platform) (response : Json) : Snapshot :=
  match decodeJsonString p response with
  | .arr items => if maxCandidates < items.length then .oversized else .valid items
  | .obj fields =>
    if listResponseKeysets.any (Dict.keysAre fields) then
      collectItems fields [lit "pinnedThreads", lit "threads", lit "items", lit "results"] []
    else .invalid
  | _ => .invalid

/-! ### Matching one candidate -/

/-- The context a candidate's own fields spell out, when it nests no target. -/
def flattenedContext (candidate : Dict) : Option TargetContext :=
  let projectId := candidate.get? (lit "projectId")
  let projectIdAlias := candidate.get? (lit "project_id")
  if projectId.isSome && projectIdAlias.isSome then none
  else
    let projectId := projectId.or projectIdAlias
    match candidate.get? (lit "type") with
    | some (.str targetType) =>
      let typeField := (lit "type", Json.str targetType)
      if targetType = lit "project" then
        match projectId, candidate.get? (lit "environment") with
        | some projectId, some environment =>
          (targetContext (.obj [typeField, (lit "projectId", projectId),
            (lit "environment", environment)])).toOption
        | _, _ => none
      else if targetType = lit "projectless" then
        if projectId.isSome || candidate.has (lit "environment") then none
        else
          (targetContext (.obj (typeField ::
            ((candidate.get? (lit "directoryName")).map (lit "directoryName", ·)).toList))).toOption
      else if targetType = lit "chatgptWorkCloud" then
        if candidate.has (lit "environment") || candidate.has (lit "directoryName") then none
        else
          (targetContext (.obj (typeField ::
            (projectId.map (lit "projectId", ·)).toList))).toOption
      else none
    | _ => none

def candidateContext (candidate : Dict) : Option TargetContext :=
  match candidate.get? (lit "target") with
  | some (.obj target) =>
    if [lit "type", lit "projectId", lit "project_id", lit "environment", lit "directoryName"].any
        candidate.has then none
    else (targetContext (.obj target)).toOption
  | some _ => none
  | none => flattenedContext candidate

inductive TitleMatch where
  | exact
  | normalised
  | unverifiable
  | none
deriving DecidableEq

def candidateTitleMatch (p : Platform) (attempt : Attempt) (candidate : Dict) : TitleMatch :=
  match attempt.titleIdentity with
  | none => .unverifiable
  | some expected =>
    if !candidate.has (lit "title") then .unverifiable
    else
      match titleIdentity p (candidate.get? (lit "title")) with
      | .ok (some actual) =>
        if actual.length = expected.length ∧ actual.digest = expected.digest then .exact
        else if actual.normalisedDigest = expected.normalisedDigest then .normalised
        else .none
      | _ => .unverifiable

/-! ### The verdict -/

/-- The peers matched so far, and how many items could be the same thread; both saturate. -/
structure Tally where
  peers : List PyStr := []
  uncertain : ℕ := 0
deriving DecidableEq

def Tally.addUncertain (t : Tally) : Tally :=
  { t with uncertain := min (t.uncertain + 1) maxRetainedMatches }

def Tally.addPeer (t : Tally) (peerId : PyStr) : Tally :=
  if t.peers.length < maxRetainedMatches then { t with peers := t.peers ++ [peerId] } else t

def matchItem (p : Platform) (attempt : Attempt) (t : Tally) (item : Json) : Tally :=
  match item.asDict with
  | none => t.addUncertain
  | some candidate =>
    let titleMatch := candidateTitleMatch p attempt candidate
    if titleMatch = .none then t
    else
      match candidateContext candidate with
      | none => t.addUncertain
      | some context =>
        if context ≠ attempt.target then t
        else if titleMatch = .exact then
          match validId p (candidate.get (lit "threadId")) with
          | none => t.addUncertain
          | some peerId => t.addPeer peerId
        else t.addUncertain

inductive Verdict where
  | found (peerId : PyStr)
  | notFound
  | ambiguous (reason : ReconciliationClassification)
deriving DecidableEq

def reconcile (p : Platform) (attempt : Attempt) (snapshot : Snapshot) : Verdict :=
  match snapshot with
  | .invalid => .ambiguous .invalidSnapshot
  | .oversized => .ambiguous .oversizedSnapshot
  | .valid items =>
    let t := items.foldl (matchItem p attempt) {}
    match t.peers, t.uncertain with
    | [peerId], 0 => .found peerId
    | [], 0 => if items.isEmpty then .notFound else .ambiguous .ambiguous
    | _, _ => .ambiguous .ambiguous

def Attempt.resolve (a : Attempt) : Verdict → Attempt
  | .found peerId =>
    { a with
      status := .confirmed
      resultClassification := .reconciledFound
      reconciliationClassification := some .found
      peerId := some peerId }
  | .notFound =>
    { a with
      status := .notFound
      resultClassification := .reconciledNotFound
      reconciliationClassification := some .notFound }
  | .ambiguous reason =>
    { a with
      status := .ambiguous
      blocksCreate := true
      resultClassification := .reconciledAmbiguous
      reconciliationClassification := some reason }

end CodexFlow.Hook
