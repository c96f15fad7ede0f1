import CodexFlow.Programs.System
import CodexFlow.Capsule.TextSize
import Mathlib

/-!
# The sizes of what a program derives

The event keys, the decision identities and the summaries that the operations of a program write,
and the context that its controller reads, with the bounds that the source puts on their texts.
-/

namespace CodexFlow

namespace Programs

open Checked
open Hook (PyStr Json lit)
open Capsule (textBytes quotedBytes separated decimal byteLength fieldBytes)

/-! ### Values in JSON -/

def jsonText (s : String) : Json := .str (lit s)

def jsonTexts (items : List String) : Json := .arr (items.map jsonText)

def jsonOption (s : Option String) : Json := s.elim .null jsonText

def stringBytes (s : String) : ℕ := quotedBytes (lit s)

def listBytes (items : List String) : ℕ := 2 + separated (items.map stringBytes)

def optionBytes (s : Option String) : ℕ := s.elim 4 stringBytes

@[simp] theorem textBytes_jsonText (s : String) : textBytes (jsonText s) = stringBytes s :=
  Capsule.textBytes_str _

@[simp] theorem textBytes_jsonTexts (items : List String) :
    textBytes (jsonTexts items) = listBytes items := by
  unfold jsonTexts listBytes
  rw [Capsule.textBytes_arr, List.map_map]
  congr 3
  exact funext textBytes_jsonText

@[simp] theorem textBytes_jsonOption (s : Option String) :
    textBytes (jsonOption s) = optionBytes s := by
  cases s with
  | none => rfl
  | some s => exact textBytes_jsonText s

def eventKindValue : Ledger.ProgramEventKind → String
  | .implementationCompleted => "implementation_completed"
  | .reviewCompleted => "review_completed"
  | .integrationCompleted => "integration_completed"
  | .controllerAttention => "controller_attention"
  | .checkpoint => "checkpoint"

def BlockerKind.value : BlockerKind → String
  | external => "external"
  | decision => "decision"
  | execution => "execution"

def BlockerScope.value : BlockerScope → String
  | currentPromotion => "current_promotion"
  | currentRepair => "current_repair"
  | futureMilestone => "future_milestone"
  | wholeProgram => "whole_program"

def CandidateDisposition.value : CandidateDisposition → String
  | verifiedCommit => "verified_commit"
  | preservedDirtyWorkspace => "preserved_dirty_workspace"
  | noCandidate => "no_candidate"

def AcceptanceMode.value : AcceptanceMode → String
  | objective => "objective"
  | visual => "visual"
  | architecture => "architecture"

def ProgramOutcomeKind.value : ProgramOutcomeKind → String
  | commit => "commit"
  | runtimeEvidence => "runtime_evidence"

/-- `ProgramIntegrationMode`, of an outcome. -/
def NodeOutcome.integrationMode : NodeOutcome → String
  | git => "git"
  | alreadyIntegrated .. => "already_integrated"
  | noIntegration => "no_integration"

namespace TypedBlocker

variable (b : TypedBlocker)

def json : Json := .obj
  [(lit "gate_id", jsonText b.gateId),
    (lit "kind", jsonText b.kind.value),
    (lit "promotion_blocking", .bool b.promotionBlocking),
    (lit "required_action", jsonText b.requiredAction),
    (lit "scope", jsonText b.scope.value)]

def bytes : ℕ :=
  70 + stringBytes b.gateId + stringBytes b.kind.value + (if b.promotionBlocking then 4 else 5) +
    stringBytes b.requiredAction + stringBytes b.scope.value

theorem textBytes_json : textBytes b.json = b.bytes := by
  have h₁ : quotedBytes (lit "gate_id") = 9 := rfl
  have h₂ : quotedBytes (lit "kind") = 6 := rfl
  have h₃ : quotedBytes (lit "promotion_blocking") = 20 := rfl
  have h₄ : quotedBytes (lit "required_action") = 17 := rfl
  have h₅ : quotedBytes (lit "scope") = 7 := rfl
  unfold json bytes
  simp only [Capsule.textBytes_obj, List.map_cons, List.map_nil, fieldBytes, separated, h₁, h₂, h₃,
    h₄, h₅, textBytes_jsonText, Capsule.textBytes_bool, List.sum_cons, List.sum_nil,
    List.length_cons, List.length_nil]
  omega

end TypedBlocker

/-! ### Decisions -/

/-- What the summary of a new decision says of its event. -/
inductive Payload where
  | start (eventKey : String) (ready : List String)
  | coalesced (superseded ready : List String)
  | candidate (milestoneId candidateSha : String)
  | terminal (milestoneId : String) (result : ExecutorResult)
  | effectFailed (actionId effectId errorCode : String)

namespace Payload

variable (p : Payload)

def kind : Payload → Ledger.ProgramEventKind
  | start .. | coalesced .. => .checkpoint
  | candidate .. => .implementationCompleted
  | terminal .. | effectFailed .. => .controllerAttention

def key (revision : ℕ) : Payload → String
  | start eventKey _ => eventKey
  | coalesced .. => s!"revision/{revision}/coalesced"
  | candidate milestoneId candidateSha => (candidateEvent milestoneId candidateSha).key
  | terminal milestoneId result => (result.attention milestoneId).key
  | effectFailed actionId _ _ => s!"action-effect/{actionId}/failed"

def json : Payload → Json
  | start _ ready => .obj
    [(lit "ready_milestones", jsonTexts ready),
      (lit "summary", jsonText "program start requested")]
  | coalesced superseded ready => .obj
    [(lit "ready_milestones", jsonTexts ready),
      (lit "summary", jsonText "stale program events coalesced after a revision advance"),
      (lit "superseded_decision_ids", jsonTexts superseded)]
  | candidate milestoneId candidateSha => .obj
    [(lit "candidate_sha", jsonText candidateSha),
      (lit "milestone_id", jsonText milestoneId)]
  | terminal milestoneId result => .obj
    [(lit "blocker", result.terminalFact.blocker.elim .null (·.json)),
      (lit "candidate_disposition", jsonText result.disposition.value),
      (lit "candidate_sha", jsonOption result.candidateSha),
      (lit "dispatch_id", jsonOption (result.dispatchId.map (·.text))),
      (lit "milestone_id", jsonText milestoneId),
      (lit "result_sha256", jsonOption result.resultSha256),
      (lit "terminal_status", jsonText result.terminalStatus.value)]
  | effectFailed actionId effectId errorCode => .obj
    [(lit "action_id", jsonText actionId),
      (lit "effect_id", jsonText effectId),
      (lit "error_code", jsonText errorCode)]

def bytes : Payload → ℕ
  | start _ ready => 57 + listBytes ready
  | coalesced superseded ready => 116 + listBytes ready + listBytes superseded
  | candidate milestoneId candidateSha => 34 + stringBytes candidateSha + stringBytes milestoneId
  | terminal milestoneId result =>
    121 + result.terminalFact.blocker.elim 4 (·.bytes) + stringBytes result.disposition.value +
      optionBytes result.candidateSha + optionBytes (result.dispatchId.map (·.text)) +
      stringBytes milestoneId + optionBytes result.resultSha256 +
      stringBytes result.terminalStatus.value
  | effectFailed actionId effectId errorCode =>
    41 + stringBytes actionId + stringBytes effectId + stringBytes errorCode

theorem textBytes_blocker (b : Option TypedBlocker) :
    textBytes (b.elim .null (·.json)) = b.elim 4 (·.bytes) := by
  cases b with
  | none => rfl
  | some b => exact b.textBytes_json

theorem textBytes_json : textBytes p.json = p.bytes := by
  have hready : quotedBytes (lit "ready_milestones") = 18 := rfl
  have hsummary : quotedBytes (lit "summary") = 9 := rfl
  have hmilestone : quotedBytes (lit "milestone_id") = 14 := rfl
  have hcandidate : quotedBytes (lit "candidate_sha") = 15 := rfl
  cases p with
  | start eventKey ready =>
    have htext : stringBytes "program start requested" = 25 := rfl
    simp only [json, bytes, Capsule.textBytes_obj, List.map_cons, List.map_nil, fieldBytes,
      separated, hready, hsummary, htext, textBytes_jsonText, textBytes_jsonTexts, List.sum_cons,
      List.sum_nil, List.length_cons, List.length_nil]
    omega
  | coalesced superseded ready =>
    have htext : stringBytes "stale program events coalesced after a revision advance" = 57 := rfl
    have hsuperseded : quotedBytes (lit "superseded_decision_ids") = 25 := rfl
    simp only [json, bytes, Capsule.textBytes_obj, List.map_cons, List.map_nil, fieldBytes,
      separated, hready, hsummary, hsuperseded, htext, textBytes_jsonText, textBytes_jsonTexts,
      List.sum_cons, List.sum_nil, List.length_cons, List.length_nil]
    omega
  | candidate milestoneId candidateSha =>
    simp only [json, bytes, Capsule.textBytes_obj, List.map_cons, List.map_nil, fieldBytes,
      separated, hcandidate, hmilestone, textBytes_jsonText, List.sum_cons, List.sum_nil,
      List.length_cons, List.length_nil]
    omega
  | terminal milestoneId result =>
    have hblocker : quotedBytes (lit "blocker") = 9 := rfl
    have hdisposition : quotedBytes (lit "candidate_disposition") = 23 := rfl
    have hdispatch : quotedBytes (lit "dispatch_id") = 13 := rfl
    have hresult : quotedBytes (lit "result_sha256") = 15 := rfl
    have hstatus : quotedBytes (lit "terminal_status") = 17 := rfl
    simp only [json, bytes, Capsule.textBytes_obj, List.map_cons, List.map_nil, fieldBytes,
      separated, hblocker, hdisposition, hcandidate, hdispatch, hmilestone, hresult, hstatus,
      textBytes_blocker, textBytes_jsonText, textBytes_jsonOption, List.sum_cons, List.sum_nil,
      List.length_cons, List.length_nil]
    omega
  | effectFailed actionId effectId errorCode =>
    have haction : quotedBytes (lit "action_id") = 11 := rfl
    have heffect : quotedBytes (lit "effect_id") = 11 := rfl
    have herror : quotedBytes (lit "error_code") = 12 := rfl
    simp only [json, bytes, Capsule.textBytes_obj, List.map_cons, List.map_nil, fieldBytes,
      separated, haction, heffect, herror, textBytes_jsonText, List.sum_cons, List.sum_nil,
      List.length_cons, List.length_nil]
    omega

/-! ### Keys -/

/-- A character that an event key may have. -/
def isKeyChar (c : Char) : Bool := c.isAlphanum || c ∈ ['_', '.', '/', ':', '-']

def hasKeyTexts : Payload → Bool
  | start eventKey _ => Ledger.isEventKey eventKey
  | coalesced .. => true
  | candidate milestoneId candidateSha =>
    milestoneId.toList.all isKeyChar && candidateSha.toList.all isKeyChar
  | terminal milestoneId result =>
    milestoneId.toList.all isKeyChar &&
      (result.dispatchId.elim true fun d => d.text.toList.all isKeyChar)
  | effectFailed actionId _ _ => actionId.toList.all isKeyChar

def keyLength (revision : ℕ) : Payload → ℕ
  | start eventKey _ => eventKey.length
  | coalesced .. => 19 + revision.repr.length
  | candidate milestoneId candidateSha => 21 + milestoneId.length + candidateSha.length
  | terminal milestoneId result =>
    11 + milestoneId.length + (result.dispatchId.elim 7 (·.text.length)) +
      result.terminalStatus.value.length
  | effectFailed actionId _ _ => 21 + actionId.length

theorem key_length (revision : ℕ) : (p.key revision).length = p.keyLength revision := by
  cases p with
  | start eventKey ready => rfl
  | coalesced superseded ready =>
    show ("revision/" ++ revision.repr ++ "/coalesced").length = 19 + revision.repr.length
    simp only [String.length_append]
    have h₁ : "revision/".length = 9 := rfl
    have h₂ : "/coalesced".length = 10 := rfl
    omega
  | candidate milestoneId candidateSha =>
    show ("milestone/" ++ milestoneId ++ "/candidate/" ++ candidateSha).length = _
    simp only [String.length_append, keyLength]
    have h₁ : "milestone/".length = 10 := rfl
    have h₂ : "/candidate/".length = 11 := rfl
    omega
  | terminal milestoneId result =>
    have h₁ : "executor/".length = 9 := rfl
    have h₂ : "/".length = 1 := rfl
    have h₃ : (result.dispatchId.elim "unbound" (·.text)).length =
        result.dispatchId.elim 7 (·.text.length) := by
      cases result.dispatchId <;> rfl
    show ("executor/" ++ milestoneId ++ "/" ++ (result.dispatchId.elim "unbound" (·.text)) ++ "/" ++
      result.terminalStatus.value).length = _
    simp only [String.length_append, keyLength, h₃]
    omega
  | effectFailed actionId effectId errorCode =>
    show ("action-effect/" ++ actionId ++ "/failed").length = _
    simp only [String.length_append, keyLength]
    have h₁ : "action-effect/".length = 14 := rfl
    have h₂ : "/failed".length = 7 := rfl
    omega

theorem isEventKey_iff {text : String} (h : text.toList.head?.any (·.isAlphanum)) :
    Ledger.isEventKey text ↔ text.length ≤ 256 ∧ text.toList.all isKeyChar := by
  unfold Ledger.isEventKey
  cases htext : text.toList with
  | nil =>
    rw [htext] at h
    cases h
  | cons c rest =>
    rw [htext] at h
    have hc : c.isAlphanum = true := h
    have hfirst : isKeyChar c = true := by
      unfold isKeyChar
      rw [hc, Bool.true_or]
    rw [List.all_cons, hfirst, Bool.true_and, Bool.and_eq_true, decide_eq_true_eq]
    dsimp only
    rw [hc, Bool.true_and]
    rfl

theorem repr_isKeyText (n : ℕ) : n.repr.toList.all isKeyChar := by
  refine List.all_eq_true.2 fun c hc => ?_
  rw [Nat.repr, String.toList_ofList] at hc
  have hdigit := Nat.isDigit_of_mem_toDigits (by decide) (by decide) hc
  unfold isKeyChar Char.isAlphanum
  rw [hdigit, Bool.or_true, Bool.true_or]

/-- A derived key is accepted when it is made of key texts and short enough. -/
theorem isEventKey_key (revision : ℕ) :
    Ledger.isEventKey (p.key revision) ↔ p.keyLength revision ≤ 256 ∧ p.hasKeyTexts := by
  rw [← key_length]
  cases p with
  | start eventKey ready =>
    refine ⟨fun h => ⟨?_, h⟩, (·.2)⟩
    unfold Ledger.isEventKey at h
    exact of_decide_eq_true (Bool.and_eq_true .. ▸ h).1
  | coalesced superseded ready =>
    have hkey : (coalesced superseded ready).key revision =
        "revision/" ++ revision.repr ++ "/coalesced" := rfl
    have htexts : ((coalesced superseded ready).key revision).toList.all isKeyChar := by
      have h₁ : "revision/".toList.all isKeyChar = true := rfl
      have h₂ : "/coalesced".toList.all isKeyChar = true := rfl
      rw [hkey, String.toList_append, String.toList_append, List.all_append, List.all_append, h₁,
        h₂, repr_isKeyText]
      rfl
    rw [isEventKey_iff (by rw [hkey]; simp), htexts]
    exact Iff.rfl
  | candidate milestoneId candidateSha =>
    have hkey : (candidate milestoneId candidateSha).key revision =
        "milestone/" ++ milestoneId ++ "/candidate/" ++ candidateSha := rfl
    have h₁ : "milestone/".toList.all isKeyChar = true := rfl
    have h₂ : "/candidate/".toList.all isKeyChar = true := rfl
    rw [isEventKey_iff (by rw [hkey]; simp), hkey]
    simp only [String.toList_append, List.all_append, h₁, h₂, Bool.true_and, Bool.and_true,
      hasKeyTexts]
  | terminal milestoneId result =>
    have hkey : (terminal milestoneId result).key revision = "executor/" ++ milestoneId ++ "/" ++
        (result.dispatchId.elim "unbound" (·.text)) ++ "/" ++ result.terminalStatus.value := rfl
    have h₁ : "executor/".toList.all isKeyChar = true := rfl
    have h₂ : "/".toList.all isKeyChar = true := rfl
    have h₃ : result.terminalStatus.value.toList.all isKeyChar = true := by
      cases result.terminalStatus <;> rfl
    have h₄ : (result.dispatchId.elim "unbound" (·.text)).toList.all isKeyChar =
        result.dispatchId.elim true fun d => d.text.toList.all isKeyChar := by
      cases result.dispatchId <;> rfl
    rw [isEventKey_iff (by rw [hkey]; simp), hkey]
    simp only [String.toList_append, List.all_append, h₁, h₂, h₃, h₄, Bool.true_and, Bool.and_true,
      hasKeyTexts]
  | effectFailed actionId effectId errorCode =>
    have hkey : (effectFailed actionId effectId errorCode).key revision =
        "action-effect/" ++ actionId ++ "/failed" := rfl
    have h₁ : "action-effect/".toList.all isKeyChar = true := rfl
    have h₂ : "/failed".toList.all isKeyChar = true := rfl
    rw [isEventKey_iff (by rw [hkey]; simp), hkey]
    simp only [String.toList_append, List.all_append, h₁, h₂, Bool.true_and, Bool.and_true,
      hasKeyTexts]

end Payload

/-- A decision that an operation opens, with the row of the program that it is written from. -/
structure Opening where
  programId : String
  revision : ℕ
  planDigest : String
  trunkHead : String
  payload : Payload

namespace Opening

variable (o : Opening)

def event : Ledger.ProgramEvent := ⟨o.programId, o.payload.kind, o.payload.key o.revision⟩

def decisionId : String :=
  s!"decision/program/{o.programId}/{eventKindValue o.payload.kind}/{o.payload.key o.revision}"

/-- `summary_json` -/
def summary : Json := .obj
  [(lit "event_key", jsonText (o.payload.key o.revision)),
    (lit "event_kind", jsonText (eventKindValue o.payload.kind)),
    (lit "payload", o.payload.json),
    (lit "plan_digest", jsonText o.planDigest),
    (lit "program_id", jsonText o.programId),
    (lit "program_revision", .int o.revision),
    (lit "schema_version", .int (1 : ℕ)),
    (lit "trunk_head", jsonText o.trunkHead)]

/-- What `_ensure_program_decision_in_transaction` accepts: the key and the identity, and of a new
decision the summary that it reads back. -/
def check (isKnown : Bool) : Checked Unit := do
  ensure (Ledger.isEventKey (o.payload.key o.revision)) (.valueError "program event key is invalid")
  ensure (o.decisionId.utf8ByteSize ≤ 512) (.valueError "controller decision id is invalid")
  ensure (isKnown ∨ textBytes o.summary ≤ 16384)
    (.corruptSchema "program decision summary is invalid")

def summaryBytes : ℕ :=
  121 + stringBytes (o.payload.key o.revision) + stringBytes (eventKindValue o.payload.kind) +
    o.payload.bytes + stringBytes o.planDigest + stringBytes o.programId +
    byteLength (decimal o.revision) + stringBytes o.trunkHead

theorem textBytes_summary : textBytes o.summary = o.summaryBytes := by
  have h₁ : quotedBytes (lit "event_key") = 11 := rfl
  have h₂ : quotedBytes (lit "event_kind") = 12 := rfl
  have h₃ : quotedBytes (lit "payload") = 9 := rfl
  have h₄ : quotedBytes (lit "plan_digest") = 13 := rfl
  have h₅ : quotedBytes (lit "program_id") = 12 := rfl
  have h₆ : quotedBytes (lit "program_revision") = 18 := rfl
  have h₇ : quotedBytes (lit "schema_version") = 16 := rfl
  have h₈ : quotedBytes (lit "trunk_head") = 12 := rfl
  have hone : byteLength (decimal 1) = 1 := rfl
  unfold summary summaryBytes
  simp only [Capsule.textBytes_obj, List.map_cons, List.map_nil, fieldBytes, separated, h₁, h₂, h₃,
    h₄, h₅, h₆, h₇, h₈, hone, textBytes_jsonText, Capsule.textBytes_nat, Payload.textBytes_json,
    List.sum_cons, List.sum_nil, List.length_cons, List.length_nil]
  omega

/-- The texts that the opening is made of are short enough. -/
def Fits (isKnown : Bool) : Prop :=
  o.payload.keyLength o.revision ≤ 256 ∧ o.payload.hasKeyTexts ∧
    19 + o.programId.utf8ByteSize + (eventKindValue o.payload.kind).utf8ByteSize +
      (o.payload.key o.revision).utf8ByteSize ≤ 512 ∧
    (isKnown ∨ o.summaryBytes ≤ 16384)

theorem check_iff (isKnown : Bool) : o.check isKnown = .ok () ↔ o.Fits isKnown := by
  have hid : o.decisionId.utf8ByteSize = 19 + o.programId.utf8ByteSize +
      (eventKindValue o.payload.kind).utf8ByteSize +
        (o.payload.key o.revision).utf8ByteSize := by
    show ("decision/program/" ++ o.programId ++ "/" ++ eventKindValue o.payload.kind ++ "/" ++
      o.payload.key o.revision).utf8ByteSize = _
    simp only [String.utf8ByteSize_append]
    have h₁ : "decision/program/".utf8ByteSize = 17 := rfl
    have h₂ : "/".utf8ByteSize = 1 := rfl
    omega
  unfold check Fits
  simp only [checks_ok, Payload.isEventKey_key, hid, textBytes_summary]
  rw [and_assoc]

end Opening

end Programs

end CodexFlow
