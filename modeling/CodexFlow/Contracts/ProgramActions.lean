import CodexFlow.Contracts.Fields
import CodexFlow.Programs.Actions

/-!
# Program actions on the wire

`ModelFacingProgramControllerAction`: what its constructor admits of each kind, the order that it
leaves its lists in, how it is written, and how it is read back.
-/

namespace CodexFlow.Contracts

open Hook (PyStr lit)
open Git (strip)
open Capsule (Floats JsonValue DictValue StrEnum Checked expect expect_some expect_eq_ok enumText
  isIdentifier isHex)
open Programs (ProgramActionKind)
open Checked

variable {floats : Floats}

instance : StrEnum ProgramActionKind where
  all := [.startReadyMilestones, .startReviews, .requestRepair, .resolveCandidateBlocker,
    .promoteCandidate, .integrateCandidate, .requireReplan, .requireHumanAttention,
    .acknowledgeOnly]
  value
    | .startReadyMilestones => lit "start_ready_milestones"
    | .startReviews => lit "start_reviews"
    | .requestRepair => lit "request_repair"
    | .resolveCandidateBlocker => lit "resolve_candidate_blocker"
    | .promoteCandidate => lit "promote_candidate"
    | .integrateCandidate => lit "integrate_candidate"
    | .requireReplan => lit "require_replan"
    | .requireHumanAttention => lit "require_human_attention"
    | .acknowledgeOnly => lit "acknowledge_only"
  find_value a := by cases a <;> decide

structure ProgramControllerAction where
  kind : ProgramActionKind
  milestoneIds : List PyStr := []
  milestoneId : Option PyStr := none
  candidateSha : Option PyStr := none
  evidenceSha256 : Option PyStr := none
  expectedTrunkHead : Option PyStr := none
  reviewRoles : List PyStr := []
  reviewIds : List PyStr := []
  findingIds : List PyStr := []
  integrationStrategy : Option PyStr := none
  reason : Option PyStr := none
  blockerGateId : Option PyStr := none
  blockerResolution : Option PyStr := none
deriving DecidableEq

inductive ProgramActionKey where
  | kind
  | milestoneIds
  | milestoneId
  | candidateSha
  | evidenceSha256
  | blockerGateId
  | blockerResolution
  | expectedTrunkHead
  | reviewRoles
  | reviewIds
  | findingIds
  | integrationStrategy
  | reason
deriving DecidableEq

instance : RecordKeys ProgramActionKey where
  all := [.kind, .milestoneIds, .milestoneId, .candidateSha, .evidenceSha256, .blockerGateId,
    .blockerResolution, .expectedTrunkHead, .reviewRoles, .reviewIds, .findingIds,
    .integrationStrategy, .reason]
  value
    | .kind => lit "kind"
    | .milestoneIds => lit "milestone_ids"
    | .milestoneId => lit "milestone_id"
    | .candidateSha => lit "candidate_sha"
    | .evidenceSha256 => lit "evidence_sha256"
    | .blockerGateId => lit "blocker_gate_id"
    | .blockerResolution => lit "blocker_resolution"
    | .expectedTrunkHead => lit "expected_trunk_head"
    | .reviewRoles => lit "review_roles"
    | .reviewIds => lit "review_ids"
    | .findingIds => lit "finding_ids"
    | .integrationStrategy => lit "integration_strategy"
    | .reason => lit "reason"
  find_value a := by cases a <;> decide
  nodup := by decide

namespace ProgramControllerAction

/-! ### Construction -/

def checkNames (values : List PyStr) (label : String) : Checked Unit :=
  ensure (values.length ≤ 128 ∧ values.Nodup ∧ ∀ name ∈ values, strip name ≠ [])
    ("program " ++ label ++ " are invalid")

def checkFields (a : ProgramControllerAction) : Checked Unit := do
  ensure (a.milestoneIds.length ≤ 128 ∧ a.milestoneIds.Nodup)
    "program milestone ids must be unique and bounded"
  ensure (∀ id ∈ a.milestoneIds, isIdentifier 127 id = true) "milestone id must match its pattern"
  ensure (a.milestoneId.all (isIdentifier 127)) "milestone id must match its pattern"
  ensure (a.candidateSha.all (isHex 40)) "program candidate commit is invalid"
  ensure (a.evidenceSha256.all (isHex 64)) "program evidence subject is invalid"
  ensure (¬ (a.candidateSha.isSome ∧ a.evidenceSha256.isSome))
    "program action cannot carry both a commit and evidence subject"
  checkOptionalText a.blockerGateId "program blocker gate id" 256
  ensure (a.blockerResolution.all (· ∈ [lit "resolve", lit "supersede"]))
    "program blocker resolution is unsupported"
  ensure (a.expectedTrunkHead.all (isHex 40)) "program expected trunk HEAD is invalid"
  checkNames a.reviewRoles "review roles"
  checkNames a.reviewIds "review ids"
  checkNames a.findingIds "finding ids"
  ensure (a.integrationStrategy.all
      (· ∈ [lit "merge", lit "fast_forward", lit "cherry_pick"]))
    "program integration strategy is unsupported"
  checkOptionalText a.reason "program action reason" 512

def hasSubject (a : ProgramControllerAction) : Prop :=
  a.candidateSha.isNone ≠ a.evidenceSha256.isNone

instance (a : ProgramControllerAction) : Decidable a.hasSubject := by
  unfold hasSubject
  infer_instance

def checkKind (a : ProgramControllerAction) : Checked Unit :=
  match a.kind with
  | .startReadyMilestones =>
    ensure (a.milestoneIds ≠ [] ∧ a.milestoneId.isNone ∧ a.candidateSha.isNone ∧
        a.evidenceSha256.isNone ∧ a.expectedTrunkHead.isNone ∧ a.integrationStrategy.isNone ∧
        a.reason.isNone)
      "start_ready_milestones requires only milestone_ids"
  | .startReviews =>
    ensure (a.milestoneId.isSome ∧ a.hasSubject ∧ a.reviewRoles ≠ [])
      "start_reviews requires exactly one subject and review roles"
  | .requestRepair =>
    ensure (a.milestoneId.isSome ∧ a.hasSubject ∧ a.findingIds ≠ [])
      "request_repair requires exactly one subject and finding ids"
  | .resolveCandidateBlocker =>
    ensure (a.milestoneId.isSome ∧ a.candidateSha.isSome ∧ a.blockerGateId.isSome ∧
        a.blockerResolution.isSome)
      "resolve_candidate_blocker requires candidate, gate id and resolution"
  | .promoteCandidate =>
    ensure (a.milestoneId.isSome ∧ a.hasSubject ∧ a.reviewIds ≠ [])
      "promote_candidate requires exactly one subject and review ids"
  | .integrateCandidate =>
    ensure (a.milestoneId.isSome ∧ a.candidateSha.isSome ∧ a.expectedTrunkHead.isSome ∧
        a.integrationStrategy.isSome)
      "integrate_candidate requires candidate, trunk HEAD and strategy"
  | .requireReplan | .requireHumanAttention =>
    ensure a.reason.isSome "program attention actions require a reason"
  | .acknowledgeOnly =>
    ensure (a.milestoneIds = [] ∧ a.reviewRoles = [] ∧ a.reviewIds = [] ∧ a.findingIds = [] ∧
        ∀ field ∈ [a.milestoneId, a.candidateSha, a.evidenceSha256, a.blockerGateId,
          a.blockerResolution, a.expectedTrunkHead, a.integrationStrategy, a.reason],
          field.all (· = []))
      "acknowledge_only cannot carry program action parameters"

def check (a : ProgramControllerAction) : Checked Unit := do
  a.checkFields
  a.checkKind

/-- The lists are left in order. -/
def sort (a : ProgramControllerAction) : ProgramControllerAction :=
  { a with
    milestoneIds := sorted a.milestoneIds
    reviewRoles := sorted a.reviewRoles
    reviewIds := sorted a.reviewIds
    findingIds := sorted a.findingIds }

/-- `__post_init__` -/
def construct (a : ProgramControllerAction) : Checked ProgramControllerAction := do
  a.check
  pure a.sort

theorem sort_sort (a : ProgramControllerAction) : a.sort.sort = a.sort := by simp [sort]

theorem checkKind_sort (a : ProgramControllerAction) :
    a.sort.checkKind = .ok () ↔ a.checkKind = .ok () := by
  obtain ⟨kind⟩ := a
  cases kind
  all_goals
    show ensure _ _ = _ ↔ ensure _ _ = _
    rw [ensure_eq_ok, ensure_eq_ok]
    simp only [sort, hasSubject, sorted_eq_nil, ne_eq]

/-- The order of the lists does not matter to the checks. -/
theorem check_sort (a : ProgramControllerAction) : a.sort.check = .ok () ↔ a.check = .ok () := by
  have hfields : a.sort.checkFields = .ok () ↔ a.checkFields = .ok () := by
    unfold checkFields checkNames
    simp only [checks_ok, checkOptionalText_eq_ok]
    simp only [sort, length_sorted, nodup_sorted, mem_sorted]
  unfold check
  simp only [bind_eq_ok, hfields, checkKind_sort]

theorem construct_eq_ok {a b : ProgramControllerAction} :
    a.construct = .ok b ↔ a.check = .ok () ∧ a.sort = b := by
  unfold construct
  simp only [bind_eq_ok, pure_eq_ok]
  constructor
  · rintro ⟨_, hcheck, hsort⟩
    exact ⟨hcheck, hsort⟩
  · rintro ⟨hcheck, hsort⟩
    exact ⟨(), hcheck, hsort⟩

instance : PostInit String ProgramControllerAction where
  postInit := construct
  idempotent := by
    intro a b h
    obtain ⟨hcheck, rfl⟩ := construct_eq_ok.1 h
    exact construct_eq_ok.2 ⟨(check_sort a).2 hcheck, sort_sort a⟩

/-! ### Writing and reading -/

/-- The fields that `to_json` writes. -/
def field (a : ProgramControllerAction) : ProgramActionKey → Option (JsonValue floats)
  | .kind => some (enumText a.kind)
  | .milestoneIds => writeTexts a.milestoneIds
  | .milestoneId => a.milestoneId.map .str
  | .candidateSha => a.candidateSha.map .str
  | .evidenceSha256 => a.evidenceSha256.map .str
  | .blockerGateId => a.blockerGateId.map .str
  | .blockerResolution => a.blockerResolution.map .str
  | .expectedTrunkHead => a.expectedTrunkHead.map .str
  | .reviewRoles => writeTexts a.reviewRoles
  | .reviewIds => writeTexts a.reviewIds
  | .findingIds => writeTexts a.findingIds
  | .integrationStrategy => a.integrationStrategy.map .str
  | .reason => a.reason.map .str

/-- `to_json` -/
def toJson (a : ProgramControllerAction) : DictValue floats := record a.field

/-- `allowed`: the key sets of a kind, two where either subject will do. -/
def allowed : ProgramActionKind → List (List ProgramActionKey)
  | .startReadyMilestones => [[.kind, .milestoneIds]]
  | .startReviews =>
    [[.kind, .milestoneId, .candidateSha, .reviewRoles],
      [.kind, .milestoneId, .evidenceSha256, .reviewRoles]]
  | .requestRepair =>
    [[.kind, .milestoneId, .candidateSha, .findingIds],
      [.kind, .milestoneId, .evidenceSha256, .findingIds]]
  | .resolveCandidateBlocker =>
    [[.kind, .milestoneId, .candidateSha, .blockerGateId, .blockerResolution]]
  | .promoteCandidate =>
    [[.kind, .milestoneId, .candidateSha, .reviewIds],
      [.kind, .milestoneId, .evidenceSha256, .reviewIds]]
  | .integrateCandidate =>
    [[.kind, .milestoneId, .candidateSha, .expectedTrunkHead, .integrationStrategy]]
  | .requireReplan => [[.kind, .reason]]
  | .requireHumanAttention => [[.kind, .reason]]
  | .acknowledgeOnly => [[.kind]]

/-- `value.get(key)`, of a text that may be missing. -/
def readText (d : DictValue floats) (key : ProgramActionKey) (error : String) :
    Checked (Option PyStr) :=
  optional JsonValue.asStr (at_ d key) error

/-- `from_json` -/
def fromJson (d : DictValue floats) : Checked (Built ProgramControllerAction) := do
  let text ← expect (at_ d ProgramActionKey.kind).asStr "program action must contain a string kind"
  let kind ← expect (StrEnum.ofValue text) "program action kind is unsupported"
  ensure ((allowed kind).any (hasKeys d ·)) "program action has an unsupported shape"
  let collection := "program action collection is malformed"
  let milestoneIds ← readTexts d ProgramActionKey.milestoneIds collection
  let reviewRoles ← readTexts d ProgramActionKey.reviewRoles collection
  let reviewIds ← readTexts d ProgramActionKey.reviewIds collection
  let findingIds ← readTexts d ProgramActionKey.findingIds collection
  let milestoneId ← readText d .milestoneId "milestone id must match its pattern"
  let candidateSha ← readText d .candidateSha "program candidate commit is invalid"
  let evidenceSha256 ← readText d .evidenceSha256 "program evidence subject is invalid"
  let expectedTrunkHead ← readText d .expectedTrunkHead "program expected trunk HEAD is invalid"
  let integrationStrategy ← readText d .integrationStrategy
    "program integration strategy is unsupported"
  let reason ← readText d .reason "program action reason must be a bounded non-empty string"
  let blockerGateId ← readText d .blockerGateId
    "program blocker gate id must be a bounded non-empty string"
  let blockerResolution ← readText d .blockerResolution
    "program blocker resolution is unsupported"
  Built.new
    { kind, milestoneIds, milestoneId, candidateSha, evidenceSha256, expectedTrunkHead, reviewRoles,
      reviewIds, findingIds, integrationStrategy, reason, blockerGateId, blockerResolution }

/-! ### What is written is read back -/

def carries (a : ProgramControllerAction) : ProgramActionKey → Bool
  | .kind => true
  | .milestoneIds => a.milestoneIds ≠ []
  | .milestoneId => a.milestoneId.isSome
  | .candidateSha => a.candidateSha.isSome
  | .evidenceSha256 => a.evidenceSha256.isSome
  | .blockerGateId => a.blockerGateId.isSome
  | .blockerResolution => a.blockerResolution.isSome
  | .expectedTrunkHead => a.expectedTrunkHead.isSome
  | .reviewRoles => a.reviewRoles ≠ []
  | .reviewIds => a.reviewIds ≠ []
  | .findingIds => a.findingIds ≠ []
  | .integrationStrategy => a.integrationStrategy.isSome
  | .reason => a.reason.isSome

theorem field_isSome (a : ProgramControllerAction) (key : ProgramActionKey) :
    (a.field key : Option (JsonValue floats)).isSome = a.carries key := by
  have hlist : ∀ values : List PyStr,
      (writeTexts values : Option (JsonValue floats)).isSome = decide (values ≠ []) := by
    intro values
    cases values <;> rfl
  cases key <;> simp [field, carries, hlist]

/-- The action carries no field beside those of its kind. -/
def IsPlain (a : ProgramControllerAction) : Prop :=
  ∀ key, a.carries key = true → ∃ keys ∈ allowed a.kind, key ∈ keys

/-- The action has every key of the set, and no other key that its kind may have. -/
def Chooses (a : ProgramControllerAction) (keys : List ProgramActionKey) : Prop :=
  (∀ key ∈ keys, a.carries key = true) ∧
    ∀ other ∈ allowed a.kind, ∀ key ∈ other, a.carries key = true → key ∈ keys

/-- One subject chooses between two sets that differ in it. -/
theorem chooses_of_subject {a : ProgramControllerAction} (list : ProgramActionKey)
    (hallowed : allowed a.kind =
      [[.kind, .milestoneId, .candidateSha, list], [.kind, .milestoneId, .evidenceSha256, list]])
    (hmilestone : a.milestoneId.isSome) (hsubject : a.hasSubject) (hlist : a.carries list = true) :
    ∃ keys ∈ allowed a.kind, a.Chooses keys := by
  unfold hasSubject at hsubject
  unfold Chooses
  rw [hallowed]
  have hkind : a.carries .kind = true := rfl
  have hmilestone : a.carries .milestoneId = true := hmilestone
  cases hcandidate : a.candidateSha with
  | none =>
    rw [hcandidate] at hsubject
    have hevidence : a.carries .evidenceSha256 = true := by
      unfold carries
      cases h : a.evidenceSha256 with
      | none => exact absurd (by rw [h]) hsubject
      | some text => rfl
    have hno : a.carries .candidateSha = false := by rw [carries, hcandidate, Option.isSome_none]
    refine ⟨_, List.mem_cons_of_mem _ List.mem_cons_self, ?_, ?_⟩
    · simp [hkind, hmilestone, hevidence, hlist]
    · simp [hno]
  | some candidate =>
    rw [hcandidate] at hsubject
    have hno : a.carries .evidenceSha256 = false := by
      unfold carries
      cases h : a.evidenceSha256 with
      | none => rfl
      | some text => exact absurd (by rw [h]; rfl) hsubject
    have hcandidate : a.carries .candidateSha = true := by rw [carries, hcandidate, Option.isSome_some]
    refine ⟨_, List.mem_cons_self, ?_, ?_⟩
    · simp [hkind, hmilestone, hcandidate, hlist]
    · simp [hno]

theorem chooses_of_single {a : ProgramControllerAction} {keys : List ProgramActionKey}
    (hallowed : allowed a.kind = [keys]) (hkeys : ∀ key ∈ keys, a.carries key = true) :
    ∃ keys ∈ allowed a.kind, a.Chooses keys := by
  unfold Chooses
  rw [hallowed]
  exact ⟨keys, List.mem_cons_self, hkeys, fun other hother key hkey _ =>
    List.mem_singleton.1 hother ▸ hkey⟩

/-- The constructor asks for every field of one key set of the kind. -/
theorem chooses_of_check {a : ProgramControllerAction} (h : a.check = .ok ()) :
    ∃ keys ∈ allowed a.kind, a.Chooses keys := by
  obtain ⟨-, -, hkind⟩ := bind_eq_ok.1 h
  unfold checkKind at hkind
  split at hkind <;> rename_i heq <;> have hfields := ensure_eq_ok.1 hkind
  · obtain ⟨hids, -⟩ := hfields
    exact chooses_of_single (by rw [heq]; rfl) (by simp [carries, hids])
  · obtain ⟨hmilestone, hsubject, hroles⟩ := hfields
    exact chooses_of_subject .reviewRoles (by rw [heq]; rfl) hmilestone hsubject
      (decide_eq_true hroles)
  · obtain ⟨hmilestone, hsubject, hfindings⟩ := hfields
    exact chooses_of_subject .findingIds (by rw [heq]; rfl) hmilestone hsubject
      (decide_eq_true hfindings)
  · obtain ⟨hmilestone, hcandidate, hgate, hresolution⟩ := hfields
    exact chooses_of_single (by rw [heq]; rfl)
      (by simp [carries, hmilestone, hcandidate, hgate, hresolution])
  · obtain ⟨hmilestone, hsubject, hreviews⟩ := hfields
    exact chooses_of_subject .reviewIds (by rw [heq]; rfl) hmilestone hsubject
      (decide_eq_true hreviews)
  · obtain ⟨hmilestone, hcandidate, hhead, hstrategy⟩ := hfields
    exact chooses_of_single (by rw [heq]; rfl)
      (by simp [carries, hmilestone, hcandidate, hhead, hstrategy])
  · exact chooses_of_single (by rw [heq]; rfl) (by simp [carries, hfields])
  · exact chooses_of_single (by rw [heq]; rfl) (by simp [carries, hfields])
  · exact chooses_of_single (by rw [heq]; rfl) (by simp [carries])

/-- An action is read back from what it is written as exactly where it has only the fields of its
kind. -/
theorem fromJson_toJson (a : Built ProgramControllerAction) :
    fromJson (a.val.toJson : DictValue floats) = .ok a ↔ a.val.IsPlain := by
  obtain ⟨hcheck, -⟩ := construct_eq_ok.1 a.built
  have hkeys : (allowed a.val.kind).any (hasKeys (record a.val.field : DictValue floats) ·) = true ↔
      a.val.IsPlain := by
    simp only [List.any_eq_true, hasKeys_record, field_isSome]
    constructor
    · rintro ⟨keys, hmem, hall⟩ key hcarries
      exact ⟨keys, hmem, (hall key).1 hcarries⟩
    · intro hplain
      obtain ⟨keys, hmem, hall, honly⟩ := chooses_of_check hcheck
      refine ⟨keys, hmem, fun key => ⟨fun hcarries => ?_, hall key⟩⟩
      obtain ⟨other, hother, hkey⟩ := hplain key hcarries
      exact honly other hother key hkey hcarries
  have hread : ∀ (key : ProgramActionKey) (values : List PyStr) (error : String),
      a.val.field key = writeTexts values →
        readTexts (record a.val.field : DictValue floats) key error = .ok values :=
    fun _ _ error h => readTexts_record h error
  rw [← hkeys]
  unfold fromJson toJson readText
  simp only [at_record, hread .milestoneIds _ _ rfl, hread .reviewRoles _ _ rfl,
    hread .reviewIds _ _ rfl, hread .findingIds _ _ rfl, ok_bind]
  simp only [field, Option.getD_some, enumText, JsonValue.asStr_str, expect_some, ok_bind,
    StrEnum.ofValue_value, optional_str, checks_ok]
  exact ⟨And.left, fun h => ⟨h, Built.new_val a⟩⟩

theorem kind_mem {kind : ProgramActionKind} {keys : List ProgramActionKey}
    (h : keys ∈ allowed kind) : .kind ∈ keys := by
  have hall : ∀ keys ∈ allowed kind, .kind ∈ keys := by cases kind <;> decide
  exact hall keys h

/-- An action that is read has only the fields of its kind. -/
theorem plain_of_fromJson {d : DictValue floats} {a : Built ProgramControllerAction}
    (h : fromJson d = .ok a) : a.val.IsPlain := by
  unfold fromJson readText at h
  simp only [checks_ok, List.any_eq_true] at h
  obtain ⟨text, -, kind, -, ⟨keys, hmem, hkeys⟩, ids, hids, roles, hroles, reviews, hreviews,
    findings, hfindings, milestone, hmilestone, candidate, hcandidate, evidence, hevidence,
    head, hhead, strategy, hstrategy, reason, hreason, gate, hgate, resolution, hresolution,
    hnew⟩ := h
  obtain ⟨-, hval⟩ := construct_eq_ok.1 (Built.new_eq_ok.1 hnew)
  rw [← hval]
  have hlist : ∀ {values : List PyStr}, decide (sorted values ≠ []) = true → values ≠ [] :=
    fun hne => mt sorted_eq_nil.2 (of_decide_eq_true hne)
  intro key hcarries
  refine ⟨keys, hmem, ?_⟩
  cases key with
  | kind => exact kind_mem hmem
  | milestoneIds => exact mem_of_readTexts hkeys hids (hlist hcarries)
  | milestoneId => exact mem_of_optional hkeys hmilestone hcarries
  | candidateSha => exact mem_of_optional hkeys hcandidate hcarries
  | evidenceSha256 => exact mem_of_optional hkeys hevidence hcarries
  | blockerGateId => exact mem_of_optional hkeys hgate hcarries
  | blockerResolution => exact mem_of_optional hkeys hresolution hcarries
  | expectedTrunkHead => exact mem_of_optional hkeys hhead hcarries
  | reviewRoles => exact mem_of_readTexts hkeys hroles (hlist hcarries)
  | reviewIds => exact mem_of_readTexts hkeys hreviews (hlist hcarries)
  | findingIds => exact mem_of_readTexts hkeys hfindings (hlist hcarries)
  | integrationStrategy => exact mem_of_optional hkeys hstrategy hcarries
  | reason => exact mem_of_optional hkeys hreason hcarries

end ProgramControllerAction

end CodexFlow.Contracts
