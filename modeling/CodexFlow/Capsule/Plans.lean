import CodexFlow.Capsule.RoundTrip

/-!
# Durable plans

`Controller._plan` over the ledger's execution rows and the capsule files of one state directory,
and the two readings of a capsule file: by a plan of the same capsule, and by what runs the plan.
-/

namespace CodexFlow.Capsule

open Hook (PyStr Json Dict lit)
open Git (PurePath)
open Checked

/-! ### Equality of values -/

mutual

def sameJson : Json → Json → Bool
  | .null, .null => true
  | .bool a, .bool b => a = b
  | .int a, .int b => a = b
  | .float a, .float b => a = b
  | .str a, .str b => a = b
  | .arr a, .arr b => sameItems a b
  | .obj a, .obj b => sameFields a b
  | _, _ => false

def sameItems : List Json → List Json → Bool
  | [], [] => true
  | a :: as, b :: bs => sameJson a b && sameItems as bs
  | _, _ => false

def sameFields : Dict → Dict → Bool
  | [], [] => true
  | (k, a) :: as, (l, b) :: bs => k = l && sameJson a b && sameFields as bs
  | _, _ => false

end

mutual

theorem sameJson_iff : ∀ a b, sameJson a b = true ↔ a = b
  | .null, b => by cases b <;> simp [sameJson]
  | .bool a, b => by cases b <;> simp [sameJson]
  | .int a, b => by cases b <;> simp [sameJson]
  | .float a, b => by cases b <;> simp [sameJson]
  | .str a, b => by cases b <;> simp [sameJson]
  | .arr a, b => by cases b <;> simp [sameJson, sameItems_iff a]
  | .obj a, b => by cases b <;> simp [sameJson, sameFields_iff a]

theorem sameItems_iff : ∀ a b, sameItems a b = true ↔ a = b
  | [], b => by cases b <;> simp [sameItems]
  | a :: as, b => by cases b <;> simp [sameItems, sameJson_iff a, sameItems_iff as]

theorem sameFields_iff : ∀ a b, sameFields a b = true ↔ a = b
  | [], b => by cases b <;> simp [sameFields]
  | (k, a) :: as, b => by
    cases b with
    | nil => simp [sameFields]
    | cons field bs =>
      obtain ⟨l, b⟩ := field
      simp [sameFields, sameJson_iff a, sameFields_iff as, and_assoc]

end

instance : DecidableEq Json := fun a b => decidable_of_iff _ (sameJson_iff a b)

deriving instance DecidableEq for ValidationSpec
deriving instance DecidableEq for ProgramApprovalGate
deriving instance DecidableEq for ExecutionCapsule

/-! ### The durable form -/

/-- `strict_json_loads(raw, max_bytes=maxBytes)`, a value of the interpreter. -/
def strictJsonLoads (floats : Floats) (maxBytes : ℕ) (raw : PyStr) : Checked (JsonValue floats) :=
  match h : strictLoads floats maxBytes raw with
  | some value => .ok ⟨value, ordered_of_strictLoads h⟩
  | none => .error "JSON is not valid interoperable data"

theorem strictJsonLoads_eq_ok {floats : Floats} {maxBytes : ℕ} {raw : PyStr}
    {value : JsonValue floats} :
    strictJsonLoads floats maxBytes raw = .ok value ↔
      strictLoads floats maxBytes raw = some value.val := by
  unfold strictJsonLoads
  split
  next found h =>
    constructor <;> intro same
    · cases same
      exact h
    · exact congrArg _ (Subtype.ext (Option.some.inj (h.symm.trans same)))
  next h => exact iff_of_false nofun fun same => nomatch h.symm.trans same

/-- `_canonical_json(capsule_json(capsule))`, as text. -/
def capsuleContent (host : Host) (c : ExecutionCapsule host.floats) : Checked PyStr := do
  let value ← capsuleJson host c
  expect (canonicalText (.obj value.val)) "surrogates not allowed"

/-- `load_capsule`, of the text of the file. -/
def loadCapsule (host : Host) (raw : PyStr) : Checked (ExecutionCapsule host.floats) := do
  let decoded ← strictJsonLoads host.floats maxJsonBytes raw
  let value ← expect decoded.asDict "capsule root must be an object"
  capsuleFromJson host value

/-! ### Plans -/

/-- What a controller of one state directory asks of its surroundings. -/
structure Planner where
  host : Host
  stateDir : PurePath
  /-- The checks of the checkout, and the digest of its protected paths at the base. -/
  inspect : ExecutionCapsule host.floats → Checked PyStr
  /-- `_digest_bytes` -/
  digestBytes : PyStr → PyStr

/-- The durable facts of an execution row. -/
structure ExecutionRecord where
  runId : Identifier
  milestoneId : Identifier
  capsulePath : PurePath
  capsuleSha256 : PyStr
  protectedBeforeSha256 : PyStr
deriving DecidableEq

/-- The execution rows and the files of the state directory. -/
structure Plans where
  executions : Identifier × Identifier → Option ExecutionRecord
  files : PurePath → Option PyStr

namespace Planner

variable (p : Planner)

/-- `_capsule_path` -/
def capsulePath (c : ExecutionCapsule p.host.floats) : PurePath where
  root := p.stateDir.root
  parts := p.stateDir.parts ++ [lit "capsules", c.runId.val, c.milestoneId.val ++ lit ".json"]

/-- `load_capsule` -/
def load (plans : Plans) (path : PurePath) :
    Checked (ExecutionCapsule p.host.floats × PyStr) := do
  let raw ← expect (plans.files path) "no such file"
  let capsule ← loadCapsule p.host raw
  pure (capsule, p.digestBytes raw)

/-- `write_owned_artifact(..., replace=False)` -/
def write (files : PurePath → Option PyStr) (path : PurePath) (content : PyStr) :
    Checked (PurePath → Option PyStr) := do
  ensure ((files path).all (· = content)) "owned artifact already exists with different content"
  pure (Function.update files path (some content))

/-- `_plan` -/
def plan (plans : Plans) (c : ExecutionCapsule p.host.floats) :
    Checked (ExecutionRecord × Plans) := do
  let capsule ← c.canonicalize p.host
  let protectedBefore ← p.inspect capsule
  let content ← capsuleContent p.host capsule
  let path := p.capsulePath capsule
  match plans.executions (capsule.runId, capsule.milestoneId) with
  | some existing =>
    ensure (existing.capsulePath = path ∧ existing.capsuleSha256 = p.digestBytes content ∧
        existing.protectedBeforeSha256 = protectedBefore)
      "execution is already planned with different durable facts"
    let (durable, digest) ← p.load plans path
    ensure (durable = capsule ∧ digest = existing.capsuleSha256)
      "existing durable capsule does not match the requested plan"
    pure (existing, plans)
  | none =>
    let files ← write plans.files path content
    let record :=
      { runId := capsule.runId, milestoneId := capsule.milestoneId, capsulePath := path,
        capsuleSha256 := p.digestBytes content, protectedBeforeSha256 := protectedBefore }
    let executions :=
      Function.update plans.executions (capsule.runId, capsule.milestoneId) (some record)
    pure (record, { executions, files })

/-- `_load_durable_capsule` -/
def loadDurable (plans : Plans) (record : ExecutionRecord) :
    Checked (ExecutionCapsule p.host.floats) := do
  let (capsule, digest) ← p.load plans record.capsulePath
  ensure (digest = record.capsuleSha256 ∧
      (capsule.runId, capsule.milestoneId) = (record.runId, record.milestoneId))
    "durable capsule identity or digest changed"
  pure capsule

/-- Plans of any capsules, one after another. -/
inductive Later : Plans → Plans → Prop where
  | refl (plans : Plans) : Later plans plans
  | plan {plans next last : Plans} (c : ExecutionCapsule p.host.floats) (record : ExecutionRecord)
      (planned : p.plan plans c = .ok (record, next)) (later : Later next last) : Later plans last

end Planner

/-! ### What the file of a capsule gives back -/

section Content

variable {host : Host} {c : ExecutionCapsule host.floats}

def ExecutionCapsule.text (c : ExecutionCapsule host.floats) : PyStr :=
  Capsule.text (.obj c.written.val) ++ [Hook.codePoint '\n']

/-- The capsule has canonical text: no long integer and no lone surrogate. -/
def ExecutionCapsule.Encodable (c : ExecutionCapsule host.floats) : Prop :=
  printable (.obj c.written.val) = true ∧ interoperable (.obj c.written.val) = true

theorem readable_written (encodable : c.Encodable) :
    Readable host.floats (.obj c.written.val) :=
  ⟨c.written.property, encodable.1, encodable.2⟩

theorem capsuleContent_eq_ok (self : c.construct host = .ok c) {content : PyStr} :
    capsuleContent host c = .ok content ↔ c.Encodable ∧ c.text = content := by
  rw [capsuleContent, capsuleJson_self self, ok_bind, expect_eq_ok,
    canonicalText_eq_some c.written.property]
  exact and_congr_left fun _ => ⟨fun h => ⟨h.printable, h.interoperable⟩, readable_written⟩

/-- The file of a capsule is read back unless it is too long or its keys are not listed. -/
theorem loadCapsule_text (self : c.construct host = .ok c) (encodable : c.Encodable) :
    loadCapsule host c.text = .ok c ↔ ¬ Unlisted c ∧ byteLength c.text ≤ maxJsonBytes := by
  have read : strictLoads host.floats maxJsonBytes c.text =
      if byteLength c.text ≤ maxJsonBytes then some (.obj c.written.val) else none :=
    strictLoads_text (readable_written encodable) (.inr rfl) maxJsonBytes
  by_cases short : byteLength c.text ≤ maxJsonBytes
  · have value : strictJsonLoads host.floats maxJsonBytes c.text = .ok (.dict c.written) :=
      strictJsonLoads_eq_ok.mpr (by rw [read, if_pos short]; rfl)
    rw [loadCapsule, value, ok_bind, JsonValue.asDict_dict, expect_some, ok_bind,
      capsuleFromJson_written self, and_iff_left short]
    split_ifs with unlisted
    · exact iff_of_false nofun (not_not_intro unlisted)
    · exact iff_of_true rfl unlisted
  · refine iff_of_false (fun loaded => ?_) fun all => short all.2
    obtain ⟨value, decoded, -⟩ := bind_eq_ok.mp loaded
    rw [strictJsonLoads_eq_ok, read, if_neg short] at decoded
    cases decoded

end Content

/-! ### Planned executions -/

section Planned

variable {p : Planner} {plans next : Plans} {given c : ExecutionCapsule p.host.floats}
  {record : ExecutionRecord} {content : PyStr}

structure Keeps (plans : Plans) (record : ExecutionRecord) (content : PyStr) : Prop where
  row : plans.executions (record.runId, record.milestoneId) = some record
  file : plans.files record.capsulePath = some content

/-- The row that the first plan of a capsule writes. -/
def Planner.recordOf (p : Planner) (c : ExecutionCapsule p.host.floats) (protectedBefore : PyStr) :
    ExecutionRecord where
  runId := c.runId
  milestoneId := c.milestoneId
  capsulePath := p.capsulePath c
  capsuleSha256 := p.digestBytes c.text
  protectedBeforeSha256 := protectedBefore

/-- The first plan of a capsule keeps its row and its text. -/
theorem plan_first (canonical : given.canonicalize p.host = .ok c)
    (fresh : plans.executions (c.runId, c.milestoneId) = none)
    (h : p.plan plans given = .ok (record, next)) :
    c.Encodable ∧ p.inspect c = .ok record.protectedBeforeSha256 ∧
      record = p.recordOf c record.protectedBeforeSha256 ∧ Keeps next record c.text := by
  have self : c.construct p.host = .ok c := construct_self canonical
  simp only [Planner.plan, canonical, ok_bind, fresh, bind_eq_ok, pure_eq_ok,
    capsuleContent_eq_ok self] at h
  obtain ⟨protectedBefore, inspected, _, ⟨encodable, rfl⟩, files, written, eq⟩ := h
  simp only [Planner.write, steps_ok] at written
  obtain ⟨-, rfl⟩ := written
  cases eq
  exact ⟨encodable, inspected, rfl, Function.update_self .., Function.update_self ..⟩

/-- A plan of any capsule keeps the rows and the files that are there. -/
theorem Keeps.plan {other : ExecutionRecord} (keeps : Keeps plans record content)
    (h : p.plan plans given = .ok (other, next)) : Keeps next record content := by
  simp only [Planner.plan, bind_eq_ok] at h
  obtain ⟨c, -, _, -, text, -, h⟩ := h
  split at h
  next existing _ =>
    simp only [bind_eq_ok, pure_eq_ok] at h
    obtain ⟨_, -, _, -, _, -, eq⟩ := h
    cases eq
    exact keeps
  next fresh =>
    simp only [steps_ok, Planner.write] at h
    obtain ⟨files, ⟨same, rfl⟩, eq⟩ := h
    cases eq
    constructor
    · have differs : (record.runId, record.milestoneId) ≠ (c.runId, c.milestoneId) := by
        intro same
        have row := keeps.row
        rw [same, fresh] at row
        cases row
      exact (Function.update_of_ne differs ..).trans keeps.row
    · by_cases path : record.capsulePath = p.capsulePath c
      · rw [← path, keeps.file] at same
        show Function.update _ _ _ _ = _
        rw [path, Function.update_self, of_decide_eq_true same]
      · exact (Function.update_of_ne path ..).trans keeps.file

theorem Keeps.later (keeps : Keeps plans record content) (h : p.Later plans next) :
    Keeps next record content := by
  induction h with
  | refl => exact keeps
  | plan given other planned _ ih => exact ih (keeps.plan planned)

theorem load_kept (keeps : Keeps plans record content) :
    p.load plans record.capsulePath =
      (do pure (← loadCapsule p.host content, p.digestBytes content)) := by
  rw [Planner.load, keeps.file]
  rfl

/-- A kept capsule is planned again, and loaded, exactly where its file reads back. -/
theorem plan_again {protectedBefore : PyStr} (canonical : given.canonicalize p.host = .ok c)
    (encodable : c.Encodable) (inspected : p.inspect c = .ok protectedBefore)
    (keeps : Keeps plans (p.recordOf c protectedBefore) c.text) :
    (p.plan plans given = .ok (p.recordOf c protectedBefore, plans) ↔
        loadCapsule p.host c.text = .ok c) ∧
      (p.loadDurable plans (p.recordOf c protectedBefore) = .ok c ↔
        loadCapsule p.host c.text = .ok c) := by
  have self : c.construct p.host = .ok c := construct_self canonical
  have row : plans.executions (c.runId, c.milestoneId) = some (p.recordOf c protectedBefore) :=
    keeps.row
  have load : p.load plans (p.capsulePath c) = _ := load_kept keeps
  constructor
  · rw [Planner.plan, canonical, ok_bind, inspected, ok_bind,
      (capsuleContent_eq_ok self).mpr ⟨encodable, rfl⟩, ok_bind]
    dsimp only
    rw [row]
    dsimp only
    rw [ensure_of ⟨rfl, rfl, rfl⟩, ok_bind, load]
    simp only [steps_ok]
    constructor
    · rintro ⟨_, ⟨durable, loaded, rfl⟩, same, -⟩
      exact same.1 ▸ loaded
    · exact fun loaded => ⟨_, ⟨c, loaded, rfl⟩, ⟨rfl, rfl⟩, trivial⟩
  · rw [Planner.loadDurable, load_kept keeps]
    simp only [steps_ok]
    constructor
    · rintro ⟨_, ⟨durable, loaded, rfl⟩, -, same⟩
      exact same ▸ loaded
    · exact fun loaded => ⟨_, ⟨c, loaded, rfl⟩, ⟨rfl, rfl⟩, rfl⟩

end Planned

end CodexFlow.Capsule
