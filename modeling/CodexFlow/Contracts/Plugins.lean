import CodexFlow.Contracts.Fields

/-!
# Plugin contracts

What a capsule requires of a plugin and what the controller saw of one, as they are written in a
worker's capability.
-/

namespace CodexFlow.Contracts

open Hook (CodePoint PyStr lit codePoint)
open Capsule (Floats JsonValue DictValue StrEnum Checked expect enumText texts isDigit isLower minus
  isHex)
open Checked

variable {floats : Floats}

/-- `_items` -/
def checkItems (values : List PyStr) (label : String) : Checked Unit := do
  ensure (values.length ≤ 128) (label ++ " must contain bounded non-empty strings")
  ensure (∀ value ∈ values, isText maxText value = true)
    (label ++ " must be a bounded non-empty string")
  ensure values.Nodup (label ++ " must contain unique values")

/-- `[a-z0-9][a-z0-9._-]{0,127}` -/
def isPluginName : PyStr → Bool
  | [] => false
  | c :: rest => (isDigit c || isLower c) && rest.length ≤ 127 &&
      rest.all fun c => isDigit c || isLower c || c ∈ [codePoint '.', codePoint '_', minus]

/-- A name, or a name at another. -/
def isPluginId (text : PyStr) : Bool :=
  match text.splitOn (codePoint '@') with
  | [name] => isPluginName name
  | [name, home] => isPluginName name && isPluginName home
  | _ => false

inductive PluginReadiness where
  | ready
  | setupRequired
  | unsupported
  | unknown
deriving DecidableEq

instance : StrEnum PluginReadiness where
  all := [.ready, .setupRequired, .unsupported, .unknown]
  value
    | .ready => lit "ready"
    | .setupRequired => lit "setup_required"
    | .unsupported => lit "unsupported"
    | .unknown => lit "unknown"
  find_value a := by cases a <;> decide

/-- The facts that a requirement and a snapshot share. -/
structure PluginFacts where
  canonicalId : PyStr
  version : PyStr
  source : PyStr
  bundleDigest : PyStr
  bundledSkillIds : List PyStr
  mcpConnectors : List PyStr
deriving DecidableEq

/-- The checks that the two constructors share. -/
def PluginFacts.check (p : PluginFacts) : Checked Unit := do
  ensure (isPluginId p.canonicalId) "plugin canonical id must be a lowercase semantic identifier"
  checkText p.version "plugin version" 128
  checkText p.source "plugin source" 256
  ensure (isHex 64 p.bundleDigest) "plugin bundle digest must be a lowercase SHA-256"
  checkItems p.bundledSkillIds "bundled skill ids"
  checkItems p.mcpConnectors "MCP connector ids"

inductive PluginKey where
  | canonicalId
  | version
  | source
  | enabled
  | bundleDigest
  | bundledSkillIds
  | mcpConnectors
  | readiness
deriving DecidableEq

instance : RecordKeys PluginKey where
  all := [.canonicalId, .version, .source, .enabled, .bundleDigest, .bundledSkillIds,
    .mcpConnectors, .readiness]
  value
    | .canonicalId => lit "canonical_id"
    | .version => lit "version"
    | .source => lit "source"
    | .enabled => lit "enabled"
    | .bundleDigest => lit "bundle_digest"
    | .bundledSkillIds => lit "bundled_skill_ids"
    | .mcpConnectors => lit "mcp_connectors"
    | .readiness => lit "readiness"
  find_value a := by cases a <;> decide
  nodup := by decide

/-- The shared facts, each read as its type. -/
def PluginFacts.fromJson (d : DictValue floats) (label : String) : Checked PluginFacts := do
  let collections := label ++ " collections are malformed"
  let scalars := label ++ " scalar fields are malformed"
  let bundledSkillIds ← expect (at_ d PluginKey.bundledSkillIds).asStrings collections
  let mcpConnectors ← expect (at_ d PluginKey.mcpConnectors).asStrings collections
  let canonicalId ← expect (at_ d PluginKey.canonicalId).asStr scalars
  let version ← expect (at_ d PluginKey.version).asStr scalars
  let source ← expect (at_ d PluginKey.source).asStr scalars
  let bundleDigest ← expect (at_ d PluginKey.bundleDigest).asStr scalars
  pure { canonicalId, version, source, bundleDigest, bundledSkillIds, mcpConnectors }

/-! ### Requirements -/

structure PluginRequirement extends PluginFacts
deriving DecidableEq

namespace PluginRequirement

instance : PostInit String PluginRequirement := .ofCheck fun r => r.toPluginFacts.check

/-- `from_json` -/
def fromJson (d : DictValue floats) : Checked (Built PluginRequirement) := do
  ensure (hasKeys d [PluginKey.canonicalId, .version, .source, .bundleDigest, .bundledSkillIds,
    .mcpConnectors]) "plugin requirement keys are unsupported"
  let facts ← PluginFacts.fromJson d "plugin requirement"
  Built.new { toPluginFacts := facts }

end PluginRequirement

/-! ### Snapshots -/

structure PluginCapabilitySnapshot extends PluginFacts where
  enabled : Bool
  readiness : PluginReadiness
deriving DecidableEq

namespace PluginCapabilitySnapshot

instance : PostInit String PluginCapabilitySnapshot := .ofCheck fun s => s.toPluginFacts.check

/-- The fields that `to_json` writes. -/
def field (s : PluginCapabilitySnapshot) : PluginKey → Option (JsonValue floats)
  | .canonicalId => some (.str s.canonicalId)
  | .version => some (.str s.version)
  | .source => some (.str s.source)
  | .enabled => some ⟨.bool s.enabled, rfl⟩
  | .bundleDigest => some (.str s.bundleDigest)
  | .bundledSkillIds => some (texts s.bundledSkillIds)
  | .mcpConnectors => some (texts s.mcpConnectors)
  | .readiness => some (enumText s.readiness)

/-- `capability_digest`, by the digest of bytes. -/
def capabilityDigest (floats : Floats) (sha256 : List UInt8 → PyStr) (s : PluginCapabilitySnapshot) :
    Checked PyStr :=
  (writeObject (record s.field : DictValue floats)).map sha256

/-- `from_json` -/
def fromJson (d : DictValue floats) : Checked (Built PluginCapabilitySnapshot) := do
  ensure (hasKeys d (StrEnum.all : List PluginKey)) "plugin capability snapshot keys are unsupported"
  let facts ← PluginFacts.fromJson d "plugin capability"
  let readiness ← expect (at_ d PluginKey.readiness).asStr
    "plugin capability scalar fields are malformed"
  let enabled ← expect (asBool (at_ d PluginKey.enabled))
    "plugin capability enabled state is malformed"
  let readiness ← expect (StrEnum.ofValue readiness) "the text is not a valid member"
  Built.new { toPluginFacts := facts, enabled, readiness }

/-- `satisfies` -/
def satisfies (s : PluginCapabilitySnapshot) (r : PluginRequirement) : Bool :=
  s.canonicalId = r.canonicalId && s.version = r.version && s.source = r.source && s.enabled &&
    s.bundleDigest = r.bundleDigest && r.bundledSkillIds.all (· ∈ s.bundledSkillIds) &&
    r.mcpConnectors.all (· ∈ s.mcpConnectors) && s.readiness = .ready

end PluginCapabilitySnapshot

end CodexFlow.Contracts
