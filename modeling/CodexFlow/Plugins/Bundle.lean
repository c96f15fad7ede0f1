import CodexFlow.Contracts.Plugins

/-!
# Plugin bundles

How the directory of a plugin is read under the bounds of a discovery, and the digest of what was
read. No entry changes while it is read.
-/

namespace CodexFlow.Plugins

open Hook (CodePoint PyStr lit isSurrogate encodeSurrogatePass)
open Capsule (Checked byteLength)
open Contracts (slash PluginRequirement PluginCapabilitySnapshot)
open Checked

def maxDiscoveryEntries : ℕ := 4096
def maxBundleDepth : ℕ := 32
def maxBundleFiles : ℕ := 8192
def maxSingleFileBytes : ℕ := 16 * 1024 * 1024
def maxBundleBytes : ℕ := 256 * 1024 * 1024
def maxResolutionBytes : ℕ := 256 * 1024 * 1024

/-! ### Directories -/

/-- The entries of a directory, in the order in which they are visited. -/
inductive Directory where
  | empty
  | file (name : PyStr) (content : List UInt8) (rest : Directory)
  | directory (name : PyStr) (entries rest : Directory)
  | symlink (name : PyStr) (rest : Directory)
  /-- Neither a directory nor a regular file with one link. -/
  | special (name : PyStr) (rest : Directory)

namespace Directory

def names : Directory → List PyStr
  | .empty => []
  | .file name _ rest => name :: rest.names
  | .directory name _ rest => name :: rest.names
  | .symlink name rest => name :: rest.names
  | .special name rest => name :: rest.names

/-- No directory has two entries of one name. -/
def Distinct : Directory → Prop
  | .empty => True
  | .file name _ rest => name ∉ rest.names ∧ rest.Distinct
  | .directory name entries rest => name ∉ rest.names ∧ entries.Distinct ∧ rest.Distinct
  | .symlink name rest => name ∉ rest.names ∧ rest.Distinct
  | .special name rest => name ∉ rest.names ∧ rest.Distinct

end Directory

/-! ### Budgets -/

structure ReadBudget where
  entries : ℕ := 0
  bytesRead : ℕ := 0

namespace ReadBudget

/-- `add_entries` -/
def addEntries (b : ReadBudget) (count : ℕ) : Checked ReadBudget := do
  ensure (b.entries + count ≤ maxDiscoveryEntries)
    "plugin discovery exceeds its total-entry bound"
  pure { b with entries := b.entries + count }

/-- `add_bytes` -/
def addBytes (b : ReadBudget) (count : ℕ) : Checked ReadBudget := do
  ensure (b.bytesRead + count ≤ maxResolutionBytes)
    "plugin resolution exceeds its total-byte bound"
  pure { b with bytesRead := b.bytesRead + count }

end ReadBudget

/-! ### Reading a bundle -/

/-- What `_validate_name` admits. -/
def isEntryName (name : PyStr) : Bool :=
  name ∉ [[], lit ".", lit ".."] && !name.any isSurrogate && byteLength name ≤ 256 &&
    slash ∉ name && Git.nul ∉ name

/-- `_validate_name` -/
def validateName (name : PyStr) : Checked Unit :=
  ensure (isEntryName name) "plugin bundle contains an invalid entry name"

structure Walk where
  budget : ReadBudget
  files : List (PyStr × List UInt8) := []
  directories : List PyStr := [[]]
  total : ℕ := 0

/-- The path of an entry from the root of the bundle. -/
def childRelative (relative name : PyStr) : PyStr :=
  if relative = [] then name else relative ++ slash :: name

namespace Walk

/-- What `visit` does before it looks at an entry. -/
def enter (w : Walk) (depth : ℕ) (d : Directory) : Checked Walk := do
  ensure (depth ≤ maxBundleDepth) "plugin bundle exceeds its depth bound"
  d.names.forM validateName
  let budget ← w.budget.addEntries d.names.length
  pure { w with budget }

/-- What `visit` does with a regular file. -/
def addFile (w : Walk) (path : PyStr) (content : List UInt8) : Checked Walk := do
  ensure (w.files.length < maxBundleFiles) "plugin bundle exceeds its file-count bound"
  ensure (content.length ≤ maxSingleFileBytes) "plugin bundle file exceeds its byte bound"
  let budget ← w.budget.addBytes content.length
  ensure (w.total + content.length ≤ maxBundleBytes) "plugin bundle exceeds its total-byte bound"
  pure { w with budget, files := w.files ++ [(path, content)], total := w.total + content.length }

/-- The loop of `visit` over the entries of one directory. -/
def visit (relative : PyStr) (depth : ℕ) : Directory → Walk → Checked Walk
  | .empty, w => pure w
  | .file name content rest, w => do
    visit relative depth rest (← w.addFile (childRelative relative name) content)
  | .directory name entries rest, w => do
    let path := childRelative relative name
    let w ← enter { w with directories := w.directories ++ [path] } (depth + 1) entries
    visit relative depth rest (← visit path (depth + 1) entries w)
  | .symlink _ _, _ => .error "plugin bundle contains a symlink"
  | .special _ _, _ => .error "plugin bundle contains a non-regular or hardlinked file"

end Walk

/-- What is hashed: each name, a zero byte and the content, in the order of the names. -/
def digestInput (files : List (PyStr × List UInt8)) : List UInt8 :=
  (files.mergeSort fun a b => Hook.keyLE a.1 b.1).flatMap fun file =>
    encodeSurrogatePass file.1 ++ 0 :: file.2

structure BundleContents where
  digest : PyStr
  files : List (PyStr × List UInt8)
  directories : List PyStr

/-- `_read_bundle`, by the digest of bytes. -/
def readBundle (sha256 : List UInt8 → PyStr) (d : Directory) (budget : ReadBudget) :
    Checked (BundleContents × ReadBudget) := do
  let w ← Walk.enter { budget } 1 d
  let w ← Walk.visit [] 1 d w
  pure ({ w with digest := sha256 (digestInput w.files) }, w.budget)

/-! ### Requirements at a launch -/

/-- An identity as an error shows it. -/
def shown (text : PyStr) : String := String.ofList (text.map fun c => Char.ofNat c.val)

/-- `_check_requirement` -/
def checkRequirement (r : PluginRequirement) (s : PluginCapabilitySnapshot) : Checked Unit := do
  let id := shown r.canonicalId
  ensure s.enabled ("required plugin is disabled: " ++ id)
  ensure (s.readiness ≠ .setupRequired) ("required plugin needs setup: " ++ id)
  ensure (s.readiness ≠ .unsupported) ("required plugin is unsupported: " ++ id)
  ensure (s.readiness = .ready) ("required plugin readiness is unknown: " ++ id)
  ensure (s.version = r.version ∧ s.source = r.source)
    ("required plugin identity changed: " ++ id)
  ensure (s.bundleDigest = r.bundleDigest) ("required plugin bytes changed: " ++ id)
  ensure (r.bundledSkillIds.all (· ∈ s.bundledSkillIds))
    ("required bundled skill is unavailable: " ++ id)
  ensure (r.mcpConnectors.all (· ∈ s.mcpConnectors))
    ("required MCP connector is unavailable: " ++ id)

/-- A plugin as a discovery finds it: `_snapshot` takes the digest of what was read, and the skill
that is bound lies in the same directory. -/
structure Discovered where
  snapshot : PluginCapabilitySnapshot
  contents : BundleContents
  bundleDigest_eq : snapshot.bundleDigest = contents.digest

/-- `_verified_skill_input`, by what `_discover` finds of the plugin with an identity. -/
def verifiedSkillInput (requirements : List PluginRequirement)
    (expected : List PluginCapabilitySnapshot) (discover : PyStr → Checked Discovered) :
    Checked (Option Discovered) :=
  match requirements with
  | [] => do
    ensure (expected = []) "plugin capability snapshot exists without a requirement"
    pure none
  | r :: others => do
    ensure (others = [] ∧ expected.length = 1 ∧ r.bundledSkillIds.length = 1 ∧
      r.mcpConnectors = []) "v2 execution requires exactly one plugin and one bundled skill"
    let found ← discover r.canonicalId
    ensure ([found.snapshot] = expected)
      "required plugin snapshot or capability digest changed"
    checkRequirement r found.snapshot
    pure (some found)

/-! ### What a walk reads -/

namespace Directory

/-- The files below a directory, each with the names on the way to it. -/
def paths : Directory → List (List PyStr × List UInt8)
  | .empty => []
  | .file name content rest => ([name], content) :: rest.paths
  | .directory name entries rest =>
    (entries.paths.map fun file => (name :: file.1, file.2)) ++ rest.paths
  | .symlink _ rest => rest.paths
  | .special _ rest => rest.paths

def entriesBelow : Directory → ℕ
  | .empty => 0
  | .file _ _ rest => rest.entriesBelow
  | .directory _ entries rest => entries.names.length + entries.entriesBelow + rest.entriesBelow
  | .symlink _ rest => rest.entriesBelow
  | .special _ rest => rest.entriesBelow

/-- The bytes of the files below. -/
def size : Directory → ℕ
  | .empty => 0
  | .file _ content rest => content.length + rest.size
  | .directory _ entries rest => entries.size + rest.size
  | .symlink _ rest => rest.size
  | .special _ rest => rest.size

/-- What a walk at a depth asks of each entry by itself. -/
def Fits (depth : ℕ) : Directory → Prop
  | .empty => True
  | .file _ content rest => content.length ≤ maxSingleFileBytes ∧ rest.Fits depth
  | .directory _ entries rest => depth + 1 ≤ maxBundleDepth ∧
    (∀ name ∈ entries.names, isEntryName name = true) ∧ entries.Fits (depth + 1) ∧ rest.Fits depth
  | .symlink _ _ => False
  | .special _ _ => False

end Directory

namespace Walk

theorem enter_eq_ok {w w' : Walk} {depth : ℕ} {d : Directory} :
    w.enter depth d = .ok w' ↔ depth ≤ maxBundleDepth ∧
      (∀ name ∈ d.names, isEntryName name = true) ∧
      w.budget.entries + d.names.length ≤ maxDiscoveryEntries ∧
      { w with budget := { w.budget with entries := w.budget.entries + d.names.length } } = w' := by
  simp only [enter, ReadBudget.addEntries, steps_ok]
  constructor
  · rintro ⟨hdepth, _, hnames, _, ⟨hentries, rfl⟩, rfl⟩
    exact ⟨hdepth, fun name hmem => ensure_eq_ok.1 (forM_eq_ok.1 hnames name hmem), hentries, rfl⟩
  · rintro ⟨hdepth, hnames, hentries, rfl⟩
    exact ⟨hdepth, (), forM_eq_ok.2 fun name hmem => ensure_of (hnames name hmem) _, _,
      ⟨hentries, rfl⟩, rfl⟩

theorem addFile_eq_ok {w w' : Walk} {path : PyStr} {content : List UInt8} :
    w.addFile path content = .ok w' ↔ w.files.length < maxBundleFiles ∧
      content.length ≤ maxSingleFileBytes ∧
      w.budget.bytesRead + content.length ≤ maxResolutionBytes ∧
      w.total + content.length ≤ maxBundleBytes ∧
      { w with
        budget := { w.budget with bytesRead := w.budget.bytesRead + content.length }
        files := w.files ++ [(path, content)]
        total := w.total + content.length } = w' := by
  simp only [addFile, ReadBudget.addBytes, steps_ok]
  constructor
  · rintro ⟨hfiles, hcontent, _, ⟨hbytes, rfl⟩, htotal, rfl⟩
    exact ⟨hfiles, hcontent, hbytes, htotal, rfl⟩
  · rintro ⟨hfiles, hcontent, hbytes, htotal, rfl⟩
    exact ⟨hfiles, hcontent, _, ⟨hbytes, rfl⟩, htotal, rfl⟩

/-- A file as a walk puts it down. -/
def entryAt (relative : PyStr) (file : List PyStr × List UInt8) : PyStr × List UInt8 :=
  (file.1.foldl childRelative relative, file.2)

theorem visit_ok {relative : PyStr} {depth : ℕ} {d : Directory} :
    ∀ {w w' : Walk}, visit relative depth d w = .ok w' → d.Fits depth ∧
      w'.files = w.files ++ d.paths.map (entryAt relative) ∧
      w'.budget.entries = w.budget.entries + d.entriesBelow ∧
      w'.budget.bytesRead = w.budget.bytesRead + d.size ∧ w'.total = w.total + d.size := by
  induction d generalizing relative depth with
  | empty =>
    intro w w' h
    cases h
    exact ⟨trivial, (List.append_nil _).symm, rfl, rfl, rfl⟩
  | file name content rest ih =>
    intro w w' h
    obtain ⟨w₁, hfile, h⟩ := bind_eq_ok.1 h
    obtain ⟨-, hcontent, -, -, rfl⟩ := addFile_eq_ok.1 hfile
    obtain ⟨hfits, hfiles, hentries, hbytes, htotal⟩ := ih h
    refine ⟨⟨hcontent, hfits⟩, ?_, hentries, hbytes.trans (Nat.add_assoc ..),
      htotal.trans (Nat.add_assoc ..)⟩
    rw [hfiles, List.append_assoc]
    rfl
  | directory name entries rest ihEntries ihRest =>
    intro w w' h
    obtain ⟨w₁, henter, h⟩ := bind_eq_ok.1 h
    obtain ⟨hdepth, hnames, -, rfl⟩ := enter_eq_ok.1 henter
    obtain ⟨w₂, hbelow, h⟩ := bind_eq_ok.1 h
    obtain ⟨hfits, hfiles, hentries, hbytes, htotal⟩ := ihEntries hbelow
    obtain ⟨hfits', hfiles', hentries', hbytes', htotal'⟩ := ihRest h
    refine ⟨⟨hdepth, hnames, hfits, hfits'⟩, ?_, ?_, ?_, ?_⟩
    · rw [hfiles', hfiles, Directory.paths, List.map_append, List.map_map, List.append_assoc]
      rfl
    · rw [hentries', hentries, Directory.entriesBelow]
      dsimp only
      omega
    · rw [hbytes', hbytes, Directory.size]
      dsimp only
      omega
    · rw [htotal', htotal, Directory.size]
      dsimp only
      omega
  | symlink name rest => exact nofun
  | special name rest => exact nofun

/-- A walk ends where the bounds admit all that it finds. -/
theorem exists_visit {relative : PyStr} {depth : ℕ} {d : Directory} (hfits : d.Fits depth) :
    ∀ {w : Walk}, w.files.length + d.paths.length ≤ maxBundleFiles →
      w.budget.entries + d.entriesBelow ≤ maxDiscoveryEntries →
      w.budget.bytesRead + d.size ≤ maxResolutionBytes → w.total + d.size ≤ maxBundleBytes →
      ∃ w', visit relative depth d w = .ok w' := by
  induction d generalizing relative depth with
  | empty => exact fun _ _ _ _ => ⟨_, rfl⟩
  | file name content rest ih =>
    intro w hfiles hentries hbytes htotal
    obtain ⟨hcontent, hfits⟩ := hfits
    rw [Directory.paths, List.length_cons] at hfiles
    rw [Directory.size] at hbytes htotal
    obtain ⟨w₁, hfile⟩ : ∃ w₁, w.addFile (childRelative relative name) content = .ok w₁ :=
      ⟨_, addFile_eq_ok.2 ⟨by omega, hcontent, by omega, by omega, rfl⟩⟩
    obtain ⟨-, -, -, -, hw₁⟩ := addFile_eq_ok.1 hfile
    have hlength : w₁.files.length = w.files.length + 1 := by
      rw [← hw₁]
      exact List.length_append
    have hentries₁ : w₁.budget.entries = w.budget.entries := hw₁ ▸ rfl
    have hbytes₁ : w₁.budget.bytesRead = w.budget.bytesRead + content.length := hw₁ ▸ rfl
    have htotal₁ : w₁.total = w.total + content.length := hw₁ ▸ rfl
    obtain ⟨w', h⟩ := @ih relative depth hfits w₁ (by omega) (by rw [hentries₁]; exact hentries)
      (by omega) (by omega)
    exact ⟨w', bind_eq_ok.2 ⟨_, hfile, h⟩⟩
  | directory name entries rest ihEntries ihRest =>
    intro w hfiles hentries hbytes htotal
    obtain ⟨hdepth, hnames, hfits, hfits'⟩ := hfits
    rw [Directory.paths, List.length_append, List.length_map] at hfiles
    rw [Directory.entriesBelow] at hentries
    rw [Directory.size] at hbytes htotal
    let path := childRelative relative name
    obtain ⟨w₁, henter⟩ : ∃ w₁,
        enter { w with directories := w.directories ++ [path] } (depth + 1) entries = .ok w₁ :=
      ⟨_, enter_eq_ok.2 ⟨hdepth, hnames, by dsimp only; omega, rfl⟩⟩
    obtain ⟨-, -, -, hw₁⟩ := enter_eq_ok.1 henter
    have hfiles₁ : w₁.files = w.files := hw₁ ▸ rfl
    have hentries₁ : w₁.budget.entries = w.budget.entries + entries.names.length := hw₁ ▸ rfl
    have hbytes₁ : w₁.budget.bytesRead = w.budget.bytesRead := hw₁ ▸ rfl
    have htotal₁ : w₁.total = w.total := hw₁ ▸ rfl
    obtain ⟨w₂, hinner⟩ := @ihEntries path (depth + 1) hfits w₁ (by rw [hfiles₁]; omega)
      (by omega) (by omega) (by omega)
    obtain ⟨-, hfiles₂, hentries₂, hbytes₂, htotal₂⟩ := visit_ok hinner
    have hlength : w₂.files.length = w.files.length + entries.paths.length := by
      rw [hfiles₂, hfiles₁, List.length_append, List.length_map]
    obtain ⟨w', h⟩ := @ihRest relative depth hfits' w₂ (by omega) (by omega) (by omega) (by omega)
    exact ⟨w', bind_eq_ok.2 ⟨_, henter, bind_eq_ok.2 ⟨_, hinner, h⟩⟩⟩
  | symlink name rest => exact hfits.elim
  | special name rest => exact hfits.elim

end Walk

end CodexFlow.Plugins
