import CodexFlow.Git.Paths
import Mathlib

/-!
# Digests of protected content

The three hashers that compare content before and after a turn: the tracked files under protected
paths, the entries of the Git authority, and the tree of a workspace path. The first two hash names
and contents one after another without a separator, so that distinct content meets in one digest.
-/

namespace CodexFlow.Git

open Hook (CodePoint PyStr codePoint lit isSurrogate)

abbrev Bytes := List UInt8

/-- `text.encode()`: a lone surrogate raises. -/
def encode (text : PyStr) : Option Bytes :=
  if text.any isSurrogate then none else some (Hook.encodeSurrogatePass text)

def isHexDigit (c : CodePoint) : Bool :=
  (0x30 ≤ c.val && c.val ≤ 0x39) || (0x61 ≤ c.val && c.val ≤ 0x66)

/-- `hashlib.sha256(data).hexdigest()`, taken as injective. -/
structure Sha256 where
  hexdigest : Bytes → PyStr
  isHex : ∀ data, (hexdigest data).all isHexDigit = true
  injective : Function.Injective hexdigest

/-- `b"\0missing\0"` -/
def missingMarker : Bytes := [0, 0x6D, 0x69, 0x73, 0x73, 0x69, 0x6E, 0x67, 0]

/-! ### Protected paths -/

/-- What is read at a tracked name of a worktree. -/
inductive WorktreeFile where
  | file (content : Bytes)
  | absent
  | symlink

/-- What `git show` gives for a name of a revision. -/
inductive RevisionFile where
  | blob (content : Bytes)
  | unreadable

/-- The bytes that stand for a worktree's file: a symbolic link raises. -/
def WorktreeFile.hashed : WorktreeFile → Option Bytes
  | .file content => some content
  | .absent => some missingMarker
  | .symlink => none

def RevisionFile.hashed : RevisionFile → Option Bytes
  | .blob content => some content
  | .unreadable => none

/-- A listing command on a pathspec: `none` where it fails, else the names that it prints. -/
abbrev Listing := PyStr → Option (PyStr → Bool)

variable {ε : Type}

/-- The command run on a path: an embedded NUL raises. -/
def Listing.run (list : Listing) (relative : PyStr) : Option (PyStr → Bool) :=
  if nul ∈ relative then none else list relative

/-- The tracked names with what is read there. -/
abbrev Tracked (ε : Type) := List (PyStr × ε)

def sortedNames (files : Tracked ε) : Tracked ε :=
  files.mergeSort fun a b => Hook.keyLE a.1 b.1

def fileBytes (hashed : ε → Option Bytes) (file : PyStr × ε) : Option Bytes := do
  let content ← hashed file.2
  let name ← encode file.1
  some (name ++ content)

def pathBytes (list : Listing) (hashed : ε → Option Bytes) (files : Tracked ε)
    (relative : PyStr) : Option Bytes := do
  let label ← encode relative
  let covers ← list.run relative
  let listed := sortedNames (files.filter fun file => covers file.1)
  if listed = [] then some (label ++ missingMarker)
  else do
    let parts ← listed.mapM (fileBytes hashed)
    some (label ++ parts.flatten)

def protectedBytes (list : Listing) (hashed : ε → Option Bytes) (files : Tracked ε)
    (paths : List PyStr) : Option Bytes := do
  let parts ← (paths.mergeSort fun a b => Hook.keyLE a b).mapM (pathBytes list hashed files)
  some parts.flatten

/-- `protected_paths_digest`; `lsFiles` is `git ls-files --cached -z --`. -/
def protectedPathsDigest (sha : Sha256) (lsFiles : Listing) (files : Tracked WorktreeFile)
    (paths : List PyStr) : Option PyStr :=
  (protectedBytes lsFiles WorktreeFile.hashed files paths).map sha.hexdigest

/-- `protected_paths_digest_at_revision`; `lsTree` is `git ls-tree -r --name-only -z revision --`. -/
def protectedPathsDigestAtRevision (sha : Sha256) (lsTree : Listing) (files : Tracked RevisionFile)
    (paths : List PyStr) : Option PyStr :=
  (protectedBytes lsTree RevisionFile.hashed files paths).map sha.hexdigest

/-! ### Git authority -/

/-- What `lstat` says of an entry. -/
inductive AuthorityFile where
  | missing
  | regular (content : Bytes)
  | other

def maxAuthorityFiles : ℕ := 4096

def maxAuthorityBytes : ℕ := 16 * 1024 * 1024

def AuthorityFile.content : AuthorityFile → Option Bytes
  | .regular content => some content
  | _ => none

/-- The bytes that stand for an entry: an object that is not a file raises. -/
def AuthorityFile.hashed : AuthorityFile → Option Bytes
  | .missing => some missingMarker
  | .regular content => some content
  | .other => none

def authorityBytes (entries : Tracked AuthorityFile) : Option Bytes := do
  let sorted := sortedNames entries
  let files := sorted.filterMap fun entry => entry.2.content
  if files.length ≤ maxAuthorityFiles ∧ (files.map (·.length)).sum ≤ maxAuthorityBytes then do
    let parts ← sorted.mapM (fileBytes AuthorityFile.hashed)
    some parts.flatten
  else none

/-- The loop of `_stable_git_tree_digest` over its entries. -/
def stableGitTreeDigest (sha : Sha256) (entries : Tracked AuthorityFile) : Option PyStr :=
  (authorityBytes entries).map sha.hexdigest

/-! ### Workspace paths -/

/-- `stat.S_IMODE` -/
abbrev Mode := Fin 4096

instance neZero_modes : NeZero (4095 + 1) := inferInstance

/-- A file system object; the children of a directory are in the order of their names. -/
inductive Node where
  | file (mode : Mode) (links : ℕ) (content : Bytes)
  | directory (mode : Mode) (children : List (PyStr × Node))
  | symlink
  | special

def Node.isDirectory : Node → Bool
  | .directory .. => true
  | _ => false

mutual

/-- What `os.walk` meets in a directory whose names begin with `at_`, without what is ignored. -/
def walkNode (ignored : PyStr → Bool) (at_ : PyStr) : Node → List (PyStr × Node)
  | .directory _ children =>
    let kept := (children.map fun child => (at_ ++ child.1, child.2)).filter
      fun child => !ignored child.1
    kept.filter (·.2.isDirectory) ++ kept.filter (!·.2.isDirectory) ++
      walkBelow ignored at_ children
  | _ => []

/-- The walks of the directories among the children. -/
def walkBelow (ignored : PyStr → Bool) (at_ : PyStr) : List (PyStr × Node) → List (PyStr × Node)
  | [] => []
  | (name, node) :: children =>
    (if ignored (at_ ++ name) then [] else walkNode ignored (at_ ++ name ++ [slash]) node) ++
      walkBelow ignored at_ children

end

/-- `f"{mode:04o}"` -/
def octal (mode : Mode) : PyStr :=
  [mode / 512, mode / 64 % 8, mode / 8 % 8, mode % 8].map fun digit =>
    codePoint (Char.ofNat (0x30 + digit.val))

def colon : CodePoint := codePoint ':'

def maxScanEntries : ℕ := 100000

def maxScanDepth : ℕ := 64

def maxPathBytes : ℕ := 4096

def maxFileBytes : ℕ := 536870912

def maxTotalBytes : ℕ := 2147483648

/-- `len(os.fsencode(text))`: an escaped byte is one byte. -/
def fsencodeLength (text : PyStr) : ℕ :=
  (text.map fun c => if isSurrogate c then 1 else (Hook.utf8Bytes c).length).sum

/-- The line of one entry: an object that the baseline refuses raises. -/
def entryLine (sha : Sha256) (entry : PyStr × Node) : Option PyStr :=
  if fsencodeLength entry.1 ≤ maxPathBytes ∧
      (PurePath.new entry.1).parts.length ≤ maxScanDepth then
    match entry.2 with
    | .directory mode _ => some (lit "d:" ++ octal mode ++ colon :: entry.1)
    | .file mode links content =>
      if links = 1 ∧ content.length ≤ maxFileBytes then
        some (lit "f:" ++ octal mode ++ colon :: entry.1 ++ colon :: sha.hexdigest content)
      else none
    | _ => none
  else none

def Node.size : Node → ℕ
  | .file _ _ content => content.length
  | _ => 0

def directoryText (sha : Sha256) (mode : Mode) (entries : List (PyStr × Node)) : Option PyStr := do
  let lines ← entries.mapM (entryLine sha)
  if entries.length ≤ maxScanEntries ∧ (entries.map (·.2.size)).sum ≤ maxTotalBytes then
    some ([lineFeed].intercalate ((lit "root:" ++ octal mode) :: lines))
  else none

/-- `_path_signature` of what is at a path that is not ignored. -/
def pathSignature (sha : Sha256) (ignored : PyStr → Bool) : Option Node → Option PyStr
  | none => some (lit "missing")
  | some (.file mode links content) =>
    if links = 1 ∧ content.length ≤ maxFileBytes then do
      let prelude ← encode (octal mode ++ [nul])
      some (lit "file:" ++ sha.hexdigest (prelude ++ content))
    else none
  | some (.directory mode children) => do
    let text ← directoryText sha mode (walkNode ignored [] (.directory mode children))
    let data ← encode text
    some (lit "directory:" ++ sha.hexdigest data)
  | some _ => none

end CodexFlow.Git
