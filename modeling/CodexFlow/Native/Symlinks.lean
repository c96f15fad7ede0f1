import CodexFlow.Lib.Checked
import CodexFlow.Lib.Pieces
import CodexFlow.Lib.Table
import Mathlib

/-!
# Symbolic links of a discovery surface

`_validate_discovery_symlinks` follows each link of a captured tree by the text of its target, and
the kernel follows it by the directories that are there.
-/

namespace CodexFlow.Native

open Checked

abbrev Bytes := List UInt8

def slash : UInt8 := 0x2f

def dot : Bytes := [0x2e]

def dotdot : Bytes := [0x2e, 0x2e]

/-! ### posixpath -/

/-- The loop of `normpath`, on the components that it has kept. -/
def normStep (absolute : Bool) (kept : List Bytes) (component : Bytes) : List Bytes :=
  if component = [] ∨ component = dot then kept
  else if component ≠ dotdot ∨ absolute = false ∧ kept = [] ∨ kept.getLast? = some dotdot then
    kept ++ [component]
  else kept.dropLast

/-- One leading slash, or two when there are exactly two. -/
def initialSlashes (path : Bytes) : Bytes :=
  match path.takeWhile (· = slash) with
  | [] => []
  | [_, _] => [slash, slash]
  | _ => [slash]

/-- `os.path.isabs` -/
def isAbs (path : Bytes) : Bool := path.head? = some slash

def normComponents (path : Bytes) : List Bytes :=
  (path.splitOn slash).foldl (normStep (isAbs path)) []

def normpath (path : Bytes) : Bytes :=
  let normal := initialSlashes path ++ [slash].intercalate (normComponents path)
  if normal = [] then dot else normal

/-- `posixpath.dirname` of a path without leading or doubled slashes. -/
def dirname (path : Bytes) : Bytes := [slash].intercalate (path.splitOn slash).dropLast

def join (directory path : Bytes) : Bytes :=
  if isAbs path then path
  else if directory = [] ∨ directory.getLast? = some slash then directory ++ path
  else directory ++ slash :: path

/-! ### The captured tree -/

inductive Entry where
  | directory
  | regular
  | symlink (target : Bytes)
deriving DecidableEq

/-- A name that a directory can hold. -/
structure IsName (name : Bytes) : Prop where
  full : name ≠ []
  notDot : name ≠ dot
  notDotdot : name ≠ dotdot
  clean : slash ∉ name

/-- A path below the root, as its key has it. -/
def keyOf (names : List Bytes) : Bytes := [slash].intercalate names

/-- What `_scan_discovery_directory` captures: an entry lies in a directory that is the root or an
entry too. The root is known by the names on the way to it. -/
structure Tree where
  root : List Bytes
  entries : Table Bytes Entry
  rootNames : ∀ name ∈ root, IsName name
  keys : ∀ key ∈ entries.keys, ∃ names name, (∀ n ∈ names, IsName n) ∧ IsName name ∧
    key = keyOf (names ++ [name])
  parents : ∀ names name, (∀ n ∈ names, IsName n) → IsName name →
    keyOf (names ++ [name]) ∈ entries.keys → names ≠ [] →
    entries.get? (keyOf names) = some .directory

/-- `_MAX_DISCOVERY_DEPTH` -/
def maxDiscoveryDepth : ℕ := 64

/-- `_MAX_DISCOVERY_PATH_BYTES` -/
def maxDiscoveryPathBytes : ℕ := 4096

namespace Tree

variable (t : Tree) (label : String)

/-- `os.fsencode(os.fspath(root))` -/
def rootBytes : Bytes := slash :: keyOf t.root

/-! ### The validator -/

/-- The target of a link below the root, as `_symlink_target_parts` computes it. -/
def relativeTarget (relative target : Bytes) : Except String Bytes :=
  if isAbs target then
    let normalized := normpath target
    if normalized = t.rootBytes then .ok []
    else if t.rootBytes ++ [slash] <+: normalized then
      .ok (normalized.drop (t.rootBytes.length + 1))
    else .error s!"{label} symlink escapes the discovery root"
  else
    let relativeTarget := normpath (join (dirname relative) target)
    if relativeTarget = dot ∨ relativeTarget = [] then .ok []
    else if relativeTarget = dotdot ∨ dotdot ++ [slash] <+: relativeTarget then
      .error s!"{label} symlink escapes the discovery root"
    else .ok relativeTarget

/-- `_symlink_target_parts` -/
def symlinkTargetParts (relative target : Bytes) : Except String (List Bytes) := do
  ensure (0 ∉ target) s!"{label} contains an unsafe symlink target"
  let relativeTarget ← t.relativeTarget label relative target
  ensure (relativeTarget.length ≤ maxDiscoveryPathBytes)
    s!"{label} contains an overlong resolved symlink target"
  pure (Pieces.names slash relativeTarget)

/-- The loop of `_validate_discovery_symlinks` up to the next link, which `onLink` follows. -/
def scanParts (onLink : Bytes → Bytes → List Bytes → Except String (List Bytes)) :
    List Bytes → List Bytes → Except String (List Bytes)
  | resolved, [] => .ok resolved
  | resolved, part :: pending =>
    match t.entries.get? (keyOf (resolved ++ [part])) with
    | none => .error s!"{label} contains a dangling symlink"
    | some (.symlink target) => onLink (keyOf (resolved ++ [part])) target pending
    | some .directory => scanParts onLink (resolved ++ [part]) pending
    | some .regular => do
      ensure (pending = []) s!"{label} symlink traverses a non-directory entry"
      scanParts onLink (resolved ++ [part]) pending

/-- The loop, with the number of links that it may still follow. -/
def followLinks : ℕ → List Bytes → List Bytes → List Bytes → Except String (List Bytes)
  | 0, _, resolved, pending =>
    t.scanParts label (fun _ _ _ => .error s!"{label} contains a cyclic or over-deep symlink")
      resolved pending
  | hops + 1, visited, resolved, pending =>
    t.scanParts label
      (fun candidate target pending => do
        ensure (candidate ∉ visited) s!"{label} contains a cyclic or over-deep symlink"
        let parts ← t.symlinkTargetParts label candidate target
        followLinks hops (candidate :: visited) [] (parts ++ pending))
      resolved pending

/-- `active_ancestors` -/
def activeAncestors (relative : Bytes) : List Bytes :=
  let directory := (dirname relative).splitOn slash
  [] :: (List.range (directory.length + 1)).map fun depth => keyOf (directory.take depth)

/-- One round of `_validate_discovery_symlinks`. -/
def validateSymlink (relative target : Bytes) : Except String Unit := do
  let pending ← t.symlinkTargetParts label relative target
  let resolved ← t.followLinks label maxDiscoveryDepth [relative] [] pending
  ensure (keyOf resolved ∉ activeAncestors relative)
    s!"{label} contains a cyclic symlink to an active ancestor"

def validateEntry : Bytes × Entry → Except String Unit
  | (relative, .symlink target) => t.validateSymlink label relative target
  | _ => .ok ()

/-- `_validate_discovery_symlinks` -/
def validateDiscoverySymlinks : Except String Unit :=
  t.entries.entries.forM (t.validateEntry label)

/-! ### The kernel -/

/-- The entry that lies below the root under these names; a name has no slash. -/
def entryAt (names : List Bytes) : Option Entry :=
  if ∀ name ∈ names, slash ∉ name then t.entries.get? (keyOf names) else none

/-- What an absolute path names, where the tree tells: the directories on the way to the root, the
root, and the entries below it. -/
def node (path : List Bytes) : Option Entry :=
  if path <+: t.root then some .directory
  else if t.root <+: path then t.entryAt (path.drop t.root.length)
  else none

/-- The kernel takes the next component of a path from the directory where it stands; it does not
leave the root upwards. -/
def move (place : List Bytes) : List Bytes → Option (List Bytes × List Bytes)
  | [] => none
  | component :: rest =>
    if component = [] ∨ component = dot then some (place, rest)
    else if component = dotdot then
      if t.root <+: place ∧ ¬ t.root <+: place.dropLast then none else some (place.dropLast, rest)
    else
      match t.node (place ++ [component]) with
      | some .directory => some (place ++ [component], rest)
      | some .regular => if rest = [] then some (place ++ [component], []) else none
      | some (.symlink target) =>
        some (if isAbs target then [] else place, target.splitOn slash ++ rest)
      | none => none

/-- The kernel walks the components and ends at a path. -/
inductive Walks : List Bytes → List Bytes → List Bytes → Prop
  | done {place : List Bytes} : Walks place [] place
  | step {place components place' components' final : List Bytes}
      (hmove : t.move place components = some (place', components'))
      (h : Walks place' components' final) : Walks place components final

end Tree

end CodexFlow.Native
