import CodexFlow.Git.Paths
import CodexFlow.Lib.Checked
import CodexFlow.Lib.Dag
import Mathlib

/-!
# Ownership of a history

The two walks that admit a history only when every path it touches is owned: the manager's
`_validate_candidate_history` over the text of `git diff-tree`, and the controller's
`_assert_workspace_history` over its bytes. A repository is its commit graph with the paths changed
between a commit and each of its parents.
-/

namespace CodexFlow.Git

open Hook (PyStr lit isSurrogate)
open Checked

variable {Commit : Type} [DecidableEq Commit]

/-! ### Repositories -/

structure Repository (Commit : Type) where
  history : Dag Commit
  /-- The paths that differ between a commit and one of its parents. -/
  changed : Commit → Commit → List TreePath
  /-- The paths of a root commit. -/
  tree : Commit → List TreePath

namespace Repository

variable (R : Repository Commit)

/-- `git merge-base --is-ancestor base tip` -/
def isAncestor (base tip : Commit) : Bool := base ∈ R.history.ancestors tip

/-- `git rev-list --reverse base..tip` -/
def revList (base tip : Commit) : List Commit :=
  ((R.history.ancestors tip).filter fun commit => commit ∉ R.history.ancestors base).reverse

/-- `git rev-list --reverse --ancestry-path base..tip` -/
def revListAncestryPath (base tip : Commit) : List Commit :=
  (R.revList base tip).filter fun commit => base ∈ R.history.ancestors commit

/-- `git diff-tree --no-commit-id --name-only -r -z commit`, with `--root` and with `-m`. -/
def diffTree (root merges : Bool) (commit : Commit) : List TreePath :=
  match R.history.parents commit with
  | [] => if root then R.tree commit else []
  | [parent] => R.changed commit parent
  | parents => if merges then parents.flatMap (R.changed commit) else []

end Repository

/-- What the walks read of an `ExecutionCapsule`. -/
structure CapsuleScope (Commit : Type) where
  workspacePath : PurePath
  branch : PyStr
  baseSha : Commit
  mutablePaths : List PyStr
  protectedPaths : List PyStr

/-! ### The candidate walk -/

inductive CandidateIntegrityError
  | workspace
  | notDescended
  | notAhead
  | undecodable
  | nonRelative
  | protectedPath
  | outside
deriving DecidableEq

namespace CandidateIntegrityError

def message : CandidateIntegrityError → String
  | workspace => "candidate workspace does not match the capsule"
  | notDescended => "candidate commit does not descend from the capsule base"
  | notAhead => "candidate commit is not ahead of the capsule base"
  -- the decoder's own error
  | undecodable => ""
  | nonRelative => "candidate commit contains a non-relative path"
  | protectedPath => "candidate commit changes a protected path"
  | outside => "candidate commit changes a path outside capsule ownership"

end CandidateIntegrityError

/-- `owned`, of a path as the walk reads it. -/
def owned (capsule : CapsuleScope Commit) (path : PyStr) : Except CandidateIntegrityError Unit := do
  let candidate := PurePath.new path
  ensure (¬ candidate.isAbsolute ∧ lit ".." ∉ candidate.parts ∧ candidate.asPosix = path) .nonRelative
  ensure (¬ capsule.protectedPaths.any fun item => candidate.isWithin (.new item)) .protectedPath
  ensure (capsule.mutablePaths.any fun item => candidate.isWithin (.new item)) .outside

def runText (bytes : PyStr) : Except CandidateIntegrityError PyStr :=
  match decodeText bytes with
  | none => throw .undecodable
  | some text => pure text

def validateCommit (R : Repository Commit) (capsule : CapsuleScope Commit) (commit : Commit) :
    Except CandidateIntegrityError Unit := do
  let text ← runText (listing (R.diffTree true true commit))
  (splitPaths (strip text)).forM (owned capsule)

/-- `_validate_candidate_history` -/
def validateCandidateHistory (R : Repository Commit) (capsule : CapsuleScope Commit)
    (workspace : PurePath) (candidateSha : Commit) (baseSha : Option Commit) :
    Except CandidateIntegrityError Unit := do
  ensure (capsule.workspacePath = workspace) .workspace
  let selectedBase := baseSha.getD capsule.baseSha
  ensure (R.isAncestor selectedBase candidateSha) .notDescended
  let commits := R.revList selectedBase candidateSha
  ensure (commits ≠ []) .notAhead
  commits.forM (validateCommit R capsule)

/-! ### The workspace walk -/

inductive WorkspaceHistoryError
  | branchUnreadable
  | branchChanged
  | notFromCapsuleBase
  | notFromBaseline
  | outside (paths : List PyStr)
deriving DecidableEq

namespace WorkspaceHistoryError

def message : WorkspaceHistoryError → PyStr
  | branchUnreadable => lit "unable to inspect Git workspace: symbolic-ref --quiet --short HEAD"
  | branchChanged => lit "workspace branch changed during execution"
  | notFromCapsuleBase => lit "workspace history no longer descends from the capsule base"
  | notFromBaseline => lit "workspace history no longer descends from the milestone baseline"
  | outside paths => lit "committed workspace changes outside mutable paths: " ++
      (lit ", ").intercalate (paths.dedup.mergeSort fun a b => a ≤ b)

end WorkspaceHistoryError

/-- `_committed_workspace_paths`, read as bytes. -/
def committedWorkspacePaths (R : Repository Commit) (head baseline : Commit) : List PyStr :=
  (R.revListAncestryPath baseline head).flatMap fun commit =>
    splitPaths (listing (R.diffTree false ((R.history.parents commit).length > 1) commit))

/-- `_path_is_owned` -/
def pathIsOwned (path : PyStr) (roots : List PyStr) : Bool :=
  roots.any fun root => (PurePath.new path).isWithin (.new root)

/-- `_assert_workspace_history`: `branch` is what `git symbolic-ref` prints. -/
def assertWorkspaceHistory (R : Repository Commit) (capsule : CapsuleScope Commit)
    (branch : Option PyStr) (head baseline : Commit) (mutablePaths : Option (List PyStr)) :
    Except WorkspaceHistoryError Unit := do
  ensure branch.isSome .branchUnreadable
  ensure (branch.map strip = some capsule.branch) .branchChanged
  ensure (R.isAncestor capsule.baseSha head) .notFromCapsuleBase
  ensure (R.isAncestor baseline head) .notFromBaseline
  let ownedRoots := mutablePaths.getD capsule.mutablePaths
  let outside := (committedWorkspacePaths R head baseline).filter fun path =>
    !pathIsOwned path ownedRoots
  ensure (outside = []) (.outside outside)

end CodexFlow.Git
