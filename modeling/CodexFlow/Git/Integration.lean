import CodexFlow.Git.History
import CodexFlow.Lib.Scripted

/-!
# Integration of a candidate

`integrate_candidate`, one Git command at a time. The world is the trunk with its ref and its
checkout, and the candidate's workspace; an event says whether a command succeeds, what time it is
and which checkout a `read-tree` leaves. The script of a call may end between any two commands.
-/

namespace CodexFlow.Git

open Hook (PyStr lit)
open Scripted

variable {Commit Tree : Type} [DecidableEq Commit] [DecidableEq Tree]

/-! ### The world -/

inductive Strategy
  | merge
  | fastForward
  | cherryPick
deriving DecidableEq

namespace Strategy

def text : Strategy → PyStr
  | merge => lit "merge"
  | fastForward => lit "fast_forward"
  | cherryPick => lit "cherry_pick"

def all : List Strategy := [merge, fastForward, cherryPick]

def ofText (text : PyStr) : Option Strategy := all.find? fun strategy => strategy.text = text

/-- `strategy.replace('_', '-')` -/
def dashed (strategy : Strategy) : PyStr :=
  strategy.text.map fun c => if c = Hook.codePoint '_' then Hook.codePoint '-' else c

end Strategy

/-- What the object store answers: a commit determines its tree and its parents, and `commit-tree`
drops a parent that is named twice. -/
structure Objects (Commit Tree : Type) [DecidableEq Commit] where
  sha : Commit → PyStr
  tree : Commit → Tree
  parents : Commit → List Commit
  isAncestor : Commit → Commit → Bool
  mergeTree : Option Commit → Commit → Commit → Option Tree
  commitTree : ℕ → Tree → List Commit → PyStr → Commit
  tree_commitTree : ∀ time tree' ps message, tree (commitTree time tree' ps message) = tree'
  parents_commitTree : ∀ time tree' ps message,
    parents (commitTree time tree' ps message) = ps.eraseDups

/-- What the file system and the repository's layout answer. -/
structure Layout where
  rawChain : PyStr → Bool
  resolve : PyStr → Option PurePath
  existingChain : PurePath → Bool
  isDirectory : PurePath → Bool
  toplevel : PurePath → Option PurePath
  commonDirectory : PurePath → Option PurePath

structure Site (Commit Tree : Type) [DecidableEq Commit] where
  objects : Objects Commit Tree
  layout : Layout
  /-- The commits that the history of a candidate is read from. -/
  repository : Repository Commit

/-- The index, the tracked files and the files that are neither tracked nor ignored. -/
structure Checkout (Tree : Type) where
  index : Tree
  worktree : Tree
  untracked : List PyStr
deriving DecidableEq

structure CandidateCheckout (Commit : Type) where
  branch : Option PyStr
  head : Commit
  clean : Bool
deriving DecidableEq

structure World (Commit Tree : Type) where
  head : Commit
  /-- What `HEAD` names: `none` when it is detached. -/
  headRef : Option PyStr
  checkout : Checkout Tree
  candidate : CandidateCheckout Commit
  /-- The moves of the trunk's ref, oldest first. -/
  reflog : List (Commit × Commit)

structure Event (Tree : Type) where
  succeeds : Bool
  time : ℕ
  left : Checkout Tree

inductive IntegrationError
  | worktree (text : String)
  | conflict (text : String)
  | integrity (error : CandidateIntegrityError)
deriving DecidableEq

structure IntegrationRequest (Commit : Type) where
  repositoryRoot : PyStr
  candidateWorkspace : PyStr
  candidateBranch : PyStr
  candidateSha : Commit
  expectedTrunkHead : Commit
  strategy : PyStr
  capsule : Option (CapsuleScope Commit)

structure IntegrationReceipt (Commit Tree : Type) where
  beforeTrunkHead : Commit
  afterTrunkHead : Commit
  candidateSha : Commit
  candidateBranch : PyStr
  candidateWorkspace : PurePath
  strategy : Strategy
  recovered : Bool
  parents : List Commit
  tree : Tree
deriving DecidableEq

abbrev Command (Commit Tree : Type) :=
  Scripted (World Commit Tree) (Event Tree) IntegrationError

/-! ### Single commands -/

section Commands

variable {α : Type}

/-- A command that only reads; its failure, or an answer it cannot give, raises `error`. -/
def inspect (error : IntegrationError) (read : World Commit Tree → Option α) :
    Command Commit Tree α := do
  let event ← next
  let world ← world
  match event.succeeds, read world with
  | true, some answer => pure answer
  | _, _ => fail error

def succeeds (read : World Commit Tree → Bool) : Command Commit Tree Bool := do
  let event ← next
  let world ← world
  pure (event.succeeds && read world)

/-- `_git` with the arguments that its error names. -/
def git (arguments : String) (read : World Commit Tree → Option α) : Command Commit Tree α :=
  inspect (.worktree ("git " ++ arguments ++ " failed")) read

/-- `raise error` unless `c` holds. -/
def require (c : Prop) [Decidable c] (error : IntegrationError) : Command Commit Tree Unit :=
  if c then pure () else fail error

end Commands

variable (objects : Objects Commit Tree)

def revParseHead : Command Commit Tree Commit :=
  git "rev-parse --verify HEAD^{commit}" fun world => some world.head

def revParseCandidate : Command Commit Tree Commit :=
  git "rev-parse --verify HEAD^{commit}" fun world => some world.candidate.head

def revParseTree (commit : Commit) : Command Commit Tree Tree :=
  git "rev-parse --verify ^{tree}" fun _ => some (objects.tree commit)

/-- `_commit_parents` -/
def commitParents (commit : Commit) : Command Commit Tree (List Commit) :=
  git "rev-list --parents -n 1" fun _ => some (objects.parents commit)

/-- `_merge_tree` -/
def mergeTree (left right : Commit) (mergeBase : Option Commit) :
    Command Commit Tree (Option Tree) := do
  let event ← next
  pure (if event.succeeds then objects.mergeTree mergeBase left right else none)

def commitTree (tree : Tree) (parents : List Commit) (message : PyStr) :
    Command Commit Tree Commit := do
  let event ← next
  if event.succeeds then pure (objects.commitTree event.time tree parents message)
  else fail (.worktree "git commit-tree failed")

/-- `git update-ref trunk_ref new old` moves the ref only from `old`. -/
def updateRef (new old : Commit) : Command Commit Tree Bool := do
  let event ← next
  let world ← world
  if event.succeeds ∧ world.head = old then do
    update fun world => { world with head := new, reflog := world.reflog ++ [(old, new)] }
    pure true
  else pure false

/-- `git read-tree --reset -u target`: a failure may leave any checkout. -/
def readTree (target : Commit) : Command Commit Tree Bool := do
  let event ← next
  if event.succeeds then do
    update fun world => { world with checkout :=
      { index := objects.tree target, worktree := objects.tree target,
        untracked := event.left.untracked } }
    pure true
  else do
    update fun world => { world with checkout := event.left }
    pure false

/-- `git symbolic-ref --quiet HEAD`, which must name a branch. -/
def requireTrunkRef : Command Commit Tree PyStr := do
  let trunkRef ← git "symbolic-ref --quiet HEAD" fun world => world.headRef
  require ((lit "refs/heads/").isPrefixOf trunkRef)
    (.conflict "integration trunk HEAD is not an exact branch authority")
  pure trunkRef

/-! ### Checkouts -/

/-- `git status` has nothing to print of the trunk. -/
def World.Clean (world : World Commit Tree) : Prop :=
  world.checkout.index = objects.tree world.head ∧
    world.checkout.worktree = world.checkout.index ∧ world.checkout.untracked = []

instance (world : World Commit Tree) : Decidable (world.Clean objects) := by
  unfold World.Clean
  infer_instance

/-- `_require_clean_checkout` -/
def requireCleanCheckout (label : String) (clean : World Commit Tree → Bool) :
    Command Commit Tree Unit := do
  let isClean ← inspect (.worktree ("unable to inspect " ++ label ++ " topology")) fun world =>
    some (clean world)
  require isClean (.conflict (label ++ " workspace is not clean"))

def requireCleanTrunk (label : String) : Command Commit Tree Unit :=
  requireCleanCheckout label fun world => world.Clean objects

def requireCleanCandidate : Command Commit Tree Unit :=
  requireCleanCheckout "candidate" fun world => world.candidate.clean

/-- The names that `git ls-files` prints, one on each line. -/
def printed (names : List PyStr) : PyStr := names.flatMap fun name => name ++ [lineFeed]

/-- `_checkout_matches_head` -/
def checkoutMatchesHead (expectedHead : Commit) : Command Commit Tree Bool := do
  let indexed ← inspect (.worktree "Git integration index identity is unavailable") fun world =>
    some (decide (world.checkout.index = objects.tree expectedHead))
  if indexed then do
    let tracked ← inspect (.worktree "Git integration checkout identity is unavailable")
      fun world => some (decide (world.checkout.worktree = world.checkout.index))
    if tracked then do
      let untracked ← inspect
        (.worktree "Git integration untracked-state identity is unavailable") fun world =>
          some (printed world.checkout.untracked)
      pure (decide (strip untracked = []))
    else pure false
  else pure false

/-- The attempts of `_synchronize_checkout_or_rollback`; whether one of them returned. -/
def synchronizeAttempts (target expectedCheckout : Commit) : ℕ → Command Commit Tree Bool
  | 0 => pure false
  | attempts + 1 => do
    if ← checkoutMatchesHead objects target then pure true
    else do
      let unchanged ← checkoutMatchesHead objects expectedCheckout
      require unchanged (.conflict "integration checkout changed after integration CAS")
      if ← readTree objects target then pure true
      else synchronizeAttempts target expectedCheckout attempts

/-- `_synchronize_checkout_or_rollback` -/
def synchronizeCheckoutOrRollback (target rollback expectedCheckout : Commit) :
    Command Commit Tree Unit := do
  if ← synchronizeAttempts objects target expectedCheckout 2 then pure ()
  else if ← checkoutMatchesHead objects target then pure ()
  else do
    let unchanged ← checkoutMatchesHead objects expectedCheckout
    require unchanged (.conflict "integration checkout changed after integration CAS")
    let rolledBack ← updateRef rollback target
    require rolledBack (.conflict "trunk HEAD changed after integration CAS")
    requireCleanTrunk objects "rolled-back integration trunk"
    fail (.worktree "Git integration checkout update failed and the ref was rolled back")

/-! ### The integration -/

variable (site : Site Commit Tree) (request : IntegrationRequest Commit)

/-- Whether `_recover_applied_integration` recognizes the trunk's head as the authorized effect. -/
def recoveryMatches (strategy : Strategy) (parents : List Commit) (actualTree : Tree)
    (actual : Commit) : Command Commit Tree Bool :=
  match strategy with
  | .fastForward => do
    let ancestry ← succeeds fun _ =>
      objects.isAncestor request.expectedTrunkHead request.candidateSha
    pure (decide (actual = request.candidateSha) && ancestry)
  | .merge => do
    let expectedTree ← mergeTree objects request.expectedTrunkHead request.candidateSha none
    pure (decide (parents = [request.expectedTrunkHead, request.candidateSha] ∧
      expectedTree = some actualTree))
  | .cherryPick => do
    let candidateParents ← commitParents objects request.candidateSha
    match candidateParents with
    | [base] => do
      let expectedTree ← mergeTree objects request.expectedTrunkHead request.candidateSha base
      pure (decide (parents = [request.expectedTrunkHead] ∧ expectedTree = some actualTree))
    | _ => pure false

/-- `_recover_applied_integration` -/
def recoverAppliedIntegration (candidate : PurePath) (strategy : Strategy) (actual : Commit) :
    Command Commit Tree (Option (IntegrationReceipt Commit Tree)) := do
  let parents ← commitParents objects actual
  let actualTree ← revParseTree objects actual
  let matched ← recoveryMatches objects request strategy parents actualTree actual
  if matched then do
    let _trunkRef ← requireTrunkRef
    synchronizeCheckoutOrRollback objects actual request.expectedTrunkHead
      request.expectedTrunkHead
    requireCleanTrunk objects "recovered integrated trunk"
    pure (some
      { beforeTrunkHead := request.expectedTrunkHead, afterTrunkHead := actual,
        candidateSha := request.candidateSha, candidateBranch := request.candidateBranch,
        candidateWorkspace := candidate, strategy, recovered := true, parents,
        tree := actualTree })
  else pure none

/-- The checks of the strategy, and the commit that the trunk is to move to with its tree. -/
def prepareTarget (strategy : Strategy) : Command Commit Tree (Tree × Commit) :=
  match strategy with
  | .fastForward => do
    let ancestry ← succeeds fun _ =>
      objects.isAncestor request.expectedTrunkHead request.candidateSha
    require ancestry
      (.worktree "Git integration preflight failed: candidate is not a fast-forward")
    let expectedTree ← revParseTree objects request.candidateSha
    pure (expectedTree, request.candidateSha)
  | strategy => do
    let candidateParents ← commitParents objects request.candidateSha
    require (¬ (strategy = .cherryPick ∧ candidateParents.length ≠ 1))
      (.conflict "cherry-pick integration requires a single-parent candidate")
    let mergeBase := if strategy = .cherryPick then candidateParents.head? else none
    let tree ← mergeTree objects request.expectedTrunkHead request.candidateSha mergeBase
    match tree with
    | none => fail (.worktree
        "Git integration preflight failed: conflict-free tree is unavailable")
    | some expectedTree => do
      let parents := if strategy = .merge then [request.expectedTrunkHead, request.candidateSha]
        else [request.expectedTrunkHead]
      let target ← commitTree objects expectedTree parents
        (lit "codex-flow " ++ strategy.dashed ++ lit " " ++ objects.sha request.candidateSha)
      pure (expectedTree, target)

/-- What the trunk must have become. -/
def requirePostState (strategy : Strategy) (before after : Commit) (parents : List Commit)
    (tree expectedTree : Tree) : Command Commit Tree Unit :=
  match strategy with
  | .fastForward => require (after = request.candidateSha)
      (.conflict "fast-forward integration produced an unexpected trunk HEAD")
  | .merge => require (parents = [before, request.candidateSha] ∧ tree = expectedTree)
      (.conflict "merge integration produced an unexpected Git post-state")
  | .cherryPick => require (parents = [before] ∧ tree = expectedTree)
      (.conflict "cherry-pick integration produced an unexpected Git post-state")

/-- The part of `_integrate_candidate` from the clean trunk at the expected head. -/
def applyIntegration (candidate : PurePath) (strategy : Strategy) (before : Commit) :
    Command Commit Tree (IntegrationReceipt Commit Tree) := do
  requireCleanTrunk objects "trunk"
  let (expectedTree, target) ← prepareTarget objects request strategy
  let head ← revParseHead
  require (head = request.expectedTrunkHead)
    (.conflict "trunk HEAD changed after integration preflight")
  let candidateHead ← revParseCandidate
  require (candidateHead = request.candidateSha)
    (.conflict "candidate HEAD changed after integration preflight")
  requireCleanTrunk objects "trunk"
  requireCleanCandidate
  let _trunkRef ← requireTrunkRef
  let applied ← updateRef target request.expectedTrunkHead
  require applied (.conflict "trunk HEAD changed during integration CAS")
  synchronizeCheckoutOrRollback objects target request.expectedTrunkHead
    request.expectedTrunkHead
  let after ← revParseHead
  require (after ≠ before) (.conflict "Git integration did not advance the trunk")
  let parents ← commitParents objects after
  let tree ← revParseTree objects after
  requirePostState request strategy before after parents tree expectedTree
  requireCleanTrunk objects "integrated trunk"
  pure
    { beforeTrunkHead := before, afterTrunkHead := after, candidateSha := request.candidateSha,
      candidateBranch := request.candidateBranch, candidateWorkspace := candidate, strategy,
      recovered := false, parents, tree }

/-- `_physical_toplevel` and `_validate_repository_relationship`. -/
def requireTopology (layout : Layout) (repository candidate : PurePath) :
    Command Commit Tree Unit := do
  let repositoryTop ← git "rev-parse --show-toplevel" fun _ => layout.toplevel repository
  require (repositoryTop = repository)
    (.worktree "integration repository must equal the physical Git toplevel")
  let candidateTop ← git "rev-parse --show-toplevel" fun _ => layout.toplevel candidate
  require (candidateTop = candidate)
    (.worktree "candidate workspace must equal the physical Git toplevel")
  let repositoryCommon ← git "rev-parse --path-format=absolute --git-common-dir" fun _ =>
    layout.commonDirectory repository
  let candidateCommon ← git "rev-parse --path-format=absolute --git-common-dir" fun _ =>
    layout.commonDirectory candidate
  require (repositoryCommon = candidateCommon)
    (.conflict "the candidate is not a worktree of the repository")

/-- The candidate's workspace is on its branch, at the authorized commit and clean. -/
def requireCandidate : Command Commit Tree Unit := do
  let branch ← git "symbolic-ref --quiet --short HEAD" fun world => world.candidate.branch
  require (branch = request.candidateBranch)
    (.conflict "the candidate's branch is not the expected one")
  let candidateHead ← revParseCandidate
  require (candidateHead = request.candidateSha)
    (.conflict "candidate workspace HEAD does not match the authorized commit")
  requireCleanCandidate
  let ancestry ← succeeds fun world =>
    objects.isAncestor request.candidateSha world.candidate.head
  require ancestry (.conflict "candidate commit is not an ancestor of its authorized branch")

/-- The history check of a capsule, whose commands only read. -/
def requireCapsule (candidate : PurePath) : Command Commit Tree Unit :=
  match request.capsule with
  | none => pure ()
  | some capsule => do
    let _event ← next
    match validateCandidateHistory site.repository capsule candidate request.candidateSha none with
    | .ok () => pure ()
    | .error error => fail (.integrity error)

/-- The checks of `_integrate_candidate` before it reads the trunk: the candidate's path and the
strategy. -/
def preflight : Command Commit Tree (PurePath × Strategy) := do
  require (site.layout.rawChain request.repositoryRoot)
    (.worktree "workspace path must not traverse symlinks")
  match Strategy.ofText request.strategy with
  | none => fail (.worktree "integration strategy is unsupported")
  | some strategy => do
    require (request.candidateBranch ≠ [] ∧ ¬ request.candidateBranch.any isSpace)
      (.worktree "candidate branch is invalid")
    require (site.layout.rawChain request.candidateWorkspace)
      (.worktree "workspace path must not traverse symlinks")
    match site.layout.resolve request.repositoryRoot,
        site.layout.resolve request.candidateWorkspace with
    | some repository, some candidate => do
      require (site.layout.existingChain repository ∧ site.layout.existingChain candidate)
        (.worktree "workspace path must not traverse symlinks")
      require (site.layout.isDirectory repository ∧ site.layout.isDirectory candidate)
        (.worktree "integration repository and candidate must be directories")
      requireTopology site.layout repository candidate
      requireCapsule site request candidate
      requireCandidate site.objects request
      pure (candidate, strategy)
    | _, _ => fail (.worktree "workspace path has no canonical physical identity")

/-- `integrate_candidate` -/
def integrateCandidate : Command Commit Tree (IntegrationReceipt Commit Tree) := do
  let (candidate, strategy) ← preflight site request
  let before ← revParseHead
  if before ≠ request.expectedTrunkHead then do
    let recovered ← recoverAppliedIntegration site.objects request candidate strategy before
    match recovered with
    | none => fail (.conflict "trunk HEAD changed before integration")
    | some receipt => pure receipt
  else applyIntegration site.objects request candidate strategy before

end CodexFlow.Git
