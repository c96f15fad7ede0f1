import CodexFlow.Git.History

/-!
# What the walks miss

A path that a commit of the range changes is foreign when no mutable path holds it, or a protected
one does. The candidate walk sees every commit of the range, but reads a path without its leading
white space and with other newlines; the workspace walk reads every path as it is, but sees only
the commits that descend from the baseline.
-/

namespace CodexFlow.Git

open Hook (PyStr lit isSurrogate)
open Checked

variable {Commit : Type} [DecidableEq Commit]

/-! ### Ownership -/

def Beneath (roots : List PyStr) (path : PyStr) : Prop :=
  ∃ root ∈ roots, (PurePath.new path).Under (.new root)

theorem pathIsOwned_iff {path : PyStr} {roots : List PyStr} :
    pathIsOwned path roots = true ↔ Beneath roots path := by
  simp only [pathIsOwned, List.any_eq_true, PurePath.isWithin_iff, Beneath]

/-- The path lies under a mutable path and under no protected one. -/
def CapsuleScope.Owns (capsule : CapsuleScope Commit) (path : PyStr) : Prop :=
  Beneath capsule.mutablePaths path ∧ ¬ Beneath capsule.protectedPaths path

omit [DecidableEq Commit] in
theorem owns_of_owned {capsule : CapsuleScope Commit} {path : PyStr}
    (h : owned capsule path = .ok ()) : capsule.Owns path := by
  simp only [owned, checks_ok] at h
  obtain ⟨-, unprotected, mutable⟩ := h
  exact ⟨pathIsOwned_iff.mp mutable, fun h => unprotected (pathIsOwned_iff.mpr h)⟩

namespace Repository

variable (R : Repository Commit)

/-- The commit is reachable from `tip` and not from `base`. -/
def InRange (base tip commit : Commit) : Prop :=
  R.history.Reaches tip commit ∧ ¬ R.history.Reaches base commit

def touched (commit : Commit) : List TreePath :=
  (R.history.parents commit).flatMap (R.changed commit)

variable {R}

theorem isAncestor_iff {base tip : Commit} :
    R.isAncestor base tip = true ↔ tip ∈ R.history.nodes ∧ R.history.Reaches tip base := by
  rw [isAncestor, decide_eq_true_eq, Dag.mem_ancestors]

theorem mem_revList {base tip commit : Commit} (h : R.isAncestor base tip = true) :
    commit ∈ R.revList base tip ↔ R.InRange base tip commit := by
  obtain ⟨node, reaches⟩ := isAncestor_iff.mp h
  have base_node : base ∈ R.history.nodes := reaches.mem_nodes node
  simp [revList, Dag.mem_ancestors, InRange, node, base_node]

theorem mem_revListAncestryPath {base tip commit : Commit} (h : R.isAncestor base tip = true) :
    commit ∈ R.revListAncestryPath base tip ↔
      R.InRange base tip commit ∧ R.history.Reaches commit base := by
  have node : R.InRange base tip commit → commit ∈ R.history.nodes := fun range =>
    range.1.mem_nodes (isAncestor_iff.mp h).1
  simp only [revListAncestryPath, List.mem_filter, mem_revList h, decide_eq_true_eq,
    Dag.mem_ancestors]
  exact ⟨fun ⟨range, _, reaches⟩ => ⟨range, reaches⟩,
    fun ⟨range, reaches⟩ => ⟨range, node range, reaches⟩⟩

omit [DecidableEq Commit] in
/-- With `--root` and `-m`, every difference from a parent is listed. -/
theorem mem_diffTree_of_mem_touched {commit : Commit} {path : TreePath}
    (h : path ∈ R.touched commit) : path ∈ R.diffTree true true commit := by
  rcases hp : R.history.parents commit with _ | ⟨parent, _ | ⟨next, rest⟩⟩ <;>
    simp_all [diffTree, touched]

omit [DecidableEq Commit] in
/-- With `-m` for merges only, the differences from the parents are what is listed. -/
theorem diffTree_eq_touched (commit : Commit) :
    R.diffTree false ((R.history.parents commit).length > 1) commit = R.touched commit := by
  rcases hp : R.history.parents commit with _ | ⟨parent, _ | ⟨next, rest⟩⟩ <;>
    simp [diffTree, touched, hp]

end Repository

/-! ### The candidate walk -/

/-- The walk does not read the path as it is: white space that begins the first path of a listing
is stripped, a carriage return is read as a newline, and an empty path is dropped. -/
def Misread (paths : List TreePath) (path : TreePath) : Prop :=
  path.val = [] ∨ carriageReturn ∈ path.val ∨
    ∃ c ∈ path.val.head?, isSpace c ∧ paths.head? = some path

/-- The listing decodes, and what the walk makes of its paths is owned. -/
def ReadsOwned (capsule : CapsuleScope Commit) (paths : List TreePath) : Prop :=
  (∀ path ∈ paths, ∀ c ∈ path.val, isSurrogate c = false) ∧
    ∀ path ∈ readPaths paths, owned capsule path = .ok ()

theorem newlines_eq_self {path : PyStr} (h : carriageReturn ∉ path) :
    newlines false path = path := by
  induction path with
  | nil => rfl
  | cons c path ih =>
    simp [newlines, (List.ne_of_not_mem_cons h).symm, ih (List.not_mem_of_not_mem_cons h)]

theorem mem_readPaths {paths : List TreePath} {path : TreePath} (h : path ∈ paths)
    (plain : ¬ Misread paths path) : path.val ∈ readPaths paths := by
  simp only [Misread, not_or, not_exists, not_and] at plain
  obtain ⟨nonempty, noReturn, unstripped⟩ := plain
  have text : path.text.val = path.val := newlines_eq_self noReturn
  cases paths with
  | nil => exact absurd h List.not_mem_nil
  | cons first rest =>
    refine List.mem_filter.mpr ⟨?_, by simpa using nonempty⟩
    obtain rfl | h := List.mem_cons.mp h
    · refine List.mem_cons.mpr (.inl ?_)
      rcases value : path.val with _ | ⟨c, tail⟩
      · exact absurd value nonempty
      · have solid : ¬ isSpace c = true := fun space => unstripped c (by simp [value]) space rfl
        show c :: tail = path.text.val.dropWhile isSpace
        rw [text, value, List.dropWhile_cons_of_neg solid]
    · exact List.mem_cons_of_mem _ (List.mem_map.mpr ⟨path, h, text⟩)

theorem runText_listing {paths : List TreePath} {text : PyStr} :
    runText (listing paths) = .ok text ↔
      (∀ path ∈ paths, ∀ c ∈ path.val, isSurrogate c = false) ∧
        universalNewlines (listing paths) = text := by
  have nul_decodes : isSurrogate nul = false := by decide
  have any : (listing paths).any isSurrogate = false ↔
      ∀ path ∈ paths, ∀ c ∈ path.val, isSurrogate c = false := by
    simp only [listing, List.any_flatMap, List.any_append, List.any_cons, List.any_nil,
      nul_decodes, Bool.or_false, List.any_eq_false, Bool.not_eq_true]
  rw [← any]
  unfold runText decodeText
  split
  next eq =>
    split_ifs at eq with surrogate
    exact ⟨fun h => absurd h error_ne_ok, fun h => absurd h.1 (by simp [surrogate])⟩
  next read eq =>
    split_ifs at eq with surrogate
    cases eq
    simp [surrogate]

omit [DecidableEq Commit] in
theorem validateCommit_eq_ok {R : Repository Commit} {capsule : CapsuleScope Commit}
    {commit : Commit} :
    validateCommit R capsule commit = .ok () ↔
      ReadsOwned capsule (R.diffTree true true commit) := by
  rw [validateCommit, bind_eq_ok]
  simp only [runText_listing, forM_eq_ok, ReadsOwned]
  constructor
  · rintro ⟨_, ⟨decodes, rfl⟩, h⟩
    exact ⟨decodes, fun path mem => h path (by rwa [splitPaths_strip_listing])⟩
  · rintro ⟨decodes, h⟩
    exact ⟨_, ⟨decodes, rfl⟩, fun path mem => h path (by rwa [← splitPaths_strip_listing])⟩

/-- What the candidate walk accepts, in terms of the graph and of the paths it reads. -/
theorem validateCandidateHistory_eq_ok {R : Repository Commit} {capsule : CapsuleScope Commit}
    {workspace : PurePath} {candidate : Commit} {baseSha : Option Commit} :
    validateCandidateHistory R capsule workspace candidate baseSha = .ok () ↔
      capsule.workspacePath = workspace ∧
      R.isAncestor (baseSha.getD capsule.baseSha) candidate = true ∧
      (∃ commit, R.InRange (baseSha.getD capsule.baseSha) candidate commit) ∧
      ∀ commit, R.InRange (baseSha.getD capsule.baseSha) candidate commit →
        ReadsOwned capsule (R.diffTree true true commit) := by
  simp only [validateCandidateHistory, checks_ok, forM_eq_ok, validateCommit_eq_ok]
  refine and_congr_right fun _ => and_congr_right fun ancestor => ?_
  simp only [ne_eq, List.eq_nil_iff_forall_not_mem, not_forall, not_not,
    Repository.mem_revList ancestor]

/-! ### The workspace walk -/

/-- The walk reads each path as it is, but for an empty one. -/
theorem mem_committedWorkspacePaths {R : Repository Commit} {head baseline : Commit}
    (h : R.isAncestor baseline head = true) {path : PyStr} :
    path ∈ committedWorkspacePaths R head baseline ↔ path ≠ [] ∧ ∃ commit,
      R.InRange baseline head commit ∧ R.history.Reaches commit baseline ∧
        ∃ touched ∈ R.touched commit, touched.val = path := by
  simp only [committedWorkspacePaths, List.mem_flatMap, Repository.mem_revListAncestryPath h,
    Repository.diffTree_eq_touched, splitPaths_listing, List.mem_filter, List.mem_map,
    decide_eq_true_eq]
  constructor
  · rintro ⟨commit, ⟨range, descends⟩, touched, nonempty⟩
    exact ⟨nonempty, commit, range, descends, touched⟩
  · rintro ⟨nonempty, commit, range, descends, touched⟩
    exact ⟨commit, ⟨range, descends⟩, touched, nonempty⟩

def WorkspaceChecks (R : Repository Commit) (capsule : CapsuleScope Commit)
    (branch : Option PyStr) (head baseline : Commit) : Prop :=
  branch.map strip = some capsule.branch ∧ R.isAncestor capsule.baseSha head = true ∧
    R.isAncestor baseline head = true

/-- What the workspace walk accepts, in terms of the graph. -/
theorem assertWorkspaceHistory_eq_ok {R : Repository Commit} {capsule : CapsuleScope Commit}
    {branch : Option PyStr} {head baseline : Commit} {mutablePaths : Option (List PyStr)} :
    assertWorkspaceHistory R capsule branch head baseline mutablePaths = .ok () ↔
      WorkspaceChecks R capsule branch head baseline ∧
      ∀ commit, R.InRange baseline head commit → R.history.Reaches commit baseline →
        ∀ path ∈ R.touched commit, path.val ≠ [] →
          Beneath (mutablePaths.getD capsule.mutablePaths) path.val := by
  simp only [assertWorkspaceHistory, checks_ok, WorkspaceChecks, List.filter_eq_nil_iff,
    Bool.not_eq_true', Bool.not_eq_false, pathIsOwned_iff]
  constructor
  · rintro ⟨-, onBranch, fromBase, fromBaseline, h⟩
    refine ⟨⟨onBranch, fromBase, fromBaseline⟩, fun commit range descends path touched nonempty => ?_⟩
    exact h _ ((mem_committedWorkspacePaths fromBaseline).mpr
      ⟨nonempty, commit, range, descends, path, touched, rfl⟩)
  · rintro ⟨⟨onBranch, fromBase, fromBaseline⟩, h⟩
    refine ⟨?_, onBranch, fromBase, fromBaseline, fun path mem => ?_⟩
    · cases branch with
      | none => cases onBranch
      | some _ => rfl
    · obtain ⟨nonempty, commit, range, descends, touched, changed, rfl⟩ :=
        (mem_committedWorkspacePaths fromBaseline).mp mem
      exact h commit range descends touched changed nonempty

/-! ### Soundness -/

/-- What the candidate walk accepts is owned, path by path. -/
def CandidateSound (R : Repository Commit) (capsule : CapsuleScope Commit) (workspace : PurePath)
    (candidate : Commit) (baseSha : Option Commit) : Prop :=
  validateCandidateHistory R capsule workspace candidate baseSha = .ok () →
    ∀ commit, R.InRange (baseSha.getD capsule.baseSha) candidate commit →
      ∀ path ∈ R.touched commit, capsule.Owns path.val

/-- What the workspace walk accepts lies under the mutable paths. -/
def WorkspaceSound (R : Repository Commit) (capsule : CapsuleScope Commit)
    (branch : Option PyStr) (head baseline : Commit) (mutablePaths : Option (List PyStr)) : Prop :=
  assertWorkspaceHistory R capsule branch head baseline mutablePaths = .ok () →
    ∀ commit, R.InRange baseline head commit →
      ∀ path ∈ R.touched commit, Beneath (mutablePaths.getD capsule.mutablePaths) path.val

/-- Some path of the range is foreign and misread, and all that is read is owned. -/
def MisreadForeign (R : Repository Commit) (capsule : CapsuleScope Commit) (workspace : PurePath)
    (candidate base : Commit) : Prop :=
  capsule.workspacePath = workspace ∧ R.isAncestor base candidate = true ∧
    (∀ commit, R.InRange base candidate commit →
      ReadsOwned capsule (R.diffTree true true commit)) ∧
    ∃ commit, R.InRange base candidate commit ∧ ∃ path ∈ R.touched commit,
      Misread (R.diffTree true true commit) path ∧ ¬ capsule.Owns path.val

/-- Some path of the range is foreign and empty or changed on a side branch that leaves before the
baseline, and all that descends from the baseline is owned. -/
def UnwalkedForeign (R : Repository Commit) (capsule : CapsuleScope Commit)
    (branch : Option PyStr) (head baseline : Commit) (roots : List PyStr) : Prop :=
  WorkspaceChecks R capsule branch head baseline ∧
    (∀ commit, R.InRange baseline head commit → R.history.Reaches commit baseline →
      ∀ path ∈ R.touched commit, path.val ≠ [] → Beneath roots path.val) ∧
    ∃ commit, R.InRange baseline head commit ∧ ∃ path ∈ R.touched commit,
      (path.val = [] ∨ ¬ R.history.Reaches commit baseline) ∧ ¬ Beneath roots path.val

theorem candidateSound_iff {R : Repository Commit} {capsule : CapsuleScope Commit}
    {workspace : PurePath} {candidate : Commit} {baseSha : Option Commit} :
    CandidateSound R capsule workspace candidate baseSha ↔
      ¬ MisreadForeign R capsule workspace candidate (baseSha.getD capsule.baseSha) := by
  unfold CandidateSound MisreadForeign
  rw [validateCandidateHistory_eq_ok]
  constructor
  · rintro sound ⟨same, ancestor, reads, commit, range, path, touched, -, foreign⟩
    exact foreign (sound ⟨same, ancestor, ⟨commit, range⟩, reads⟩ commit range path touched)
  · rintro exposed ⟨same, ancestor, -, reads⟩ commit range path touched
    by_contra foreign
    refine exposed ⟨same, ancestor, reads, commit, range, path, touched, ?_, foreign⟩
    by_contra plain
    -- read as it is, the path has passed `owned`
    have listed := R.mem_diffTree_of_mem_touched touched
    exact foreign (owns_of_owned ((reads commit range).2 _ (mem_readPaths listed plain)))

theorem workspaceSound_iff {R : Repository Commit} {capsule : CapsuleScope Commit}
    {branch : Option PyStr} {head baseline : Commit} {mutablePaths : Option (List PyStr)} :
    WorkspaceSound R capsule branch head baseline mutablePaths ↔
      ¬ UnwalkedForeign R capsule branch head baseline
        (mutablePaths.getD capsule.mutablePaths) := by
  unfold WorkspaceSound UnwalkedForeign
  rw [assertWorkspaceHistory_eq_ok]
  constructor
  · rintro sound ⟨checks, walked, commit, range, path, touched, -, foreign⟩
    exact foreign (sound ⟨checks, walked⟩ commit range path touched)
  · rintro exposed ⟨checks, walked⟩ commit range path touched
    by_contra foreign
    refine exposed ⟨checks, walked, commit, range, path, touched, ?_, foreign⟩
    by_contra seen
    obtain ⟨nonempty, descends⟩ := not_or.mp seen
    exact foreign (walked commit range (not_not.mp descends) path touched nonempty)

/-- Each walk accepts owned histories only, but for the foreign paths that it misreads or does not
walk. -/
theorem history_sound_iff (R : Repository Commit) (capsule : CapsuleScope Commit)
    (workspace : PurePath) (candidate : Commit) (baseSha : Option Commit)
    (branch : Option PyStr) (head baseline : Commit) (mutablePaths : Option (List PyStr)) :
    (CandidateSound R capsule workspace candidate baseSha ↔
      ¬ MisreadForeign R capsule workspace candidate (baseSha.getD capsule.baseSha)) ∧
    (WorkspaceSound R capsule branch head baseline mutablePaths ↔
      ¬ UnwalkedForeign R capsule branch head baseline
        (mutablePaths.getD capsule.mutablePaths)) :=
  ⟨candidateSound_iff, workspaceSound_iff⟩

/-! ### Two histories that pass -/

def pathOf (text : String) (h : nul ∉ lit text := by decide) : TreePath := ⟨lit text, h⟩

/-- On 1, the baseline 2 and a side branch that changes a file at 3 and restores it at 4; their
merge 5, and a candidate 6. -/
def sampleRepository : Repository ℕ where
  history :=
    { nodes := [6, 5, 4, 3, 2, 1]
      parents := fun commit => match commit with
        | 6 => [5]
        | 5 => [2, 4]
        | 4 => [3]
        | 3 => [1]
        | 2 => [1]
        | _ => []
      closed := by decide
      ordered := by decide
      irrefl := fun commit => by rcases commit with _ | _ | _ | _ | _ | _ | _ | commit <;> simp }
  changed commit parent := match commit, parent with
    | 6, 5 => [pathOf " src/x"]
    | 5, 4 => [pathOf "src/y"]
    | 4, 3 => [pathOf "keys"]
    | 3, 1 => [pathOf "keys"]
    | 2, 1 => [pathOf "src/y"]
    | _, _ => []
  tree _ := [pathOf "keys"]

def sampleScope : CapsuleScope ℕ where
  workspacePath := .new (lit "/w")
  branch := lit "work"
  baseSha := 1
  mutablePaths := [lit "src"]
  protectedPaths := [lit " src"]

/-- The protected path of the candidate is read without its leading space; the file changed and
restored on the side branch is not walked. -/
theorem unsound_histories :
    ¬ CandidateSound sampleRepository sampleScope (.new (lit "/w")) 6 (some 5) ∧
    ¬ WorkspaceSound sampleRepository sampleScope (some (lit "work\n")) 5 2 none := by
  have range : sampleRepository.InRange 5 6 6 := by
    have ancestor : sampleRepository.isAncestor 5 6 = true := by decide
    exact (Repository.mem_revList ancestor).mp (by decide)
  have side : sampleRepository.InRange 2 5 3 := by
    have ancestor : sampleRepository.isAncestor 2 5 = true := by decide
    exact (Repository.mem_revList ancestor).mp (by decide)
  constructor
  · intro sound
    have accepted : validateCandidateHistory sampleRepository sampleScope (.new (lit "/w")) 6
        (some 5) = .ok () := by decide
    have owns := sound accepted 6 range (pathOf " src/x") (by decide)
    exact owns.2 ⟨lit " src", by decide, by decide⟩
  · intro sound
    have accepted : assertWorkspaceHistory sampleRepository sampleScope (some (lit "work\n")) 5 2
        none = .ok () := by decide
    obtain ⟨root, mem, under⟩ := sound accepted 3 side (pathOf "keys") (by decide)
    cases List.mem_singleton.mp mem
    exact absurd under (by decide)

end CodexFlow.Git
