import CodexFlow.Git.Digests
import Mathlib

/-!
# What a digest tells apart

No digest of protected paths determines the files below them, because a name may take over the first
bytes of the content that follows it. A directory's digest determines its entries as long as no name
has a line feed.
-/

namespace CodexFlow.Git

open Hook (CodePoint PyStr codePoint lit isSurrogate)

/-! ### Optional results -/

theorem mapM_congr {α β : Type} {f g : α → Option β} {l : List α} (h : ∀ a ∈ l, f a = g a) :
    l.mapM f = l.mapM g := by
  induction l with
  | nil => rfl
  | cons a l ih =>
    obtain ⟨first, others⟩ := List.forall_mem_cons.mp h
    rw [List.mapM_cons, List.mapM_cons, first, ih others]

theorem mapM_eq_map {α β : Type} {f : α → Option β} {g : α → β} {l : List α}
    (h : ∀ a ∈ l, f a = some (g a)) : l.mapM f = some (l.map g) := by
  induction l with
  | nil => rfl
  | cons a l ih =>
    obtain ⟨first, others⟩ := List.forall_mem_cons.mp h
    rw [List.mapM_cons, first, ih others]
    rfl

theorem mapM_isSome {α β : Type} {f : α → Option β} {l : List α} :
    (l.mapM f).isSome = true ↔ ∀ a ∈ l, (f a).isSome = true := by
  induction l with
  | nil => simp
  | cons a l ih =>
    rw [List.mapM_cons, List.forall_mem_cons, ← ih]
    cases f a <;> cases l.mapM f <;> simp

/-! ### Protected paths -/

section Protected

variable {ε : Type} {list : Listing} {hashed : ε → Option Bytes} {paths : List PyStr}

def Below (path name : PyStr) : Prop := name = path ∨ ∃ rest, name = path ++ slash :: rest

/-- A finite map from names without NUL. -/
structure IsTree (files : Tracked ε) : Prop where
  nodup : (files.map (·.1)).Nodup
  clean : ∀ file ∈ files, nul ∉ file.1

/-- The same names and contents under the paths. -/
def Agree (paths : List PyStr) (files files' : Tracked ε) : Prop :=
  ∀ path ∈ paths, ∀ name, Below path name → ∀ e, (name, e) ∈ files ↔ (name, e) ∈ files'

/-- The hasher raises at the path, whatever is tracked. -/
def Refused (list : Listing) (path : PyStr) : Prop := encode path = none ∨ list.run path = none

/-- Equal bytes to hash mean equal files under the paths. -/
def Faithful (list : Listing) (hashed : ε → Option Bytes) (paths : List PyStr) : Prop :=
  ∀ files files', IsTree files → IsTree files' → ∀ data,
    protectedBytes list hashed files paths = some data →
      protectedBytes list hashed files' paths = some data → Agree paths files files'

theorem isTree_single {name : PyStr} (clean : nul ∉ name) (e : ε) : IsTree [(name, e)] :=
  ⟨List.nodup_singleton _, List.forall_mem_singleton.mpr clean⟩

theorem pathBytes_refused {files : Tracked ε} {path : PyStr} (h : Refused list path) :
    pathBytes list hashed files path = none := by
  rw [pathBytes]
  obtain none | none := h
  · rw [none]
    rfl
  · rw [none]
    cases encode path <;> rfl

theorem protectedBytes_refused {files : Tracked ε} {path : PyStr} (mem : path ∈ paths)
    (h : Refused list path) : protectedBytes list hashed files paths = none := by
  by_contra some
  obtain ⟨data, hashes⟩ := Option.ne_none_iff_exists'.mp some
  obtain ⟨parts, each, -⟩ := Option.bind_eq_some_iff.mp hashes
  have some := mapM_isSome.mp (Option.isSome_iff_exists.mpr ⟨parts, each⟩) path
    ((List.mergeSort_perm _ _).mem_iff.mpr mem)
  rw [pathBytes_refused h] at some
  cases some

theorem run_of_hashed {files : Tracked ε} {data : Bytes}
    (hashes : protectedBytes list hashed files paths = some data) {path : PyStr}
    (mem : path ∈ paths) : ∃ covers, list.run path = some covers := by
  refine Option.ne_none_iff_exists'.mp fun none => ?_
  rw [protectedBytes_refused mem (.inr none)] at hashes
  cases hashes

/-- One file that the path covers adds its name and its content, and any other the marker. -/
theorem pathBytes_single {name : PyStr} {e : ε} {encoded content : Bytes}
    (named : encode name = some encoded) (read : hashed e = some content) (path : PyStr) :
    pathBytes list hashed [(name, e)] path =
      (do
        let label ← encode path
        let covers ← list.run path
        some (label ++ if covers name then encoded ++ content else missingMarker)) := by
  rw [pathBytes]
  cases encode path with
  | none => rfl
  | some label =>
    cases list.run path with
    | none => rfl
    | some covers =>
      by_cases covered : covers name = true
      · simp [sortedNames, fileBytes, covered, named, read]
      · simp [sortedNames, covered]

/-- Two single files are hashed alike when each path covers both or neither and the second name
takes over the first bytes of the first content. -/
theorem protectedBytes_single {name name' : PyStr} {e e' : ε} {encoded encoded' : Bytes}
    {content content' : Bytes} (named : encode name = some encoded)
    (named' : encode name' = some encoded') (read : hashed e = some content)
    (read' : hashed e' = some content') (shifted : encoded ++ content = encoded' ++ content')
    (covers : ∀ path ∈ paths, ∀ covers, list.run path = some covers →
      covers name = covers name') :
    protectedBytes list hashed [(name, e)] paths = protectedBytes list hashed [(name', e')] paths := by
  have same : ∀ path ∈ paths.mergeSort fun a b => Hook.keyLE a b,
      pathBytes list hashed [(name, e)] path = pathBytes list hashed [(name', e')] path := by
    intro path mem
    rw [pathBytes_single named read, pathBytes_single named' read']
    cases encode path with
    | none => rfl
    | some label =>
      cases listed : list.run path with
      | none => rfl
      | some run =>
        have both := covers path ((List.mergeSort_perm _ _).mem_iff.mp mem) run listed
        show some (label ++ if run name then encoded ++ content else missingMarker) = _
        rw [both, shifted]
        rfl
  rw [protectedBytes, protectedBytes, mapM_congr same]

/-- What is hashed for a single file that can be read, where no path is refused. -/
theorem protectedBytes_single_eq {name : PyStr} {e : ε} {encoded content : Bytes}
    (named : encode name = some encoded) (read : hashed e = some content)
    (runs : ¬ ∃ path ∈ paths, Refused list path) :
    protectedBytes list hashed [(name, e)] paths =
      some ((paths.mergeSort fun a b => Hook.keyLE a b).map fun path =>
        (encode path).getD [] ++
          if (list.run path).any (· name) then encoded ++ content else missingMarker).flatten := by
  have each : ∀ path ∈ paths.mergeSort fun a b => Hook.keyLE a b,
      pathBytes list hashed [(name, e)] path = some ((encode path).getD [] ++
        if (list.run path).any (· name) then encoded ++ content else missingMarker) := by
    intro path mem
    have mem := (List.mergeSort_perm _ _).mem_iff.mp mem
    rw [pathBytes_single named read]
    cases label : encode path with
    | none => exact absurd ⟨path, mem, .inl label⟩ runs
    | some label =>
      cases listed : list.run path with
      | none => exact absurd ⟨path, mem, .inr listed⟩ runs
      | some covers => rfl
  rw [protectedBytes, mapM_eq_map each]
  rfl

/-- A name below the path, of `n` letters. -/
def nameBelow (path : PyStr) (n : ℕ) : PyStr := path ++ slash :: List.replicate n (codePoint 'z')

/-- The bytes of one of those letters. -/
def letter : UInt8 := 0x7A

theorem encode_nameBelow {path : PyStr} {label : Bytes} (h : encode path = some label) (n : ℕ) :
    encode (nameBelow path n) = some (label ++ 0x2F :: List.replicate n letter) := by
  unfold encode at h ⊢
  split_ifs at h with clean
  cases h
  have plain : (nameBelow path n).any isSurrogate = false := by
    have slash_plain : isSurrogate slash = false := by decide
    have z_plain : isSurrogate (codePoint 'z') = false := by decide
    simp [nameBelow, slash_plain, z_plain, Bool.eq_false_iff.mpr clean]
  have letters : ∀ n, (List.replicate n (codePoint 'z')).flatMap Hook.utf8Bytes =
      List.replicate n letter := by
    intro n
    induction n with
    | zero => rfl
    | succ n ih =>
      rw [List.replicate_succ, List.flatMap_cons, ih]
      rfl
  rw [plain, if_neg Bool.false_ne_true, nameBelow, Hook.encodeSurrogatePass, List.flatMap_append,
    List.flatMap_cons, letters]
  rfl

/-- Names of different lengths are below a path that no command tells apart. -/
theorem exists_alike (list : Listing) (paths : List PyStr) (path : PyStr) :
    ∃ n m, n < m ∧ ∀ q ∈ paths, ∀ covers, list.run q = some covers →
      covers (nameBelow path n) = covers (nameBelow path m) := by
  -- each length gives one answer of every command, and there are finitely many such answers
  let answers (n : ℕ) (i : Fin paths.length) : Option Bool :=
    (list.run paths[i]).map fun covers => covers (nameBelow path n)
  have alike : ∀ {n m}, answers n = answers m → ∀ q ∈ paths, ∀ covers, list.run q = some covers →
      covers (nameBelow path n) = covers (nameBelow path m) := by
    intro n m same q mem covers runs
    obtain ⟨i, bound, rfl⟩ := List.getElem_of_mem mem
    have at_i := congrFun same ⟨i, bound⟩
    simpa [answers, runs] using at_i
  obtain ⟨n, m, differ, same⟩ := Finite.exists_ne_map_eq_of_infinite answers
  obtain less | less := Nat.lt_or_gt_of_ne differ
  · exact ⟨n, m, less, alike same⟩
  · exact ⟨m, n, less, alike same.symm⟩

/-- No hasher of protected paths is faithful, unless there is no path or no digest. -/
theorem faithful_iff {file : Bytes → ε} (read : ∀ content, hashed (file content) = some content) :
    Faithful list hashed paths ↔ paths = [] ∨ ∃ path ∈ paths, Refused list path := by
  constructor
  · intro faithful
    by_contra other
    rw [not_or] at other
    obtain ⟨some, runs⟩ := other
    obtain ⟨path, mem⟩ := List.exists_mem_of_ne_nil paths some
    have accepted : ¬ Refused list path := fun refused => runs ⟨path, mem, refused⟩
    obtain ⟨label, encoded⟩ : ∃ label, encode path = Option.some label :=
      Option.ne_none_iff_exists'.mp fun none => accepted (.inl none)
    have clean : nul ∉ path := by
      intro has
      exact accepted (.inr (if_pos has))
    have cleanBelow : ∀ n, nul ∉ nameBelow path n := by
      intro n has
      obtain has | has := List.mem_append.mp has
      · exact clean has
      · have plain : nul ≠ slash ∧ nul ≠ codePoint 'z' := by decide
        obtain same | has := List.mem_cons.mp has
        · exact plain.1 same
        · exact plain.2 (List.eq_of_mem_replicate has)
    obtain ⟨n, m, less, alike⟩ := exists_alike list paths path
    have shifted : (label ++ 0x2F :: List.replicate n letter) ++ List.replicate (m - n) letter =
        (label ++ 0x2F :: List.replicate m letter) ++ [] := by
      rw [List.append_assoc, List.cons_append, List.replicate_append_replicate,
        Nat.add_sub_cancel' (by omega), List.append_nil]
    have meet := protectedBytes_single
      (encode_nameBelow encoded n) (encode_nameBelow encoded m) (read _) (read _) shifted alike
    have hashes := protectedBytes_single_eq (encode_nameBelow encoded n)
      (read (List.replicate (m - n) letter)) runs
    have agree := faithful _ _ (isTree_single (cleanBelow n) _) (isTree_single (cleanBelow m) _)
      _ hashes (meet ▸ hashes)
    have both := (agree path mem (nameBelow path n) (.inr ⟨_, rfl⟩) _).mp List.mem_cons_self
    have same : nameBelow path n = nameBelow path m :=
      congrArg Prod.fst (List.mem_singleton.mp both)
    have lengths := congrArg List.length same
    simp only [nameBelow, List.length_append, List.length_cons, List.length_replicate] at lengths
    omega
  · rintro (rfl | ⟨path, mem, refused⟩) files files' - - data hashes -
    · exact fun _ => nofun
    · rw [protectedBytes_refused mem refused] at hashes
      cases hashes

end Protected

/-! ### A checkout and its revision -/

section Checkout

variable {lsFiles lsTree : Listing} {paths : List PyStr}

def checkout (files : Tracked RevisionFile) : Tracked WorktreeFile :=
  files.map fun file => (file.1, match file.2 with
    | .blob content => .file content
    | .unreadable => .symlink)

/-- A name of a tree that has an encoding. -/
structure IsName (name : PyStr) : Prop where
  full : name ≠ []
  clean : nul ∉ name
  plain : (encode name).isSome = true

/-- The two commands print the same names at every path. -/
def SameListings (lsFiles lsTree : Listing) (paths : List PyStr) : Prop :=
  ∀ path ∈ paths, ∀ covers covers', lsFiles.run path = some covers →
    lsTree.run path = some covers' → ∀ name, IsName name → covers name = covers' name

/-- The digests of a revision and of its checkout, where both are returned, are the same. -/
def CheckoutAgrees (lsFiles lsTree : Listing) (paths : List PyStr) : Prop :=
  ∀ files, IsTree files → (∀ file ∈ files, IsName file.1) → ∀ data data',
    protectedBytes lsFiles WorktreeFile.hashed (checkout files) paths = some data →
      protectedBytes lsTree RevisionFile.hashed files paths = some data' → data = data'

theorem utf8Bytes_head {c : CodePoint} (h : c ≠ nul) :
    ∃ b rest, Hook.utf8Bytes c = b :: rest ∧ b ≠ 0 := by
  have pos : 0 < c.val := Nat.pos_of_ne_zero fun zero => h (Fin.ext zero)
  have bound := c.isLt
  have nonzero : ∀ n : ℕ, 0 < n → n < 256 → UInt8.ofNat n ≠ 0 := by
    intro n pos small same
    have := congrArg UInt8.toNat same
    simp only [UInt8.toNat_ofNat', UInt8.toNat_zero] at this
    omega
  unfold Hook.utf8Bytes
  dsimp only
  split_ifs <;> exact ⟨_, _, rfl, nonzero _ (by omega) (by omega)⟩

/-- An encoded name begins with another byte than the marker. -/
theorem encode_head {name : PyStr} (isName : IsName name) :
    ∃ b rest, encode name = some (b :: rest) ∧ b ≠ 0 := by
  obtain ⟨full, clean, plain⟩ := isName
  cases name with
  | nil => exact absurd rfl full
  | cons c name =>
    obtain ⟨b, rest, eq, nonzero⟩ := utf8Bytes_head fun same : c = nul =>
      clean (same ▸ List.mem_cons_self)
    refine ⟨b, rest ++ Hook.encodeSurrogatePass name, ?_, nonzero⟩
    unfold encode at plain ⊢
    split_ifs at plain ⊢ with surrogate
    · cases plain
    show some ((c :: name).flatMap Hook.utf8Bytes) = _
    rw [List.flatMap_cons, eq]
    rfl

/-- What is hashed for a name that begins with another byte than the marker tells where it is
listed. -/
theorem listed_of_flatten {α : Type} {label : α → Bytes} {listed listed' : α → Bool} {b : UInt8}
    {rest : Bytes} (nonzero : b ≠ 0) {l : List α}
    (same : (l.map fun a => label a ++ if listed a then b :: rest else missingMarker).flatten =
      (l.map fun a => label a ++ if listed' a then b :: rest else missingMarker).flatten) :
    ∀ a ∈ l, listed a = listed' a := by
  induction l with
  | nil => exact fun _ => nofun
  | cons a l ih =>
    simp only [List.map_cons, List.flatten_cons, List.append_assoc, List.append_cancel_left_eq]
      at same
    refine List.forall_mem_cons.mpr ?_
    cases here : listed a <;> cases here' : listed' a
    · rw [here, here'] at same
      exact ⟨rfl, ih (List.append_cancel_left same)⟩
    · rw [here, here'] at same
      exact absurd (List.cons.inj same).1.symm nonzero
    · rw [here, here'] at same
      exact absurd (List.cons.inj same).1 nonzero
    · rw [here, here'] at same
      exact ⟨rfl, ih (List.append_cancel_left same)⟩

theorem sortedNames_checkout (files : Tracked RevisionFile) :
    sortedNames (checkout files) = checkout (sortedNames files) := by
  symm
  exact List.map_mergeSort fun _ _ _ _ => rfl

theorem pathBytes_checkout {files : Tracked RevisionFile} (names : ∀ file ∈ files, IsName file.1)
    {path : PyStr} {covers covers' : PyStr → Bool} (runs : lsFiles.run path = some covers)
    (runs' : lsTree.run path = some covers')
    (same : ∀ name, IsName name → covers name = covers' name) :
    pathBytes lsFiles WorktreeFile.hashed (checkout files) path =
      pathBytes lsTree RevisionFile.hashed files path := by
  have filtered : (checkout files).filter (fun file => covers file.1) =
      checkout (files.filter fun file => covers' file.1) := by
    rw [checkout, List.filter_map]
    exact congrArg _ (List.filter_congr fun file mem => same file.1 (names file mem))
  have mapped : ∀ files : Tracked RevisionFile,
      (checkout files).mapM (fileBytes WorktreeFile.hashed) =
        files.mapM (fileBytes RevisionFile.hashed) := by
    intro files
    rw [checkout, List.mapM_map]
    exact mapM_congr fun file _ => by
      obtain ⟨name, content | _⟩ := file <;> rfl
  have empty : ∀ files : Tracked RevisionFile, checkout files = [] ↔ files = [] :=
    fun _ => List.map_eq_nil_iff
  rw [pathBytes, pathBytes, runs, runs']
  cases encode path with
  | none => rfl
  | some label =>
    simp only [Option.bind_eq_bind, Option.bind_some, filtered, sortedNames_checkout, empty,
      mapped]

/-- A revision and its checkout are hashed alike exactly where the two commands list alike. -/
theorem checkoutAgrees_iff :
    CheckoutAgrees lsFiles lsTree paths ↔
      (∃ path ∈ paths, Refused lsFiles path ∨ Refused lsTree path) ∨
        SameListings lsFiles lsTree paths := by
  constructor
  · intro agrees
    by_contra other
    obtain ⟨runs, differ⟩ := not_or.mp other
    refine differ fun path mem covers covers' covered covered' name isName => ?_
    obtain ⟨b, rest, encoded, nonzero⟩ := encode_head isName
    -- an empty file of the name, at both sides
    have runsFiles : ¬ ∃ path ∈ paths, Refused lsFiles path :=
      fun ⟨path, mem, refused⟩ => runs ⟨path, mem, .inl refused⟩
    have runsTree : ¬ ∃ path ∈ paths, Refused lsTree path :=
      fun ⟨path, mem, refused⟩ => runs ⟨path, mem, .inr refused⟩
    have read : WorktreeFile.hashed (.file []) = some [] := rfl
    have read' : RevisionFile.hashed (.blob []) = some [] := rfl
    have single := protectedBytes_single_eq encoded read runsFiles
    have single' := protectedBytes_single_eq encoded read' runsTree
    have same := agrees [(name, .blob [])] (isTree_single isName.clean _)
      (List.forall_mem_singleton.mpr isName) _ _ single single'
    rw [List.append_nil] at same
    have listed := listed_of_flatten nonzero same path ((List.mergeSort_perm _ _).mem_iff.mpr mem)
    rwa [covered, covered'] at listed
  · rintro (⟨path, mem, refused⟩ | same) files tree names data data' hashes hashes'
    · obtain refused | refused := refused
      · rw [protectedBytes_refused mem refused] at hashes
        cases hashes
      · rw [protectedBytes_refused mem refused] at hashes'
        cases hashes'
    · have each : ∀ path ∈ paths.mergeSort fun a b => Hook.keyLE a b,
          pathBytes lsFiles WorktreeFile.hashed (checkout files) path =
            pathBytes lsTree RevisionFile.hashed files path := by
        intro path mem
        have mem := (List.mergeSort_perm _ _).mem_iff.mp mem
        obtain ⟨covers, runs⟩ := run_of_hashed hashes mem
        obtain ⟨covers', runs'⟩ := run_of_hashed hashes' mem
        exact pathBytes_checkout names runs runs' (same path mem covers covers' runs runs')
      rw [protectedBytes, mapM_congr each] at hashes
      exact Option.some.inj (hashes.symm.trans hashes')

end Checkout

end CodexFlow.Git
