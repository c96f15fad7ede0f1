import CodexFlow.Hook.Json
import CodexFlow.Lib.Pieces
import Mathlib

/-!
# Paths in the output of Git

The pure paths that a path is compared as, and the two ways in which the NUL-terminated paths of a
Git command are read: as bytes, and as text that is stripped. `readPaths_listing` says what the
second reading makes of the paths.
-/

namespace CodexFlow.Git

open Hook (CodePoint PyStr codePoint lit isSurrogate)

/-! ### Pure paths -/

/-- `PurePosixPath`: the root and the parts after it. -/
structure PurePath where
  root : PyStr
  parts : List PyStr
deriving DecidableEq

def slash : CodePoint := codePoint '/'

namespace PurePath

/-- The root of a path: one slash, exactly two, or none. -/
def rootOf (path : PyStr) : PyStr :=
  match path.takeWhile (· = slash) with
  | [] => []
  | [_, _] => [slash, slash]
  | _ => [slash]

/-- `Path(path)` -/
def new (path : PyStr) : PurePath where
  root := rootOf path
  parts := (path.splitOn slash).filter fun part => part ≠ [] && part ≠ lit "."

def isAbsolute (p : PurePath) : Bool := p.root ≠ []

def asPosix (p : PurePath) : PyStr :=
  if p.root = [] ∧ p.parts = [] then lit "."
  else p.root ++ [slash].intercalate p.parts

/-- `path.parents`, nearest first. -/
def parents (p : PurePath) : List PurePath :=
  (List.range p.parts.length).map fun i => ⟨p.root, p.parts.take (p.parts.length - i - 1)⟩

/-- `path == item or item in path.parents` -/
def isWithin (p item : PurePath) : Bool := p = item || item ∈ p.parents

/-- `p` is `item` or lies below it. -/
def Under (p item : PurePath) : Prop := p.root = item.root ∧ item.parts <+: p.parts

theorem isWithin_iff {p item : PurePath} : p.isWithin item = true ↔ p.Under item := by
  obtain ⟨root, parts⟩ := p
  obtain ⟨root', parts'⟩ := item
  simp only [isWithin, parents, Under, Bool.or_eq_true, decide_eq_true_eq, List.mem_map,
    List.mem_range, mk.injEq]
  constructor
  · rintro (⟨rfl, rfl⟩ | ⟨i, -, rfl, rfl⟩)
    · exact ⟨rfl, List.prefix_rfl⟩
    · exact ⟨rfl, List.take_prefix _ _⟩
  · rintro ⟨rfl, h⟩
    have whole := h.length_le
    have eq := List.prefix_iff_eq_take.mp h
    by_cases same : parts'.length = parts.length
    · exact .inl ⟨rfl, (h.eq_of_length same).symm⟩
    · refine .inr ⟨parts.length - parts'.length - 1, by omega, rfl, ?_⟩
      rw [show parts.length - (parts.length - parts'.length - 1) - 1 = parts'.length by omega]
      exact eq.symm

instance (p item : PurePath) : Decidable (p.Under item) :=
  decidable_of_iff _ isWithin_iff

end PurePath

/-! ### Paths as text -/

/-- A path as `Path` makes it: no part is empty, a dot or has a slash. -/
structure Proper (p : PurePath) : Prop where
  root : p.root = [] ∨ p.root = [slash] ∨ p.root = [slash, slash]
  parts : ∀ part ∈ p.parts, part ≠ [] ∧ part ≠ lit "." ∧ slash ∉ part

theorem rootOf_known (text : PyStr) : PurePath.rootOf text = [] ∨
    PurePath.rootOf text = [slash] ∨ PurePath.rootOf text = [slash, slash] := by
  unfold PurePath.rootOf
  split
  · exact .inl rfl
  · exact .inr (.inr rfl)
  · exact .inr (.inl rfl)

theorem proper_new (text : PyStr) : Proper (.new text) where
  root := rootOf_known text
  parts part mem := by
    obtain ⟨mem, kept⟩ := List.mem_filter.mp mem
    rw [Bool.and_eq_true, decide_eq_true_eq, decide_eq_true_eq] at kept
    exact ⟨kept.1, kept.2, Pieces.notMem_of_mem_splitOn part mem⟩

/-- Leading slashes leave only empty parts. -/
theorem parts_root_append {root rest : PyStr} (slashes : ∀ c ∈ root, c = slash) :
    (PurePath.new (root ++ rest)).parts = (PurePath.new rest).parts := by
  induction root with
  | nil => rfl
  | cons c root ih =>
    obtain ⟨rfl, others⟩ := List.forall_mem_cons.mp slashes
    rw [← ih others]
    simp only [PurePath.new, List.cons_append, List.splitOn_cons_eq_if_modifyHead,
      beq_self_eq_true, if_true, List.filter_cons]
    rfl

theorem parts_intercalate {parts : List PyStr}
    (proper : ∀ part ∈ parts, part ≠ [] ∧ part ≠ lit "." ∧ slash ∉ part) :
    (PurePath.new ([slash].intercalate parts)).parts = parts := by
  show (([slash].intercalate parts).splitOn slash).filter _ = parts
  by_cases some : parts = []
  · subst some
    rfl
  · rw [List.splitOn_intercalate slash (fun part mem => (proper part mem).2.2) some,
      List.filter_eq_self]
    intro part mem
    obtain ⟨full, notDot, -⟩ := proper part mem
    rw [Bool.and_eq_true, decide_eq_true_eq, decide_eq_true_eq]
    exact ⟨full, notDot⟩

theorem rootOf_append {root rest : PyStr}
    (known : root = [] ∨ root = [slash] ∨ root = [slash, slash]) (ends : rest.head? ≠ some slash) :
    PurePath.rootOf (root ++ rest) = root := by
  have none : rest.takeWhile (fun c => decide (c = slash)) = [] := by
    cases rest with
    | nil => rfl
    | cons c rest =>
      rw [List.takeWhile_cons, if_neg]
      exact fun same => ends (congrArg some (of_decide_eq_true same))
  unfold PurePath.rootOf
  obtain rfl | rfl | rfl := known
  · rw [List.nil_append, none]
  · rw [List.cons_append, List.nil_append, List.takeWhile_cons, if_pos (decide_eq_true rfl), none]
  · simp only [List.cons_append, List.nil_append, List.takeWhile_cons, decide_true, if_true, none]

theorem head?_intercalate {parts : List PyStr}
    (proper : ∀ part ∈ parts, part ≠ [] ∧ part ≠ lit "." ∧ slash ∉ part) :
    ([slash].intercalate parts).head? ≠ some slash := by
  cases parts with
  | nil => exact nofun
  | cons part others =>
    obtain ⟨full, -, clean⟩ := proper part List.mem_cons_self
    cases part with
    | nil => exact absurd rfl full
    | cons c part =>
      have first : ([slash].intercalate ((c :: part) :: others)).head? = some c := by
        cases others <;> rfl
      rw [first]
      exact fun same => clean (Option.some.inj same ▸ List.mem_cons_self)

theorem Proper.new_asPosix {p : PurePath} (proper : Proper p) : PurePath.new p.asPosix = p := by
  obtain ⟨root, parts⟩ := p
  obtain ⟨known, clean⟩ := proper
  dsimp only at known clean
  unfold PurePath.asPosix
  dsimp only
  split_ifs with here
  · obtain ⟨rfl, rfl⟩ := here
    decide
  · have slashes : ∀ c ∈ root, c = slash := by
      obtain rfl | rfl | rfl := known <;> simp
    have eq := @parts_root_append root ([slash].intercalate parts) slashes
    rw [parts_intercalate clean] at eq
    exact congrArg₂ PurePath.mk (rootOf_append known (head?_intercalate clean)) eq

/-! ### Text -/

def nul : CodePoint := codePoint '\x00'

def carriageReturn : CodePoint := codePoint '\r'

def lineFeed : CodePoint := codePoint '\n'

/-- `c.isspace()` -/
def isSpace (c : CodePoint) : Bool :=
  (0x09 ≤ c.val && c.val ≤ 0x0D) || (0x1C ≤ c.val && c.val ≤ 0x20) ||
    (0x2000 ≤ c.val && c.val ≤ 0x200A) ||
    c.val ∈ [0x85, 0xA0, 0x1680, 0x2028, 0x2029, 0x202F, 0x205F, 0x3000]

/-- `text.strip()` -/
def strip (text : PyStr) : PyStr := (text.dropWhile isSpace).rdropWhile isSpace

/-- The newlines of a text-mode pipe; a line feed is dropped where `afterReturn` is set. -/
def newlines (afterReturn : Bool) : PyStr → PyStr
  | [] => []
  | c :: rest =>
    if c = carriageReturn then lineFeed :: newlines true rest
    else if c = lineFeed && afterReturn then newlines false rest
    else c :: newlines false rest

/-- `text` with each `\r\n` and each `\r` read as `\n`. -/
def universalNewlines (text : PyStr) : PyStr := newlines false text

/-- A string of bytes read as text: `none` where the bytes are not UTF-8. -/
def decodeText (bytes : PyStr) : Option PyStr :=
  if bytes.any isSurrogate then none else some (universalNewlines bytes)

/-! ### Listings -/

/-- A path of a tree, as `os.fsdecode` has it. -/
abbrev TreePath := { path : PyStr // nul ∉ path }

/-- What `-z` prints. -/
def listing (paths : List TreePath) : PyStr := paths.flatMap fun path => path.val ++ [nul]

/-- `tuple(item for item in raw_paths.split("\x00") if item)` -/
def splitPaths (raw : PyStr) : List PyStr := (raw.splitOn nul).filter (· ≠ [])

@[simp] theorem listing_cons (path : TreePath) (paths : List TreePath) :
    listing (path :: paths) = path.val ++ nul :: listing paths := by
  simp [listing]

theorem splitPaths_listing (paths : List TreePath) :
    splitPaths (listing paths) = (paths.map (·.val)).filter (· ≠ []) := by
  induction paths with
  | nil => rfl
  | cons path paths ih =>
    have split : (listing (path :: paths)).splitOn nul = path.val :: (listing paths).splitOn nul := by
      rw [listing_cons, List.splitOn_append_cons_self, List.splitOn_eq_singleton path.property]
      rfl
    unfold splitPaths at ih ⊢
    rw [split, List.map_cons, List.filter_cons, List.filter_cons, ih]

/-! ### Listings read as text -/

theorem nul_ne_carriageReturn : nul ≠ carriageReturn := by decide

theorem nul_ne_lineFeed : nul ≠ lineFeed := by decide

theorem newlines_append_nul (path rest : PyStr) :
    ∀ b, newlines b (path ++ nul :: rest) = newlines b path ++ nul :: newlines false rest := by
  induction path with
  | nil =>
    intro b
    simp [newlines, nul_ne_carriageReturn, nul_ne_lineFeed]
  | cons c path ih =>
    intro b
    simp only [List.cons_append, newlines, ih]
    split_ifs <;> rfl

theorem nul_notMem_newlines {path : PyStr} (h : nul ∉ path) : ∀ b, nul ∉ newlines b path := by
  induction path with
  | nil => exact fun _ => h
  | cons c path ih =>
    intro b
    have ne : nul ≠ c := List.ne_of_not_mem_cons h
    have h' : nul ∉ path := List.not_mem_of_not_mem_cons h
    simp only [newlines]
    split_ifs
    · exact List.not_mem_cons_of_ne_of_not_mem nul_ne_lineFeed (ih h' true)
    · exact ih h' false
    · exact List.not_mem_cons_of_ne_of_not_mem ne (ih h' false)

def TreePath.text (path : TreePath) : TreePath :=
  ⟨universalNewlines path.val, nul_notMem_newlines path.property false⟩

theorem universalNewlines_listing (paths : List TreePath) :
    universalNewlines (listing paths) = listing (paths.map TreePath.text) := by
  induction paths with
  | nil => rfl
  | cons path paths ih =>
    rw [listing_cons, universalNewlines, newlines_append_nul, List.map_cons, listing_cons, ← ih]
    rfl

/-- The path without its leading white space. -/
def TreePath.lstrip (path : TreePath) : TreePath :=
  ⟨path.val.dropWhile isSpace, fun h => path.property ((List.dropWhile_sublist _).subset h)⟩

theorem isSpace_nul : isSpace nul = false := by decide

theorem dropWhile_append_nul (path rest : PyStr) :
    (path ++ nul :: rest).dropWhile isSpace = path.dropWhile isSpace ++ nul :: rest := by
  induction path with
  | nil => simp [isSpace_nul]
  | cons c path ih =>
    by_cases space : isSpace c
    · simpa [space] using ih
    · simp [space]

theorem exists_listing_cons (path : TreePath) (paths : List TreePath) :
    ∃ front, listing (path :: paths) = front ++ [nul] := by
  induction paths generalizing path with
  | nil => exact ⟨path.val, by simp [listing]⟩
  | cons next paths ih =>
    obtain ⟨front, h⟩ := ih next
    exact ⟨path.val ++ nul :: front, by rw [listing_cons, h]; simp⟩

/-- A strip reaches only into the first path: no NUL is white space. -/
theorem strip_listing_cons (path : TreePath) (paths : List TreePath) :
    strip (listing (path :: paths)) = listing (path.lstrip :: paths) := by
  have start : (listing (path :: paths)).dropWhile isSpace = listing (path.lstrip :: paths) := by
    rw [listing_cons, listing_cons, dropWhile_append_nul]
    rfl
  obtain ⟨front, h⟩ := exists_listing_cons path.lstrip paths
  rw [strip, start, h]
  exact List.rdropWhile_concat_neg _ _ _ (by simp [isSpace_nul])

def readPaths : List TreePath → List PyStr
  | [] => []
  | path :: paths =>
    (path.text.lstrip.val :: paths.map fun path => path.text.val).filter (· ≠ [])

theorem splitPaths_strip_listing (paths : List TreePath) :
    splitPaths (strip (universalNewlines (listing paths))) = readPaths paths := by
  rw [universalNewlines_listing]
  cases paths with
  | nil => rfl
  | cons path paths =>
    rw [List.map_cons, strip_listing_cons, splitPaths_listing]
    simp [readPaths, Function.comp_def]

end CodexFlow.Git
