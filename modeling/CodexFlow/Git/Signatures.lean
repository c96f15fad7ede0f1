import CodexFlow.Git.Faithful

/-!
# What the authority digest and a path's signature tell apart

The entries of the Git authority are hashed one after another, so that a file can stand for a
missing one. A path's signature has a line for each entry, and determines the entries as long as no
name has a line feed.
-/

namespace CodexFlow.Git

open Hook (CodePoint PyStr codePoint lit isSurrogate)

/-! ### Git authority -/

section Authority

variable {labels : List PyStr}

/-- Equal bytes to hash mean equal entries at these labels. -/
def AuthorityFaithful (labels : List PyStr) : Prop :=
  ∀ entries entries' : Tracked AuthorityFile, IsTree entries → IsTree entries' →
    entries.map (·.1) = labels → entries'.map (·.1) = labels → ∀ data,
      authorityBytes entries = some data → authorityBytes entries' = some data →
        entries = entries'

def Unhashed (label : PyStr) : Prop := nul ∈ label ∨ encode label = none

def missingBut (label : PyStr) (file : AuthorityFile) (labels : List PyStr) :
    Tracked AuthorityFile :=
  labels.map fun other => (other, if other = label then file else .missing)

theorem sortedNames_missingBut (label : PyStr) (file : AuthorityFile) (labels : List PyStr) :
    sortedNames (missingBut label file labels) =
      missingBut label file (labels.mergeSort fun a b => Hook.keyLE a b) := by
  symm
  exact List.map_mergeSort fun _ _ _ _ => rfl

theorem isTree_missingBut (nodup : labels.Nodup) (clean : ∀ label ∈ labels, nul ∉ label)
    (label : PyStr) (file : AuthorityFile) : IsTree (missingBut label file labels) := by
  refine ⟨?_, fun entry mem => ?_⟩
  · rw [missingBut, List.map_map]
    exact (List.map_id labels).symm ▸ nodup
  · obtain ⟨other, listed, rfl⟩ := List.mem_map.mp mem
    exact clean other listed

theorem contents_missing (label : PyStr) (labels : List PyStr) :
    (missingBut label .missing labels).filterMap (·.2.content) = [] := by
  rw [List.filterMap_eq_nil_iff]
  intro entry mem
  obtain ⟨other, -, rfl⟩ := List.mem_map.mp mem
  rw [ite_self]
  rfl

theorem contents_missingBut (nodup : labels.Nodup) (label : PyStr) (content : Bytes) :
    (missingBut label (.regular content) labels).filterMap (·.2.content) = [] ∨
      (missingBut label (.regular content) labels).filterMap (·.2.content) = [content] := by
  induction labels with
  | nil => exact .inl rfl
  | cons other labels ih =>
    obtain ⟨fresh, nodup⟩ := List.nodup_cons.mp nodup
    by_cases same : other = label
    · subst same
      have rest : (missingBut other (.regular content) labels).filterMap (·.2.content) = [] := by
        rw [List.filterMap_eq_nil_iff]
        intro entry mem
        obtain ⟨label, listed, rfl⟩ := List.mem_map.mp mem
        have differ : label ≠ other := fun same => fresh (same ▸ listed)
        simp [differ, AuthorityFile.content]
      right
      show ((other, if other = other then AuthorityFile.regular content else .missing) ::
        missingBut other (.regular content) labels).filterMap (·.2.content) = [content]
      rw [if_pos rfl, List.filterMap_cons, rest]
      rfl
    · have skipped : (missingBut label (.regular content) (other :: labels)).filterMap
          (·.2.content) = (missingBut label (.regular content) labels).filterMap (·.2.content) := by
        show ((other, if other = label then AuthorityFile.regular content else .missing) ::
          missingBut label (.regular content) labels).filterMap (·.2.content) = _
        rw [if_neg same, List.filterMap_cons]
        rfl
      rw [skipped]
      exact ih nodup

/-- A file whose content is the marker is hashed as a missing one. -/
theorem authorityBytes_missingBut (nodup : labels.Nodup) (label : PyStr) :
    authorityBytes (missingBut label (.regular missingMarker) labels) =
      authorityBytes (missingBut label .missing labels) := by
  have sorted : (labels.mergeSort fun a b => Hook.keyLE a b).Nodup :=
    (List.mergeSort_perm _ _).nodup_iff.mpr nodup
  have small : let files := (missingBut label (.regular missingMarker)
        (labels.mergeSort fun a b => Hook.keyLE a b)).filterMap (·.2.content)
      files.length ≤ maxAuthorityFiles ∧ (files.map (·.length)).sum ≤ maxAuthorityBytes := by
    obtain none_ | one := contents_missingBut sorted label missingMarker
    · rw [none_]
      decide
    · rw [one]
      decide
  have same : (missingBut label (.regular missingMarker)
        (labels.mergeSort fun a b => Hook.keyLE a b)).mapM (fileBytes AuthorityFile.hashed) =
      (missingBut label .missing
        (labels.mergeSort fun a b => Hook.keyLE a b)).mapM (fileBytes AuthorityFile.hashed) := by
    rw [missingBut, missingBut, List.mapM_map, List.mapM_map]
    refine mapM_congr fun other _ => ?_
    rw [Function.comp_apply, Function.comp_apply]
    split_ifs <;> rfl
  rw [authorityBytes, authorityBytes, sortedNames_missingBut, sortedNames_missingBut]
  dsimp only at small ⊢
  rw [if_pos small, same, contents_missing, if_pos (by decide)]

theorem authorityBytes_missing (encoded : ∀ label ∈ labels, (encode label).isSome = true)
    (label : PyStr) : (authorityBytes (missingBut label .missing labels)).isSome = true := by
  have each : ((missingBut label .missing (labels.mergeSort fun a b => Hook.keyLE a b)).mapM
      (fileBytes AuthorityFile.hashed)).isSome = true := by
    rw [mapM_isSome]
    intro entry mem
    obtain ⟨other, listed, rfl⟩ := List.mem_map.mp mem
    obtain ⟨name, eq⟩ := Option.isSome_iff_exists.mp
      (encoded other ((List.mergeSort_perm _ _).mem_iff.mp listed))
    rw [ite_self, fileBytes, eq]
    rfl
  obtain ⟨parts, eq⟩ := Option.isSome_iff_exists.mp each
  rw [authorityBytes, sortedNames_missingBut, contents_missing, if_pos (by decide), eq]
  rfl

/-- The entries at no list of labels are told apart, unless there is no label or no digest. -/
theorem authorityFaithful_iff :
    AuthorityFaithful labels ↔
      labels = [] ∨ ¬ labels.Nodup ∨ ∃ label ∈ labels, Unhashed label := by
  constructor
  · intro faithful
    by_contra other
    obtain ⟨some, other⟩ := not_or.mp other
    obtain ⟨nodup, hashed⟩ := not_or.mp other
    have nodup := not_not.mp nodup
    obtain ⟨label, mem⟩ := List.exists_mem_of_ne_nil labels some
    have clean : ∀ label ∈ labels, nul ∉ label :=
      fun label mem has => hashed ⟨label, mem, .inl has⟩
    have encoded : ∀ label ∈ labels, (encode label).isSome = true := by
      intro label mem
      by_contra none
      exact hashed ⟨label, mem, .inr (Option.not_isSome_iff_eq_none.mp none)⟩
    obtain ⟨data, hashes⟩ := Option.isSome_iff_exists.mp (authorityBytes_missing encoded label)
    have named : ∀ file, (missingBut label file labels).map (·.1) = labels := by
      intro file
      rw [missingBut, List.map_map]
      exact List.map_id labels
    have same := faithful _ _ (isTree_missingBut nodup clean label (.regular missingMarker))
      (isTree_missingBut nodup clean label .missing) (named _) (named _) data
      ((authorityBytes_missingBut nodup label).trans hashes) hashes
    have at_label := List.map_inj_left.mp same label mem
    simp at at_label
  · rintro (rfl | dup | ⟨label, mem, unhashed⟩) entries entries' tree tree' named named' data hashes -
    · rw [List.map_eq_nil_iff.mp named, List.map_eq_nil_iff.mp named']
    · exact absurd (named ▸ tree.nodup) dup
    · rw [← named] at mem
      obtain ⟨entry, listed, rfl⟩ := List.mem_map.mp mem
      obtain has | none := unhashed
      · exact absurd has (tree.clean entry listed)
      · rw [authorityBytes] at hashes
        split_ifs at hashes
        obtain ⟨parts, each, -⟩ := Option.bind_eq_some_iff.mp hashes
        have some := mapM_isSome.mp (Option.isSome_iff_exists.mpr ⟨parts, each⟩) entry
          ((List.mergeSort_perm _ _).mem_iff.mpr listed)
        rw [fileBytes, none] at some
        cases read : AuthorityFile.hashed entry.2 <;> rw [read] at some <;> cases some

end Authority

/-! ### Encoded texts -/

theorem utf8Bytes_append {c c' : CodePoint} {rest rest' : Bytes}
    (same : Hook.utf8Bytes c ++ rest = Hook.utf8Bytes c' ++ rest') : c = c' ∧ rest = rest' := by
  have byte : ∀ {n m : ℕ}, n < 256 → m < 256 → UInt8.ofNat n = UInt8.ofNat m → n = m := by
    intro n m hn hm same
    have := congrArg UInt8.toNat same
    rwa [UInt8.toNat_ofNat', UInt8.toNat_ofNat', Nat.mod_eq_of_lt hn, Nat.mod_eq_of_lt hm] at this
  have bound := c.isLt
  have bound' := c'.isLt
  unfold Hook.utf8Bytes at same
  dsimp only at same
  -- the first byte tells how many follow
  split_ifs at same <;>
    simp only [List.cons_append, List.nil_append, List.cons.injEq] at same
  · obtain ⟨first, rfl⟩ := same
    exact ⟨Fin.ext (byte (by omega) (by omega) first), rfl⟩
  all_goals first
    | (obtain ⟨first, second, third, fourth, rfl⟩ := same
       have first := byte (by omega) (by omega) first
       have second := byte (by omega) (by omega) second
       have third := byte (by omega) (by omega) third
       have fourth := byte (by omega) (by omega) fourth
       exact ⟨Fin.ext (by omega), rfl⟩)
    | (obtain ⟨first, second, third, rfl⟩ := same
       have first := byte (by omega) (by omega) first
       have second := byte (by omega) (by omega) second
       have third := byte (by omega) (by omega) third
       exact ⟨Fin.ext (by omega), rfl⟩)
    | (obtain ⟨first, second, rfl⟩ := same
       have first := byte (by omega) (by omega) first
       have second := byte (by omega) (by omega) second
       exact ⟨Fin.ext (by omega), rfl⟩)
    | (have first := byte (by omega) (by omega) same.1
       omega)

theorem utf8Bytes_ne_nil (c : CodePoint) : Hook.utf8Bytes c ≠ [] := by
  unfold Hook.utf8Bytes
  dsimp only
  split_ifs <;> exact List.cons_ne_nil _ _

theorem encodeSurrogatePass_injective : Function.Injective Hook.encodeSurrogatePass := by
  intro text
  induction text with
  | nil =>
    rintro (_ | ⟨c, text⟩) same
    · rfl
    · exact absurd (List.append_eq_nil_iff.mp same.symm).1 (utf8Bytes_ne_nil c)
  | cons c text ih =>
    rintro (_ | ⟨c', text'⟩) same
    · exact absurd (List.append_eq_nil_iff.mp same).1 (utf8Bytes_ne_nil c)
    · obtain ⟨rfl, rest⟩ := utf8Bytes_append same
      rw [ih rest]

theorem encode_injective {text text' : PyStr} {data : Bytes} (h : encode text = some data)
    (h' : encode text' = some data) : text = text' := by
  unfold encode at h h'
  split_ifs at h h'
  exact encodeSurrogatePass_injective (Option.some.inj (h.trans h'.symm))

theorem append_colon {α : Type} {colon : α} {a a' b b' : List α} (h : colon ∉ b)
    (h' : colon ∉ b') (same : a ++ colon :: b = a' ++ colon :: b') : a = a' ∧ b = b' := by
  obtain ⟨c, rfl, rest⟩ | ⟨c, rfl, rest⟩ := List.append_eq_append_iff.mp same
  · cases c with
    | nil => exact ⟨(List.append_nil _).symm, (List.cons.inj rest).2⟩
    | cons d c =>
      refine absurd ?_ h
      rw [(List.cons.inj rest).2]
      exact List.mem_append_right _ List.mem_cons_self
  · cases c with
    | nil => exact ⟨List.append_nil _, (List.cons.inj rest).2.symm⟩
    | cons d c =>
      refine absurd ?_ h'
      rw [(List.cons.inj rest).2]
      exact List.mem_append_right _ List.mem_cons_self

/-! ### Lines of a signature -/

theorem octalDigit_val : ∀ d < 8, (codePoint (Char.ofNat (0x30 + d))).val = 0x30 + d := by
  decide

theorem octal_injective : Function.Injective octal := by
  intro mode mode' same
  have bound := mode.isLt
  have bound' := mode'.isLt
  have digit : ∀ {d d' : ℕ}, d < 8 → d' < 8 →
      codePoint (Char.ofNat (0x30 + d)) = codePoint (Char.ofNat (0x30 + d')) → d = d' := by
    intro d d' hd hd' same
    have := congrArg Fin.val same
    rw [octalDigit_val d hd, octalDigit_val d' hd'] at this
    omega
  simp only [octal, List.map_cons, List.map_nil, List.cons.injEq, and_true] at same
  obtain ⟨first, second, third, fourth⟩ := same
  have value : ∀ n : Mode, (n / 512).val = n.val / 512 ∧ (n / 64 % 8).val = n.val / 64 % 8 ∧
      (n / 8 % 8).val = n.val / 8 % 8 ∧ (n % 8).val = n.val % 8 :=
    fun n => ⟨rfl, rfl, rfl, rfl⟩
  obtain ⟨a, b, c, d⟩ := value mode
  obtain ⟨a', b', c', d'⟩ := value mode'
  rw [a, a'] at first
  rw [b, b'] at second
  rw [c, c'] at third
  rw [d, d'] at fourth
  have first := digit (by omega) (by omega) first
  have second := digit (by omega) (by omega) second
  have third := digit (by omega) (by omega) third
  have fourth := digit (by omega) (by omega) fourth
  exact Fin.ext (by omega)

def Node.visible : Node → Option (Mode × Option Bytes)
  | .file mode _ content => some (mode, some content)
  | .directory mode _ => some (mode, none)
  | _ => none

theorem hexdigest_plain (sha : Sha256) (data : Bytes) {c : CodePoint} (h : isHexDigit c = false) :
    c ∉ sha.hexdigest data := by
  intro mem
  have digit := List.all_eq_true.mp (sha.isHex data) c mem
  rw [h] at digit
  cases digit

theorem entryLine_injective {sha : Sha256} {entry entry' : PyStr × Node} {line : PyStr}
    (h : entryLine sha entry = some line) (h' : entryLine sha entry' = some line) :
    entry.1 = entry'.1 ∧ entry.2.visible = entry'.2.visible := by
  have noColon : ∀ data, colon ∉ sha.hexdigest data :=
    fun data => hexdigest_plain sha data (by decide)
  have kinds : ∀ rest rest' : PyStr, lit "d:" ++ rest ≠ lit "f:" ++ rest' := by
    intro rest rest' same
    have := (List.cons.inj same).1
    revert this
    decide
  have modes : ∀ {kind : PyStr} {mode mode' : Mode} {rest rest' : PyStr},
      kind ++ octal mode ++ rest = kind ++ octal mode' ++ rest' → mode = mode' ∧ rest = rest' := by
    intro kind mode mode' rest rest' same
    rw [List.append_assoc, List.append_assoc, List.append_cancel_left_eq] at same
    obtain ⟨modes, rest⟩ := List.append_inj same rfl
    exact ⟨octal_injective modes, rest⟩
  obtain ⟨name, node⟩ := entry
  obtain ⟨name', node'⟩ := entry'
  unfold entryLine at h h'
  split_ifs at h h'
  cases node with
  | directory mode children =>
    cases node' with
    | directory mode' children' =>
      obtain ⟨rfl, rest⟩ := modes (Option.some.inj (h.trans h'.symm))
      exact ⟨(List.cons.inj rest).2, rfl⟩
    | file mode' links' content' =>
      dsimp only at h h'
      split_ifs at h'
      have same := Option.some.inj (h.trans h'.symm)
      simp only [List.append_assoc] at same
      exact absurd same (kinds _ _)
    | symlink => cases h'
    | special => cases h'
  | file mode links content =>
    dsimp only at h
    split_ifs at h
    cases node' with
    | directory mode' children' =>
      have same := Option.some.inj (h'.trans h.symm)
      simp only [List.append_assoc] at same
      exact absurd same (kinds _ _)
    | file mode' links' content' =>
      dsimp only at h'
      split_ifs at h'
      have same := Option.some.inj (h.trans h'.symm)
      rw [List.append_assoc, List.append_assoc (lit "f:" ++ octal mode')] at same
      obtain ⟨rfl, rest⟩ := modes same
      obtain ⟨names, digests⟩ := append_colon (noColon _) (noColon _) (List.cons.inj rest).2
      exact ⟨names, by rw [Node.visible, Node.visible, sha.injective digests]⟩
    | symlink => cases h'
    | special => cases h'
  | symlink => cases h
  | special => cases h

theorem lineFeed_notMem_octal (mode : Mode) : lineFeed ∉ octal mode := by
  have digit : ∀ d < 8, lineFeed ≠ codePoint (Char.ofNat (0x30 + d)) := by decide
  have bound := mode.isLt
  intro mem
  simp only [octal, List.map_cons, List.map_nil, List.mem_cons, List.not_mem_nil, or_false] at mem
  obtain mem | mem | mem | mem := mem
  · exact digit (mode.val / 512) (by omega) mem
  · exact digit (mode.val / 64 % 8) (by omega) mem
  · exact digit (mode.val / 8 % 8) (by omega) mem
  · exact digit (mode.val % 8) (by omega) mem

theorem lineFeed_notMem_line {sha : Sha256} {entry : PyStr × Node} {line : PyStr}
    (h : entryLine sha entry = some line) (plain : lineFeed ∉ entry.1) : lineFeed ∉ line := by
  have letters : lineFeed ∉ lit "d:" ∧ lineFeed ∉ lit "f:" ∧ lineFeed ≠ colon := by decide
  have noFeed : ∀ data, lineFeed ∉ sha.hexdigest data :=
    fun data => hexdigest_plain sha data (by decide)
  have octals := lineFeed_notMem_octal
  obtain ⟨name, node⟩ := entry
  unfold entryLine at h
  split_ifs at h
  cases node with
  | directory mode children =>
    cases h
    simp [letters, octals, plain]
  | file mode links content =>
    dsimp only at h
    split_ifs at h
    cases h
    simp [letters, octals, plain, noFeed]
  | symlink => cases h
  | special => cases h

/-- What a signature is about: names, modes and contents. -/
def visible (entries : List (PyStr × Node)) : List (PyStr × Option (Mode × Option Bytes)) :=
  entries.map fun entry => (entry.1, entry.2.visible)

theorem visible_of_lines {sha : Sha256} : ∀ {entries entries' : List (PyStr × Node)}
    {lines : List PyStr}, entries.mapM (entryLine sha) = some lines →
      entries'.mapM (entryLine sha) = some lines → visible entries = visible entries'
  | [], [], _, _, _ => rfl
  | [], entry' :: entries', lines, h, h' => by
    cases h
    obtain ⟨line, -, rest⟩ := Option.bind_eq_some_iff.mp (List.mapM_cons.symm.trans h')
    obtain ⟨lines, -, eq⟩ := Option.bind_eq_some_iff.mp rest
    cases eq
  | entry :: entries, [], lines, h, h' => by
    cases h'
    obtain ⟨line, -, rest⟩ := Option.bind_eq_some_iff.mp (List.mapM_cons.symm.trans h)
    obtain ⟨lines, -, eq⟩ := Option.bind_eq_some_iff.mp rest
    cases eq
  | entry :: entries, entry' :: entries', lines, h, h' => by
    obtain ⟨line, first, rest⟩ := Option.bind_eq_some_iff.mp (List.mapM_cons.symm.trans h)
    obtain ⟨lines, others, eq⟩ := Option.bind_eq_some_iff.mp rest
    cases eq
    obtain ⟨line', first', rest'⟩ := Option.bind_eq_some_iff.mp (List.mapM_cons.symm.trans h')
    obtain ⟨lines', others', eq⟩ := Option.bind_eq_some_iff.mp rest'
    cases eq
    obtain ⟨names, seen⟩ := entryLine_injective first first'
    rw [visible, visible, List.map_cons, List.map_cons, names, seen]
    exact congrArg _ (visible_of_lines others others')

theorem mem_of_mapM_some {α β : Type} {f : α → Option β} : ∀ {l : List α} {bs : List β},
    l.mapM f = some bs → ∀ b ∈ bs, ∃ a ∈ l, f a = some b
  | [], bs, h, b, mem => by cases h; cases mem
  | a :: l, bs, h, b, mem => by
    obtain ⟨first, eq, rest⟩ := Option.bind_eq_some_iff.mp (List.mapM_cons.symm.trans h)
    obtain ⟨others, eq', same⟩ := Option.bind_eq_some_iff.mp rest
    cases same
    obtain rfl | mem := List.mem_cons.mp mem
    · exact ⟨a, List.mem_cons_self, eq⟩
    · obtain ⟨a', mem, eq⟩ := mem_of_mapM_some eq' b mem
      exact ⟨a', List.mem_cons_of_mem _ mem, eq⟩

theorem directoryText_injective {sha : Sha256} {mode mode' : Mode}
    {entries entries' : List (PyStr × Node)} {text : PyStr}
    (plain : ∀ entry ∈ entries, lineFeed ∉ entry.1)
    (plain' : ∀ entry ∈ entries', lineFeed ∉ entry.1)
    (h : directoryText sha mode entries = some text)
    (h' : directoryText sha mode' entries' = some text) :
    mode = mode' ∧ visible entries = visible entries' := by
  obtain ⟨lines, each, eq⟩ := Option.bind_eq_some_iff.mp h
  obtain ⟨lines', each', eq'⟩ := Option.bind_eq_some_iff.mp h'
  split_ifs at eq eq'
  have root : ∀ mode, lineFeed ∉ lit "root:" ++ octal mode := by
    intro mode mem
    obtain mem | mem := List.mem_append.mp mem
    · revert mem
      decide
    · exact lineFeed_notMem_octal mode mem
  have clean : ∀ {mode : Mode} {entries : List (PyStr × Node)} {lines : List PyStr},
      entries.mapM (entryLine sha) = some lines → (∀ entry ∈ entries, lineFeed ∉ entry.1) →
        ∀ line ∈ (lit "root:" ++ octal mode) :: lines, lineFeed ∉ line := by
    intro mode entries lines each plain line mem
    obtain rfl | mem := List.mem_cons.mp mem
    · exact root mode
    · obtain ⟨entry, mem, eq⟩ := mem_of_mapM_some each line mem
      exact lineFeed_notMem_line eq (plain entry mem)
  have same := congrArg (List.splitOn lineFeed) (Option.some.inj (eq.trans eq'.symm))
  rw [List.splitOn_intercalate lineFeed (clean each plain) (List.cons_ne_nil _ _),
    List.splitOn_intercalate lineFeed (clean each' plain') (List.cons_ne_nil _ _)] at same
  obtain ⟨modes, rfl⟩ := List.cons.inj same
  exact ⟨octal_injective (List.append_cancel_left modes), visible_of_lines each each'⟩

section Signature

variable {sha : Sha256} {ignored ignored' : PyStr → Bool} {node node' : Option Node}

/-- What is at a path, with the entries that are walked below it. -/
def contents (ignored : PyStr → Bool) :
    Option Node → List (PyStr × Option (Mode × Option Bytes))
  | none => []
  | some node => visible (([], node) :: walkNode ignored [] node)

def Plain (ignored : PyStr → Bool) (node : Option Node) : Prop :=
  ∀ root ∈ node, ∀ entry ∈ walkNode ignored [] root, lineFeed ∉ entry.1

/-- Equal signatures mean equal contents. -/
def SignatureFaithful (sha : Sha256) (holds : (PyStr → Bool) → Option Node → Prop) : Prop :=
  ∀ ignored ignored' node node', holds ignored node → holds ignored' node' → ∀ signature,
    pathSignature sha ignored node = some signature →
      pathSignature sha ignored' node' = some signature →
        contents ignored node = contents ignored' node'

/-- The three kinds of a signature. -/
inductive Signed (sha : Sha256) (ignored : PyStr → Bool) : Option Node → PyStr → Prop
  | missing : Signed sha ignored none (lit "missing")
  | file (mode : Mode) (links : ℕ) (content prelude : Bytes)
      (encoded : encode (octal mode ++ [nul]) = some prelude) :
      Signed sha ignored (some (.file mode links content))
        (lit "file:" ++ sha.hexdigest (prelude ++ content))
  | directory (mode : Mode) (children : List (PyStr × Node)) (text : PyStr) (data : Bytes)
      (lines : directoryText sha mode (walkNode ignored [] (.directory mode children)) = some text)
      (encoded : encode text = some data) :
      Signed sha ignored (some (.directory mode children))
        (lit "directory:" ++ sha.hexdigest data)

theorem signed_of_pathSignature {signature : PyStr}
    (h : pathSignature sha ignored node = some signature) : Signed sha ignored node signature := by
  cases node with
  | none =>
    cases h
    exact .missing
  | some node =>
    cases node with
    | file mode links content =>
      rw [pathSignature] at h
      split_ifs at h
      obtain ⟨prelude, encoded, eq⟩ := Option.bind_eq_some_iff.mp h
      cases eq
      exact .file mode links content prelude encoded
    | directory mode children =>
      rw [pathSignature] at h
      obtain ⟨text, lines, rest⟩ := Option.bind_eq_some_iff.mp h
      obtain ⟨data, encoded, eq⟩ := Option.bind_eq_some_iff.mp rest
      cases eq
      exact .directory mode children text data lines encoded
    | symlink => cases h
    | special => cases h

/-- The mode before a file's content has four bytes. -/
theorem encode_octal (mode : Mode) :
    ∃ prelude : Bytes, encode (octal mode ++ [nul]) = some prelude ∧ prelude.length = 5 := by
  have digit : ∀ d < 8, isSurrogate (codePoint (Char.ofNat (0x30 + d))) = false ∧
      (Hook.utf8Bytes (codePoint (Char.ofNat (0x30 + d)))).length = 1 := by decide
  have bound := mode.isLt
  have first := digit (mode.val / 512) (by omega)
  have second := digit (mode.val / 64 % 8) (by omega)
  have third := digit (mode.val / 8 % 8) (by omega)
  have fourth := digit (mode.val % 8) (by omega)
  have last : isSurrogate nul = false ∧ (Hook.utf8Bytes nul).length = 1 := by decide
  refine ⟨Hook.encodeSurrogatePass (octal mode ++ [nul]), if_neg ?_, ?_⟩
  · intro any
    obtain ⟨c, mem, surrogate⟩ := List.any_eq_true.mp any
    simp only [octal, List.map_cons, List.map_nil, List.cons_append, List.nil_append,
      List.mem_cons, List.not_mem_nil, or_false] at mem
    obtain rfl | rfl | rfl | rfl | rfl := mem
    · exact Bool.false_ne_true (first.1.symm.trans surrogate)
    · exact Bool.false_ne_true (second.1.symm.trans surrogate)
    · exact Bool.false_ne_true (third.1.symm.trans surrogate)
    · exact Bool.false_ne_true (fourth.1.symm.trans surrogate)
    · exact Bool.false_ne_true (last.1.symm.trans surrogate)
  · show ((octal mode ++ [nul]).flatMap Hook.utf8Bytes).length = 5
    simp only [octal, List.map_cons, List.map_nil, List.cons_append, List.nil_append,
      List.flatMap_cons, List.flatMap_nil, List.append_nil, List.length_append]
    have sum : ∀ {a b c d e : ℕ}, a = 1 → b = 1 → c = 1 → d = 1 → e = 1 →
        a + (b + (c + (d + e))) = 5 := by omega
    exact sum first.2 second.2 third.2 fourth.2 last.2

theorem encode_octal_injective {mode mode' : Mode} {prelude prelude' content content' : Bytes}
    (h : encode (octal mode ++ [nul]) = some prelude)
    (h' : encode (octal mode' ++ [nul]) = some prelude')
    (same : prelude ++ content = prelude' ++ content') : mode = mode' ∧ content = content' := by
  obtain ⟨_, eq, length⟩ := encode_octal mode
  obtain ⟨_, eq', length'⟩ := encode_octal mode'
  cases h.symm.trans eq
  cases h'.symm.trans eq'
  obtain ⟨preludes, contents⟩ := List.append_inj same (length.trans length'.symm)
  have texts := encode_injective h (preludes ▸ h')
  exact ⟨octal_injective (List.append_cancel_right texts), contents⟩

/-- The signatures of paths whose names have no line feed tell everything below them apart. -/
theorem signatureFaithful_plain (sha : Sha256) : SignatureFaithful sha Plain := by
  intro ignored ignored' node node' plain plain' signature h h'
  have kinds : (∀ rest : PyStr, lit "missing" ≠ lit "file:" ++ rest) ∧
      (∀ rest : PyStr, lit "missing" ≠ lit "directory:" ++ rest) ∧
      ∀ rest rest' : PyStr, lit "file:" ++ rest ≠ lit "directory:" ++ rest' := by
    refine ⟨fun _ same => ?_, fun _ same => ?_, fun _ _ same => ?_⟩ <;>
    · have := (List.cons.inj same).1
      revert this
      decide
  generalize same : signature = signature' at h'
  have signed := signed_of_pathSignature h
  have signed' := signed_of_pathSignature h'
  cases signed with
  | missing =>
    cases signed' with
    | missing => rfl
    | file => exact absurd same (kinds.1 _)
    | directory => exact absurd same (kinds.2.1 _)
  | file mode links content prelude encoded =>
    cases signed' with
    | missing => exact absurd same.symm (kinds.1 _)
    | file mode' links' content' prelude' encoded' =>
      obtain ⟨rfl, rfl⟩ := encode_octal_injective encoded encoded'
        (sha.injective (List.append_cancel_left same))
      rfl
    | directory => exact absurd same (kinds.2.2 _ _)
  | directory mode children text data lines encoded =>
    cases signed' with
    | missing => exact absurd same.symm (kinds.2.1 _)
    | file => exact absurd same.symm (kinds.2.2 _ _)
    | directory mode' children' text' data' lines' encoded' =>
      obtain rfl := sha.injective (List.append_cancel_left same)
      obtain rfl := encode_injective encoded encoded'
      obtain ⟨rfl, seen⟩ := directoryText_injective (plain _ rfl) (plain' _ rfl) lines lines'
      exact congrArg (_ :: ·) seen

/-- Two directories, or one whose name has the second one's line. -/
def mergedNames : List (PyStr × Node) × List (PyStr × Node) :=
  ([(lit "a", .directory 493 []), (lit "b", .directory 493 [])],
    [(lit "a\nd:0755:b", .directory 493 [])])

theorem not_signatureFaithful (sha : Sha256) :
    ¬ SignatureFaithful sha fun _ _ => True := by
  intro faithful
  have signed : pathSignature sha (fun _ => false) (some (.directory 493 mergedNames.1)) =
      some (lit "directory:" ++ sha.hexdigest
        (Hook.encodeSurrogatePass (lit "root:0755\nd:0755:a\nd:0755:b"))) := by
    rfl
  have signed' : pathSignature sha (fun _ => false) (some (.directory 493 mergedNames.2)) =
      some (lit "directory:" ++ sha.hexdigest
        (Hook.encodeSurrogatePass (lit "root:0755\nd:0755:a\nd:0755:b"))) := by
    rfl
  have same := faithful _ _ _ _ trivial trivial _ signed signed'
  revert same
  decide

end Signature

/-! ### The digests -/

section Hexdigest

variable {sha : Sha256} {lsFiles lsTree : Listing} {paths labels : List PyStr}

/-- Equal digests mean equal files under the paths. -/
def DigestFaithful {ε : Type} (digest : Tracked ε → List PyStr → Option PyStr)
    (paths : List PyStr) : Prop :=
  ∀ files files', IsTree files → IsTree files' → ∀ hex,
    digest files paths = some hex → digest files' paths = some hex → Agree paths files files'

def CheckoutDigestAgrees (sha : Sha256) (lsFiles lsTree : Listing) (paths : List PyStr) : Prop :=
  ∀ files, IsTree files → (∀ file ∈ files, IsName file.1) → ∀ hex hex',
    protectedPathsDigest sha lsFiles (checkout files) paths = some hex →
      protectedPathsDigestAtRevision sha lsTree files paths = some hex' → hex = hex'

/-- Equal digests mean equal entries at these labels. -/
def AuthorityDigestFaithful (sha : Sha256) (labels : List PyStr) : Prop :=
  ∀ entries entries' : Tracked AuthorityFile, IsTree entries → IsTree entries' →
    entries.map (·.1) = labels → entries'.map (·.1) = labels → ∀ hex,
      stableGitTreeDigest sha entries = some hex → stableGitTreeDigest sha entries' = some hex →
        entries = entries'

theorem forall_hexdigest {x y : Option Bytes} {P : Prop} :
    (∀ hex, x.map sha.hexdigest = some hex → y.map sha.hexdigest = some hex → P) ↔
      ∀ data, x = some data → y = some data → P := by
  constructor
  · rintro h data rfl rfl
    exact h _ rfl rfl
  · intro h hex eq eq'
    obtain ⟨data, rfl, rfl⟩ := Option.map_eq_some_iff.mp eq
    obtain ⟨data', rfl, same⟩ := Option.map_eq_some_iff.mp eq'
    exact h data rfl (congrArg _ (sha.injective same))

theorem forall_hexdigest_eq {x y : Option Bytes} :
    (∀ hex hex', x.map sha.hexdigest = some hex → y.map sha.hexdigest = some hex' → hex = hex') ↔
      ∀ data data', x = some data → y = some data' → data = data' := by
  constructor
  · rintro h data data' rfl rfl
    exact sha.injective (h _ _ rfl rfl)
  · intro h hex hex' eq eq'
    obtain ⟨data, rfl, rfl⟩ := Option.map_eq_some_iff.mp eq
    obtain ⟨data', rfl, rfl⟩ := Option.map_eq_some_iff.mp eq'
    exact congrArg _ (h data data' rfl rfl)

theorem digestFaithful_iff {ε : Type} {list : Listing} {hashed : ε → Option Bytes} :
    DigestFaithful (fun files paths => (protectedBytes list hashed files paths).map sha.hexdigest)
      paths ↔ Faithful list hashed paths :=
  forall₄_congr fun _ _ _ _ => forall_hexdigest

theorem checkoutDigestAgrees_iff :
    CheckoutDigestAgrees sha lsFiles lsTree paths ↔ CheckoutAgrees lsFiles lsTree paths :=
  forall₃_congr fun _ _ _ => forall_hexdigest_eq

theorem authorityDigestFaithful_iff :
    AuthorityDigestFaithful sha labels ↔ AuthorityFaithful labels :=
  forall₂_congr fun _ _ => forall₄_congr fun _ _ _ _ => forall_hexdigest

/-- No digest of protected paths or of Git authority tells apart what it covers, unless there is
nothing to cover or no digest; a signature does where no name has a line feed. -/
theorem digests_tell_apart (sha : Sha256) :
    (∀ lsFiles paths, DigestFaithful (protectedPathsDigest sha lsFiles) paths ↔
      paths = [] ∨ ∃ path ∈ paths, Refused lsFiles path) ∧
    (∀ lsTree paths, DigestFaithful (protectedPathsDigestAtRevision sha lsTree) paths ↔
      paths = [] ∨ ∃ path ∈ paths, Refused lsTree path) ∧
    (∀ lsFiles lsTree paths, CheckoutDigestAgrees sha lsFiles lsTree paths ↔
      (∃ path ∈ paths, Refused lsFiles path ∨ Refused lsTree path) ∨
        SameListings lsFiles lsTree paths) ∧
    (∀ labels, AuthorityDigestFaithful sha labels ↔
      labels = [] ∨ ¬ labels.Nodup ∨ ∃ label ∈ labels, Unhashed label) ∧
    SignatureFaithful sha Plain ∧ ¬ SignatureFaithful sha fun _ _ => True := by
  refine ⟨fun lsFiles paths => ?_, fun lsTree paths => ?_, fun lsFiles lsTree paths => ?_,
    fun labels => ?_, signatureFaithful_plain sha, not_signatureFaithful sha⟩
  · have read : ∀ content, WorktreeFile.hashed (.file content) = some content := fun _ => rfl
    exact digestFaithful_iff.trans (faithful_iff read)
  · have read : ∀ content, RevisionFile.hashed (.blob content) = some content := fun _ => rfl
    exact digestFaithful_iff.trans (faithful_iff read)
  · exact checkoutDigestAgrees_iff.trans checkoutAgrees_iff
  · exact authorityDigestFaithful_iff.trans authorityFaithful_iff

end Hexdigest

/-! ### Two worktrees with one digest -/

def hexDigit (n : ℕ) : CodePoint := codePoint (Char.ofNat (if n < 10 then 0x30 + n else 0x57 + n))

def hexByte (b : UInt8) : PyStr := [hexDigit (b.toNat / 16), hexDigit (b.toNat % 16)]

theorem hexByte_injective : Function.Injective hexByte := by
  have digit : ∀ n < 16, ∀ m < 16, hexDigit n = hexDigit m → n = m := by decide
  intro b b' same
  have bound := b.toNat_lt
  have bound' := b'.toNat_lt
  simp only [hexByte, List.cons.injEq, and_true] at same
  have high := digit _ (by omega) _ (by omega) same.1
  have low := digit _ (by omega) _ (by omega) same.2
  exact UInt8.toNat_inj.mp (by omega)

/-- The bytes in hexadecimal in place of their hash. -/
def Sha256.sample : Sha256 where
  hexdigest data := data.flatMap hexByte
  isHex data := by
    have digit : ∀ n < 16, isHexDigit (hexDigit n) = true := by decide
    refine List.all_eq_true.mpr fun c mem => ?_
    obtain ⟨b, -, mem⟩ := List.mem_flatMap.mp mem
    have bound := b.toNat_lt
    simp only [hexByte, List.mem_cons, List.not_mem_nil, or_false] at mem
    obtain rfl | rfl := mem
    · exact digit _ (by omega)
    · exact digit _ (by omega)
  injective data := by
    induction data with
    | nil =>
      rintro (_ | ⟨b, data⟩) same
      · rfl
      · cases same
    | cons b data ih =>
      rintro (_ | ⟨b', data'⟩) same
      · cases same
      · obtain ⟨first, rest⟩ := List.append_inj same rfl
        rw [hexByte_injective first, ih rest]

def lsBelow : Listing := fun path =>
  some fun name => name == path || (path ++ [slash]).isPrefixOf name

/-- The file `p/a` with content `b` has the digest of an empty file `p/ab`. -/
theorem moved_name_undetected :
    ¬ ∀ paths, DigestFaithful (protectedPathsDigest .sample lsBelow) paths := by
  intro faithful
  have tree : IsTree [(lit "p/a", WorktreeFile.file [0x62])] :=
    isTree_single (by decide) _
  have tree' : IsTree [(lit "p/ab", WorktreeFile.file [])] := isTree_single (by decide) _
  have hashed : protectedPathsDigest .sample lsBelow [(lit "p/a", .file [0x62])] [lit "p"] =
      some (lit "70702f6162") := by decide +kernel
  have hashed' : protectedPathsDigest .sample lsBelow [(lit "p/ab", .file [])] [lit "p"] =
      some (lit "70702f6162") := by decide +kernel
  have agree := faithful [lit "p"] _ _ tree tree' _ hashed hashed' (lit "p")
    List.mem_cons_self (lit "p/a") (.inr ⟨lit "a", rfl⟩) (.file [0x62])
  have same := List.mem_singleton.mp (agree.mp List.mem_cons_self)
  exact absurd (congrArg Prod.fst same) (by decide)

end CodexFlow.Git
