import CodexFlow.Ipc.Utf8
import CodexFlow.Plugins.Bundle

/-!
# Paths in a plugin bundle

The names that the files of a bundle have, and directories with files of given names.
-/

namespace CodexFlow.Plugins

open Hook (CodePoint PyStr lit isSurrogate encodeSurrogatePass utf8Bytes)
open Capsule (byteLength)
open Contracts (slash)

/-! ### Names of files -/

theorem isEntryName_iff {name : PyStr} : isEntryName name = true ↔
    name ∉ [[], lit ".", lit ".."] ∧ name.any isSurrogate = false ∧ byteLength name ≤ 256 ∧
      slash ∉ name ∧ Git.nul ∉ name := by
  simp [isEntryName, and_assoc]

theorem ne_nil_of_isEntryName {name : PyStr} (h : isEntryName name = true) : name ≠ [] := by
  rintro rfl
  exact (isEntryName_iff.1 h).1 List.mem_cons_self

def IsFileName (name : PyStr) : Prop :=
  (name.splitOn slash).length ≤ maxBundleDepth ∧
    ∀ part ∈ name.splitOn slash, isEntryName part = true

/-- The names on the way to a file of a bundle. -/
def IsPath (parts : List PyStr) : Prop :=
  parts ≠ [] ∧ parts.length ≤ maxBundleDepth ∧ ∀ part ∈ parts, isEntryName part = true

theorem foldl_childRelative {relative : PyStr} (h : relative ≠ []) (parts : List PyStr) :
    parts.foldl childRelative relative = [slash].intercalate (relative :: parts) := by
  induction parts generalizing relative with
  | nil => exact List.intercalate_singleton.symm
  | cons part parts ih =>
    have hchild : childRelative relative part = relative ++ slash :: part := if_neg h
    rw [List.foldl_cons, hchild, ih (by simp)]
    cases parts with
    | nil => simp [List.intercalate_cons_cons]
    | cons next parts => simp [List.intercalate_cons_cons]

theorem IsPath.foldl {parts : List PyStr} (h : IsPath parts) :
    parts.foldl childRelative [] = [slash].intercalate parts := by
  obtain ⟨hne, -, hparts⟩ := h
  cases parts with
  | nil => exact absurd rfl hne
  | cons part parts =>
    rw [List.foldl_cons, childRelative, if_pos rfl]
    exact foldl_childRelative (ne_nil_of_isEntryName (hparts part List.mem_cons_self)) parts

theorem IsPath.splitOn {parts : List PyStr} (h : IsPath parts) :
    (parts.foldl childRelative []).splitOn slash = parts := by
  rw [h.foldl]
  exact List.splitOn_intercalate slash
    (fun part hmem => (isEntryName_iff.1 (h.2.2 part hmem)).2.2.2.1) h.1

theorem IsPath.isFileName {parts : List PyStr} (h : IsPath parts) :
    IsFileName (parts.foldl childRelative []) := by
  unfold IsFileName
  rw [h.splitOn]
  exact h.2

theorem IsFileName.isPath {name : PyStr} (h : IsFileName name) : IsPath (name.splitOn slash) :=
  ⟨List.splitOn_ne_nil slash name, h⟩

theorem IsFileName.foldl {name : PyStr} (h : IsFileName name) :
    (name.splitOn slash).foldl childRelative [] = name :=
  h.isPath.foldl.trans (List.intercalate_splitOn slash)

theorem IsFileName.forall_mem {name : PyStr} (h : IsFileName name) {p : CodePoint → Prop}
    (hslash : p slash) (hparts : ∀ part, isEntryName part = true → ∀ c ∈ part, p c) :
    ∀ c ∈ name, p c := by
  have hall : ∀ parts : List PyStr, (∀ part ∈ parts, isEntryName part = true) →
      ∀ c ∈ [slash].intercalate parts, p c := by
    intro parts hvalid
    induction parts with
    | nil => exact nofun
    | cons part parts ih =>
      obtain ⟨hpart, hvalid⟩ := List.forall_mem_cons.1 hvalid
      cases parts with
      | nil =>
        rw [List.intercalate_singleton]
        exact hparts part hpart
      | cons next parts =>
        rw [List.intercalate_cons_cons]
        intro c hmem
        obtain hmem | hmem := List.mem_append.1 hmem
        · obtain hmem | hmem := List.mem_append.1 hmem
          · exact hparts part hpart c hmem
          · exact List.mem_singleton.1 hmem ▸ hslash
        · exact ih hvalid c hmem
  have hjoined := hall _ h.2
  rwa [List.intercalate_splitOn] at hjoined

/-! ### Their bytes -/

theorem zero_notMem_utf8Bytes {c : CodePoint} (h : c ≠ Git.nul) : (0 : UInt8) ∉ utf8Bytes c := by
  have hlast := c.isLt
  have hpos : c.val ≠ 0 := fun hzero => h (Fin.ext hzero)
  have hbyte : ∀ n, 0 < n → n < 0x100 → (0 : UInt8) ≠ .ofNat n := by
    intro n hn hlt hzero
    have htoNat := congrArg UInt8.toNat hzero
    rw [UInt8.toNat_ofNat'] at htoNat
    change 0 = n % 256 at htoNat
    omega
  unfold utf8Bytes
  dsimp only
  split_ifs <;> simp only [List.mem_cons, List.not_mem_nil, or_false, not_or] <;>
    repeat' constructor
  all_goals exact hbyte _ (by omega) (by omega)

theorem IsFileName.zero_notMem {name : PyStr} (h : IsFileName name) :
    (0 : UInt8) ∉ encodeSurrogatePass name := by
  have hnul := h.forall_mem (p := (· ≠ Git.nul)) (by decide)
    fun part hpart c hmem hc => (isEntryName_iff.1 hpart).2.2.2.2 (hc ▸ hmem)
  intro hmem
  obtain ⟨c, hc, hzero⟩ := List.mem_flatMap.1 hmem
  exact zero_notMem_utf8Bytes (hnul c hc) hzero

theorem IsFileName.encode_inj {a b : PyStr} (ha : IsFileName a) (hb : IsFileName b)
    (h : encodeSurrogatePass a = encodeSurrogatePass b) : a = b := by
  have hclean : ∀ {name : PyStr}, IsFileName name → name.any isSurrogate = false := by
    intro name hname
    refine List.any_eq_false.2 fun c hmem => ?_
    exact hname.forall_mem (p := fun c => ¬ isSurrogate c = true) (by decide)
      (fun part hpart => List.any_eq_false.1 (isEntryName_iff.1 hpart).2.1) c hmem
  have hdecode : ∀ {name : PyStr}, IsFileName name →
      Ipc.decodeUtf8 (encodeSurrogatePass name) = some name := fun hname =>
    Ipc.decodeUtf8_encodeUtf8 (if_neg (by rw [hclean hname]; exact Bool.false_ne_true))
  exact Option.some.inj ((hdecode ha).symm.trans (h ▸ hdecode hb))

/-! ### Paths of a directory -/

/-- Neither path lies on the way to the other. -/
def Apart (a b : List PyStr) : Prop := ¬ a <+: b ∧ ¬ b <+: a

theorem Apart.symm {a b : List PyStr} (h : Apart a b) : Apart b a := And.symm h

namespace Directory

theorem head_mem_names {d : Directory} : ∀ file ∈ d.paths, ∃ name rest,
    file.1 = name :: rest ∧ name ∈ d.names := by
  induction d with
  | empty => exact nofun
  | file name content rest ih =>
    intro file hmem
    obtain rfl | hmem := List.mem_cons.1 hmem
    · exact ⟨name, [], rfl, List.mem_cons_self⟩
    · obtain ⟨first, more, hpath, hname⟩ := ih file hmem
      exact ⟨first, more, hpath, List.mem_cons_of_mem _ hname⟩
  | directory name entries rest _ ih =>
    intro file hmem
    obtain hmem | hmem := List.mem_append.1 hmem
    · obtain ⟨inner, -, rfl⟩ := List.mem_map.1 hmem
      exact ⟨name, inner.1, rfl, List.mem_cons_self⟩
    · obtain ⟨first, more, hpath, hname⟩ := ih file hmem
      exact ⟨first, more, hpath, List.mem_cons_of_mem _ hname⟩
  | symlink name rest ih | special name rest ih =>
    intro file hmem
    obtain ⟨first, more, hpath, hname⟩ := ih file hmem
    exact ⟨first, more, hpath, List.mem_cons_of_mem _ hname⟩

/-- No file lies on the way to another. -/
theorem Distinct.pairwise_apart {d : Directory} (h : d.Distinct) :
    d.paths.Pairwise fun a b => Apart a.1 b.1 := by
  have hheads : ∀ {name : PyStr} {rest : Directory} {parts : List PyStr}, name ∉ rest.names →
      ∀ file ∈ rest.paths, Apart (name :: parts) file.1 := by
    intro name rest parts hname file hmem
    obtain ⟨first, more, hpath, hfirst⟩ := head_mem_names file hmem
    rw [hpath]
    exact ⟨fun hfront => hname ((List.cons_prefix_cons.1 hfront).1 ▸ hfirst),
      fun hfront => hname ((List.cons_prefix_cons.1 hfront).1 ▸ hfirst)⟩
  induction d with
  | empty => exact .nil
  | file name content rest ih => exact List.pairwise_cons.2 ⟨hheads h.1, ih h.2⟩
  | directory name entries rest ihEntries ihRest =>
    refine List.pairwise_append.2 ⟨List.pairwise_map.2 ((ihEntries h.2.1).imp fun hapart => ?_),
      ihRest h.2.2, ?_⟩
    · exact ⟨fun hfront => hapart.1 (List.cons_prefix_cons.1 hfront).2,
        fun hfront => hapart.2 (List.cons_prefix_cons.1 hfront).2⟩
    · intro file hmem
      obtain ⟨inner, -, rfl⟩ := List.mem_map.1 hmem
      exact hheads h.1
  | symlink name rest ih | special name rest ih => exact ih h.2

/-- The names on the way to a file are within the bounds. -/
theorem Fits.parts {depth : ℕ} {d : Directory} (h : d.Fits depth) (hdepth : depth ≤ maxBundleDepth)
    (hnames : ∀ name ∈ d.names, isEntryName name = true) :
    ∀ file ∈ d.paths, depth + file.1.length ≤ maxBundleDepth + 1 ∧
      ∀ part ∈ file.1, isEntryName part = true := by
  induction d generalizing depth with
  | empty => exact nofun
  | file name content rest ih =>
    obtain ⟨hname, hrest⟩ := List.forall_mem_cons.1 hnames
    refine List.forall_mem_cons.2 ⟨⟨Nat.add_le_add_right hdepth 1, ?_⟩, ih h.2 hdepth hrest⟩
    exact List.forall_mem_singleton.2 hname
  | directory name entries rest ihEntries ihRest =>
    obtain ⟨hname, hrest⟩ := List.forall_mem_cons.1 hnames
    intro file hmem
    obtain hmem | hmem := List.mem_append.1 hmem
    · obtain ⟨inner, hinner, rfl⟩ := List.mem_map.1 hmem
      obtain ⟨hlength, hparts⟩ := ihEntries h.2.2.1 h.1 h.2.1 inner hinner
      refine ⟨?_, List.forall_mem_cons.2 ⟨hname, hparts⟩⟩
      rw [List.length_cons]
      omega
    · exact ihRest h.2.2.2 hdepth hrest file hmem
  | symlink name rest => exact h.elim
  | special name rest => exact h.elim

end Directory

/-! ### Directories with given files -/

namespace Directory

def withFile : List PyStr → List UInt8 → Directory → Directory
  | [], _, rest => rest
  | [name], content, rest => .file name content rest
  | name :: next :: parts, content, rest =>
    .directory name (withFile (next :: parts) content .empty) rest

theorem paths_withFile {parts : List PyStr} (h : parts ≠ []) (content : List UInt8)
    (rest : Directory) : (withFile parts content rest).paths = (parts, content) :: rest.paths := by
  match parts, h with
  | [name], _ => rfl
  | name :: next :: parts, _ =>
    rw [withFile, paths, paths_withFile (List.cons_ne_nil next parts)]
    rfl

theorem names_withFile {name : PyStr} {parts : List PyStr} {content : List UInt8}
    {rest : Directory} : (withFile (name :: parts) content rest).names = name :: rest.names := by
  cases parts <;> rfl

theorem distinct_withFile {name : PyStr} {parts : List PyStr} {content : List UInt8}
    {rest : Directory} (hname : name ∉ rest.names) (h : rest.Distinct) :
    (withFile (name :: parts) content rest).Distinct := by
  match parts with
  | [] => exact ⟨hname, h⟩
  | next :: parts => exact ⟨hname, distinct_withFile List.not_mem_nil trivial, h⟩

theorem fits_withFile {depth : ℕ} {parts : List PyStr} {content : List UInt8} {rest : Directory}
    (hlength : depth + parts.length ≤ maxBundleDepth + 1)
    (hparts : ∀ part ∈ parts, isEntryName part = true)
    (hcontent : content.length ≤ maxSingleFileBytes) (h : rest.Fits depth) :
    (withFile parts content rest).Fits depth := by
  match parts with
  | [] => exact h
  | [name] => exact ⟨hcontent, h⟩
  | name :: next :: parts =>
    obtain ⟨-, hparts⟩ := List.forall_mem_cons.1 hparts
    rw [List.length_cons, List.length_cons] at hlength
    refine ⟨by omega, ?_,
      fits_withFile (by rw [List.length_cons]; omega) hparts hcontent trivial, h⟩
    rw [names_withFile]
    exact List.forall_mem_singleton.2 (hparts next List.mem_cons_self)

theorem entriesBelow_withFile {parts : List PyStr} {content : List UInt8} {rest : Directory} :
    (withFile parts content rest).entriesBelow ≤ parts.length + rest.entriesBelow := by
  match parts with
  | [] => exact Nat.le_add_left _ _
  | [name] => exact Nat.le_add_left _ _
  | name :: next :: parts =>
    have hbelow := @entriesBelow_withFile (next :: parts) content .empty
    rw [withFile, entriesBelow, names_withFile]
    simp only [List.length_cons, names, List.length_nil, entriesBelow] at hbelow ⊢
    omega

theorem size_withFile {parts : List PyStr} (hparts : parts ≠ []) {content : List UInt8}
    {rest : Directory} : (withFile parts content rest).size = content.length + rest.size := by
  match parts, hparts with
  | [name], _ => rfl
  | name :: next :: parts, _ =>
    rw [withFile, size, size_withFile (List.cons_ne_nil next parts)]
    rfl

def ofTwo (content content' : List UInt8) : List PyStr → List PyStr → Directory
  | name :: parts, name' :: parts' =>
    if name = name' then .directory name (ofTwo content content' parts parts') .empty
    else withFile (name :: parts) content (withFile (name' :: parts') content' .empty)
  | _, _ => .empty

theorem ofTwo_spec (content content' : List UInt8) {a b : List PyStr} (h : Apart a b) :
    (ofTwo content content' a b).paths = [(a, content), (b, content')] ∧
      (ofTwo content content' a b).size = content.length + content'.length ∧
      (ofTwo content content' a b).Distinct ∧
      (∀ name ∈ (ofTwo content content' a b).names, name ∈ a ∨ name ∈ b) ∧
      (ofTwo content content' a b).names.length ≤ 2 ∧
      (ofTwo content content' a b).entriesBelow ≤ 2 * a.length + b.length := by
  induction a generalizing b with
  | nil => exact absurd List.nil_prefix h.1
  | cons name parts ih =>
    cases b with
    | nil => exact absurd List.nil_prefix h.2
    | cons name' parts' =>
      rw [ofTwo]
      split_ifs with hname
      · obtain rfl := hname
        obtain ⟨hpaths, hsize, hdistinct, -, hnames, hbelow⟩ := @ih parts'
          ⟨fun hfront => h.1 (List.cons_prefix_cons.2 ⟨rfl, hfront⟩),
            fun hfront => h.2 (List.cons_prefix_cons.2 ⟨rfl, hfront⟩)⟩
        refine ⟨?_, hsize, ⟨List.not_mem_nil, hdistinct, trivial⟩,
          List.forall_mem_singleton.2 (.inl List.mem_cons_self), Nat.le_succ 1, ?_⟩
        · rw [paths, hpaths]
          rfl
        · rw [entriesBelow, entriesBelow, List.length_cons, List.length_cons]
          omega
      · have hother : name ∉ (withFile (name' :: parts') content' empty).names := by
          rw [names_withFile]
          exact fun hmem => hname (List.mem_singleton.1 hmem)
        have hbelow := @entriesBelow_withFile (name :: parts) content
          (withFile (name' :: parts') content' empty)
        have hbelow' := @entriesBelow_withFile (name' :: parts') content' empty
        refine ⟨?_, ?_, distinct_withFile hother (distinct_withFile List.not_mem_nil trivial), ?_,
          ?_, ?_⟩
        · rw [paths_withFile (List.cons_ne_nil _ _), paths_withFile (List.cons_ne_nil _ _)]
          rfl
        · rw [size_withFile (List.cons_ne_nil _ _), size_withFile (List.cons_ne_nil _ _)]
          rfl
        · rw [names_withFile, names_withFile]
          exact List.forall_mem_cons.2 ⟨.inl List.mem_cons_self,
            List.forall_mem_singleton.2 (.inr List.mem_cons_self)⟩
        · rw [names_withFile, names_withFile]
          exact Nat.le_refl 2
        · rw [entriesBelow] at hbelow'
          omega

theorem fits_ofTwo {depth : ℕ} {content content' : List UInt8} {a b : List PyStr}
    (ha : depth + a.length ≤ maxBundleDepth + 1) (hb : depth + b.length ≤ maxBundleDepth + 1)
    (haparts : ∀ part ∈ a, isEntryName part = true) (hbparts : ∀ part ∈ b, isEntryName part = true)
    (hcontent : content.length ≤ maxSingleFileBytes)
    (hcontent' : content'.length ≤ maxSingleFileBytes) (h : Apart a b) :
    (ofTwo content content' a b).Fits depth := by
  induction a generalizing b depth with
  | nil => exact absurd List.nil_prefix h.1
  | cons name parts ih =>
    cases b with
    | nil => exact absurd List.nil_prefix h.2
    | cons name' parts' =>
      rw [ofTwo]
      split_ifs with hname
      · obtain rfl := hname
        obtain ⟨-, haparts⟩ := List.forall_mem_cons.1 haparts
        obtain ⟨-, hbparts⟩ := List.forall_mem_cons.1 hbparts
        have hinner : Apart parts parts' :=
          ⟨fun hfront => h.1 (List.cons_prefix_cons.2 ⟨rfl, hfront⟩),
            fun hfront => h.2 (List.cons_prefix_cons.2 ⟨rfl, hfront⟩)⟩
        have hpos : parts ≠ [] := fun hnil => hinner.1 (hnil ▸ List.nil_prefix)
        have hlength := List.length_pos_of_ne_nil hpos
        rw [List.length_cons] at ha hb
        refine ⟨by omega, fun part hmem => ?_,
          ih (by omega) (by omega) haparts hbparts hinner, trivial⟩
        obtain hmem | hmem := (ofTwo_spec content content' hinner).2.2.2.1 part hmem
        · exact haparts part hmem
        · exact hbparts part hmem
      · exact fits_withFile ha haparts hcontent (fits_withFile hb hbparts hcontent' trivial)

end Directory

end CodexFlow.Plugins
