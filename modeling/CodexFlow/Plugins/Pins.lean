import CodexFlow.Plugins.Paths

/-!
# Pins of plugin bundles

What the digest of a bundle says about its files. Neither the names nor the contents are hashed with
their lengths, so that a content may run on into the next name.
-/

namespace CodexFlow.Plugins

open Hook (PyStr lit encodeSurrogatePass)
open Capsule (Checked)
open Contracts (slash PluginRequirement PluginCapabilitySnapshot)
open Checked Walk

/-! ### What is read -/

variable {sha256 : List UInt8 → PyStr}

def Reads (sha256 : List UInt8 → PyStr) (contents : BundleContents) : Prop :=
  ∃ d budget budget', Directory.Distinct d ∧ readBundle sha256 d budget = .ok (contents, budget')

theorem readBundle_eq_ok {d : Directory} {budget budget' : ReadBudget} {contents : BundleContents}
    (h : readBundle sha256 d budget = .ok (contents, budget')) :
    d.Fits 1 ∧ (∀ name ∈ d.names, isEntryName name = true) ∧
      contents.files = d.paths.map (entryAt []) ∧
      contents.digest = sha256 (digestInput contents.files) := by
  obtain ⟨w, henter, h⟩ := bind_eq_ok.1 h
  obtain ⟨-, hnames, -, rfl⟩ := enter_eq_ok.1 henter
  obtain ⟨w', hvisit, h⟩ := bind_eq_ok.1 h
  obtain ⟨hfits, hfiles, -⟩ := visit_ok hvisit
  cases h
  exact ⟨hfits, hnames, hfiles, rfl⟩

/-- The files that are read have names, and none lies on the way to another. -/
theorem Reads.files {contents : BundleContents} (h : Reads sha256 contents) :
    (∀ file ∈ contents.files, IsFileName file.1) ∧
      contents.files.Pairwise (fun a b => Apart (a.1.splitOn slash) (b.1.splitOn slash)) ∧
      contents.digest = sha256 (digestInput contents.files) := by
  obtain ⟨d, budget, budget', hdistinct, hread⟩ := h
  obtain ⟨hfits, hnames, hfiles, hdigest⟩ := readBundle_eq_ok hread
  have hpaths : ∀ file ∈ d.paths, IsPath file.1 := by
    intro file hmem
    obtain ⟨hlength, hparts⟩ := hfits.parts (by decide) hnames file hmem
    obtain ⟨first, more, hpath, -⟩ := Directory.head_mem_names file hmem
    exact ⟨hpath ▸ List.cons_ne_nil _ _, by omega, hparts⟩
  refine ⟨?_, ?_, hdigest⟩
  · rw [hfiles]
    intro file hmem
    obtain ⟨path, hpath, rfl⟩ := List.mem_map.1 hmem
    exact (hpaths path hpath).isFileName
  · rw [hfiles, List.pairwise_map]
    refine hdistinct.pairwise_apart.imp_of_mem fun {a b} ha hb hapart => ?_
    unfold entryAt
    rwa [(hpaths a ha).splitOn, (hpaths b hb).splitOn]

/-! ### Cutting what is hashed -/

def hashed (files : List (PyStr × List UInt8)) : List UInt8 :=
  files.flatMap fun file => encodeSurrogatePass file.1 ++ 0 :: file.2

theorem hashed_cons (file : PyStr × List UInt8) (files : List (PyStr × List UInt8)) :
    hashed (file :: files) = encodeSurrogatePass file.1 ++ 0 :: (file.2 ++ hashed files) := by
  unfold hashed
  rw [List.flatMap_cons, List.append_assoc, List.cons_append]

/-- What stands before the first of a separator is one thing. -/
theorem append_cons_inj {α : Type} {separator : α} {a b rest rest' : List α} (ha : separator ∉ a)
    (hb : separator ∉ b) (h : a ++ separator :: rest = b ++ separator :: rest') :
    a = b ∧ rest = rest' := by
  induction a generalizing b with
  | nil =>
    cases b with
    | nil => exact ⟨rfl, (List.cons.inj h).2⟩
    | cons first b => exact absurd ((List.cons.inj h).1 ▸ List.mem_cons_self) hb
  | cons first a ih =>
    cases b with
    | nil => exact absurd ((List.cons.inj h).1 ▸ List.mem_cons_self) ha
    | cons first' b =>
      rw [List.cons_append, List.cons_append, List.cons.injEq] at h
      obtain ⟨rfl, hrest⟩ := ih (fun hmem => ha (List.mem_cons_of_mem _ hmem))
        (fun hmem => hb (List.mem_cons_of_mem _ hmem)) h.2
      exact ⟨h.1 ▸ rfl, hrest⟩

/-- The first name can be told from what follows. -/
theorem hashed_cons_inj {a b : PyStr × List UInt8} {as bs : List (PyStr × List UInt8)}
    (ha : IsFileName a.1) (hb : IsFileName b.1) (h : hashed (a :: as) = hashed (b :: bs)) :
    a.1 = b.1 ∧ a.2 ++ hashed as = b.2 ++ hashed bs := by
  rw [hashed_cons, hashed_cons] at h
  obtain ⟨hname, hrest⟩ := append_cons_inj ha.zero_notMem hb.zero_notMem h
  exact ⟨ha.encode_inj hb hname, hrest⟩

/-- Files in the order in which they are hashed. -/
structure Ordered (files : List (PyStr × List UInt8)) : Prop where
  isFileName : ∀ file ∈ files, IsFileName file.1
  sorted : files.Pairwise fun a b => Hook.keyLE a.1 b.1 = true
  apart : files.Pairwise fun a b => Apart (a.1.splitOn slash) (b.1.splitOn slash)

theorem Reads.exists_ordered {contents : BundleContents} (h : Reads sha256 contents) :
    ∃ files, Ordered files ∧ files.Perm contents.files ∧
      digestInput contents.files = hashed files := by
  obtain ⟨hnames, hapart, -⟩ := h.files
  have hperm := List.mergeSort_perm contents.files fun a b => Hook.keyLE a.1 b.1
  refine ⟨_, ⟨fun file hmem => hnames file (hperm.mem_iff.1 hmem), ?_,
    (hperm.pairwise_iff Apart.symm).2 hapart⟩, hperm, rfl⟩
  exact List.pairwise_mergeSort (fun a b c => Capsule.keyLE_trans a.1 b.1 c.1)
    (fun a b => Capsule.keyLE_total a.1 b.1) _

/-- A content in which another file may begin: the name of one follows, later in the order, and a
zero byte. -/
def IsCut (file : PyStr × List UInt8) : Prop :=
  ∃ before other after, file.2 = before ++ encodeSurrogatePass other ++ 0 :: after ∧
    IsFileName other ∧ Hook.keyLE file.1 other = true ∧
    Apart (file.1.splitOn slash) (other.splitOn slash)

/-- There is at most one file, and no other may begin in its content. -/
def Undivided (files : List (PyStr × List UInt8)) : Prop :=
  files.length ≤ 1 ∧ ∀ file ∈ files, ¬ IsCut file

theorem Undivided.eq_of_hashed {files others : List (PyStr × List UInt8)} (h : Undivided files)
    (hfiles : Ordered files) (hothers : Ordered others) (hsame : hashed others = hashed files) :
    others = files := by
  have hne : ∀ file files, hashed (file :: files) ≠ [] := by
    intro file files hnil
    rw [hashed_cons] at hnil
    exact absurd (List.append_eq_nil_iff.1 hnil).2 (List.cons_ne_nil _ _)
  match files, others, h with
  | [], [], _ => rfl
  | [], other :: others, _ => exact absurd hsame (hne other others)
  | [file], [], _ => exact absurd hsame.symm (hne file [])
  | [file], [other], _ =>
    obtain ⟨hname, hcontent⟩ := hashed_cons_inj (hothers.isFileName other List.mem_cons_self)
      (hfiles.isFileName file List.mem_cons_self) hsame
    rw [show hashed [] = [] from rfl, List.append_nil, List.append_nil] at hcontent
    rw [Prod.ext hname hcontent]
  | [file], other :: next :: others, h =>
    obtain ⟨hname, hcontent⟩ := hashed_cons_inj (hothers.isFileName other List.mem_cons_self)
      (hfiles.isFileName file List.mem_cons_self) hsame
    have hmem : next ∈ next :: others := List.mem_cons_self
    refine absurd ?_ (h.2 file List.mem_cons_self)
    refine ⟨other.2, next.1, next.2 ++ hashed others, ?_,
      hothers.isFileName next (List.mem_cons_of_mem _ hmem), ?_, ?_⟩
    · rw [hashed_cons, show hashed [] = [] from rfl, List.append_nil] at hcontent
      rw [← hcontent, List.append_assoc]
    · exact hname ▸ (List.pairwise_cons.1 hothers.sorted).1 next hmem
    · exact hname ▸ (List.pairwise_cons.1 hothers.apart).1 next hmem
  | _ :: _ :: _, _, h => exact absurd h.1 (by simp)

/-- Bundles with one digest have the same files where those of one cannot be divided. -/
theorem Reads.perm_of_digest (hsha : Function.Injective sha256)
    {contents contents' : BundleContents} (h : Reads sha256 contents)
    (h' : Reads sha256 contents') (hundivided : Undivided contents.files)
    (hdigest : contents'.digest = contents.digest) : contents'.files.Perm contents.files := by
  obtain ⟨files, hfiles, hperm, hhashed⟩ := h.exists_ordered
  obtain ⟨others, hothers, hperm', hhashed'⟩ := h'.exists_ordered
  have hsame : hashed others = hashed files := by
    rw [← hhashed, ← hhashed']
    rw [h.files.2.2, h'.files.2.2] at hdigest
    exact hsha hdigest
  have hundivided' : Undivided files :=
    ⟨hperm.length_eq.trans_le hundivided.1,
      fun file hmem => hundivided.2 file (hperm.mem_iff.1 hmem)⟩
  rw [← hundivided'.eq_of_hashed hfiles hothers hsame] at hperm
  exact hperm'.symm.trans hperm

/-! ### Bundles that are hashed alike -/

theorem exists_reads (sha256 : List UInt8 → PyStr) {d : Directory} (hdistinct : d.Distinct)
    (hnames : ∀ name ∈ d.names, isEntryName name = true) (hfits : d.Fits 1)
    (hentries : d.names.length + d.entriesBelow ≤ maxDiscoveryEntries)
    (hfiles : d.paths.length ≤ maxBundleFiles) (hsize : d.size ≤ maxBundleBytes) :
    ∃ contents, Reads sha256 contents ∧ contents.files = d.paths.map (entryAt []) := by
  obtain ⟨w, henter⟩ : ∃ w, Walk.enter { budget := {} } 1 d = .ok w :=
    ⟨_, enter_eq_ok.2 ⟨by decide, hnames, by dsimp only; omega, rfl⟩⟩
  obtain ⟨-, -, -, hw⟩ := enter_eq_ok.1 henter
  have hentries' : w.budget.entries = 0 + d.names.length := hw ▸ rfl
  obtain ⟨w', hvisit⟩ : ∃ w', Walk.visit [] 1 d w = .ok w' := exists_visit hfits
    (by rw [← hw]; dsimp only [List.length_nil]; omega) (by omega)
    (by rw [← hw]; dsimp only; rw [Nat.zero_add]; exact hsize)
    (by rw [← hw]; dsimp only; rw [Nat.zero_add]; exact hsize)
  have hread : readBundle sha256 d {} =
      .ok ({ w' with digest := sha256 (digestInput w'.files) }, w'.budget) :=
    bind_eq_ok.2 ⟨w, henter, bind_eq_ok.2 ⟨w', hvisit, rfl⟩⟩
  exact ⟨_, ⟨d, {}, _, hdistinct, hread⟩, (readBundle_eq_ok hread).2.2.1⟩

theorem digestInput_of_sorted {files : List (PyStr × List UInt8)}
    (h : files.Pairwise fun a b => Hook.keyLE a.1 b.1 = true) :
    digestInput files = hashed files := by
  unfold digestInput
  rw [List.mergeSort_of_pairwise h]
  rfl

theorem Reads.digest_eq {contents : BundleContents} (h : Reads sha256 contents)
    {files : List (PyStr × List UInt8)} (hfiles : contents.files = files)
    (hsorted : files.Pairwise fun a b => Hook.keyLE a.1 b.1 = true) :
    contents.digest = sha256 (hashed files) := by
  rw [h.files.2.2, hfiles, digestInput_of_sorted hsorted]

/-- A file with any content that fits, alone in its bundle. -/
theorem exists_reads_single (sha256 : List UInt8 → PyStr) {name : PyStr} (hname : IsFileName name)
    {content : List UInt8} (hcontent : content.length ≤ maxSingleFileBytes) :
    ∃ contents, Reads sha256 contents ∧ contents.files = [(name, content)] := by
  obtain ⟨hne, hlength, hparts⟩ := hname.isPath
  have hpaths := Directory.paths_withFile hne content .empty
  have hbelow := @Directory.entriesBelow_withFile (name.splitOn slash) content .empty
  have hsize := @Directory.size_withFile (name.splitOn slash) hne content .empty
  obtain ⟨first, parts, hsplit⟩ := List.exists_cons_of_ne_nil hne
  have hnames : (Directory.withFile (name.splitOn slash) content .empty).names = [first] := by
    rw [hsplit]
    exact Directory.names_withFile
  have hdistinct : (Directory.withFile (name.splitOn slash) content .empty).Distinct := by
    rw [hsplit]
    exact Directory.distinct_withFile List.not_mem_nil trivial
  rw [Directory.entriesBelow] at hbelow
  unfold maxBundleDepth at hlength
  obtain ⟨contents, hreads, hfiles⟩ := exists_reads sha256 hdistinct
    (by rw [hnames]; exact List.forall_mem_singleton.2 (hparts first (hsplit ▸ List.mem_cons_self)))
    (Directory.fits_withFile (by unfold maxBundleDepth; omega) hparts hcontent trivial)
    (by rw [hnames, List.length_singleton, maxDiscoveryEntries]; omega)
    (by rw [hpaths]; exact (by decide : 1 ≤ maxBundleFiles))
    (by rw [hsize]; exact hcontent.trans (by decide))
  refine ⟨contents, hreads, ?_⟩
  rw [hfiles, hpaths]
  exact congrArg (fun name => [(name, content)]) hname.foldl

/-- Two files with any contents that fit, neither on the way to the other. -/
theorem exists_reads_two (sha256 : List UInt8 → PyStr) {a b : PyStr} (ha : IsFileName a)
    (hb : IsFileName b) (hapart : Apart (a.splitOn slash) (b.splitOn slash))
    {content content' : List UInt8} (hcontent : content.length ≤ maxSingleFileBytes)
    (hcontent' : content'.length ≤ maxSingleFileBytes) :
    ∃ contents, Reads sha256 contents ∧ contents.files = [(a, content), (b, content')] := by
  obtain ⟨hpaths, hsize, hdistinct, hnames, hcount, hbelow⟩ :=
    Directory.ofTwo_spec content content' hapart
  have halength := ha.1
  have hblength := hb.1
  unfold maxBundleDepth at halength hblength
  obtain ⟨contents, hreads, hfiles⟩ := exists_reads sha256 hdistinct
    (fun name hmem => (hnames name hmem).elim (ha.2 name) (hb.2 name))
    (Directory.fits_ofTwo (by unfold maxBundleDepth; omega) (by unfold maxBundleDepth; omega) ha.2
      hb.2 hcontent hcontent' hapart)
    (by unfold maxDiscoveryEntries; omega)
    (by rw [hpaths]; exact (by decide : 2 ≤ maxBundleFiles))
    (by rw [hsize]; unfold maxSingleFileBytes at hcontent hcontent'; unfold maxBundleBytes; omega)
  refine ⟨contents, hreads, ?_⟩
  rw [hfiles, hpaths]
  exact congrArg₂ (fun a b => [(a, content), (b, content')]) ha.foldl hb.foldl

/-- A bundle that is the only one of its digest cannot be divided, where what is hashed fits in one
file. -/
theorem Reads.undivided {contents : BundleContents} (h : Reads sha256 contents)
    (hlength : (digestInput contents.files).length ≤ maxSingleFileBytes)
    (honly : ∀ contents', Reads sha256 contents' → contents'.digest = contents.digest →
      contents'.files.Perm contents.files) : Undivided contents.files := by
  obtain ⟨files, hfiles, hperm, hhashed⟩ := h.exists_ordered
  have hdigest : contents.digest = sha256 (hashed files) := hhashed ▸ h.files.2.2
  rw [hhashed] at hlength
  match files, hfiles, hperm with
  | [], _, hperm =>
    rw [hperm.symm.eq_nil]
    exact ⟨Nat.zero_le 1, nofun⟩
  | [file], hfiles, hperm =>
    rw [hperm.symm.eq_singleton]
    refine ⟨Nat.le_refl 1, List.forall_mem_singleton.2 ?_⟩
    rintro ⟨before, other, after, hcontent, hother, hle, hapart⟩
    have hsame : hashed [(file.1, before), (other, after)] = hashed [file] := by
      simp only [hashed_cons, hcontent, List.append_assoc, List.cons_append]
    rw [hashed_cons, hcontent] at hlength
    simp only [List.length_append, List.length_cons] at hlength
    have hbefore : before.length ≤ maxSingleFileBytes := by omega
    have hafter : after.length ≤ maxSingleFileBytes := by omega
    obtain ⟨contents', hreads, hfiles'⟩ := exists_reads_two sha256
      (hfiles.isFileName file List.mem_cons_self) hother hapart hbefore hafter
    have hdigest' := hreads.digest_eq hfiles'
      (List.pairwise_pair.2 hle)
    have hlengths := (honly contents' hreads (by rw [hdigest', hdigest, hsame])).length_eq
    rw [hfiles', hperm.symm.eq_singleton] at hlengths
    exact absurd (show 2 = 1 from hlengths) (by decide)
  | file :: next :: files, hfiles, hperm =>
    rw [hashed_cons] at hlength
    simp only [List.length_append, List.length_cons] at hlength
    have hcontent : (file.2 ++ hashed (next :: files)).length ≤ maxSingleFileBytes := by
      rw [List.length_append]
      omega
    obtain ⟨contents', hreads, hfiles'⟩ := exists_reads_single sha256
      (hfiles.isFileName file List.mem_cons_self) hcontent
    have hdigest' := hreads.digest_eq hfiles' (List.pairwise_singleton _ _)
    have hsame : hashed [(file.1, file.2 ++ hashed (next :: files))] =
        hashed (file :: next :: files) := by
      rw [hashed_cons, hashed_cons file, show hashed [] = [] from rfl, List.append_nil]
    have hlengths := (honly contents' hreads (by rw [hdigest', hdigest, hsame])).length_eq
    rw [hfiles', ← hperm.length_eq] at hlengths
    simp at hlengths

theorem bundleDigest_of_checkRequirement {r : PluginRequirement} {s s' : PluginCapabilitySnapshot}
    (h : s.satisfies r = true) (h' : checkRequirement r s' = .ok ()) :
    s'.bundleDigest = s.bundleDigest := by
  simp only [PluginCapabilitySnapshot.satisfies, Bool.and_eq_true, decide_eq_true_eq] at h
  simp only [checkRequirement, checks_ok] at h'
  obtain ⟨⟨⟨⟨-, hdigest⟩, -⟩, -⟩, -⟩ := h
  obtain ⟨-, -, -, -, -, hdigest', -⟩ := h'
  exact hdigest'.trans hdigest.symm

theorem checkRequirement_of_verified {r : PluginRequirement}
    {expected : List PluginCapabilitySnapshot} {discover : PyStr → Checked Discovered}
    {found : Discovered} (h : verifiedSkillInput [r] expected discover = .ok (some found)) :
    checkRequirement r found.snapshot = .ok () := by
  simp only [verifiedSkillInput, steps_ok, Option.some.injEq] at h
  obtain ⟨-, found, -, -, _, hcheck, rfl⟩ := h
  exact hcheck

/-- The digest tells the files of a bundle that cannot be divided, and of no other where what is
hashed fits in one file. So a requirement that was satisfied and is satisfied again at a launch pins
the files that the worker reads where they cannot be divided. -/
theorem bundleDigest_pins (hsha : Function.Injective sha256) {contents : BundleContents}
    (h : Reads sha256 contents) :
    (Undivided contents.files → ∀ contents', Reads sha256 contents' →
      contents'.digest = contents.digest → contents'.files.Perm contents.files) ∧
    ((digestInput contents.files).length ≤ maxSingleFileBytes →
      ((∀ contents', Reads sha256 contents' → contents'.digest = contents.digest →
        contents'.files.Perm contents.files) ↔ Undivided contents.files)) ∧
    (Undivided contents.files → ∀ (queued found : Discovered) (r : PluginRequirement),
      queued.contents = contents → queued.snapshot.satisfies r → Reads sha256 found.contents →
      (checkRequirement r found.snapshot = .ok () ∨
        ∃ expected discover, verifiedSkillInput [r] expected discover = .ok (some found)) →
      found.contents.files.Perm contents.files) := by
  refine ⟨fun hundivided _ h' => h.perm_of_digest hsha h' hundivided, fun hlength =>
    ⟨h.undivided hlength, fun hundivided _ h' => h.perm_of_digest hsha h' hundivided⟩, ?_⟩
  rintro hundivided queued found r rfl hsatisfies hreads hlaunch
  have hcheck : checkRequirement r found.snapshot = .ok () := by
    obtain hcheck | ⟨expected, discover, hverified⟩ := hlaunch
    · exact hcheck
    · exact checkRequirement_of_verified hverified
  refine h.perm_of_digest hsha hreads hundivided ?_
  rw [← found.bundleDigest_eq, ← queued.bundleDigest_eq]
  exact bundleDigest_of_checkRequirement hsatisfies hcheck

/-- Bytes as text, one character each. -/
def plainDigest (bytes : List UInt8) : PyStr :=
  bytes.map fun b => ⟨b.toNat, b.toNat_lt.trans (by decide)⟩

theorem plainDigest_injective : Function.Injective plainDigest := by
  refine List.map_injective_iff.2 fun a b h => ?_
  have hval : a.toNat = b.toNat := by injection h
  exact UInt8.toNat_inj.1 hval

/-- What is read of a plugin with some files. -/
def contentsOf (files : List (PyStr × List UInt8)) (directories : List PyStr) : BundleContents where
  digest := plainDigest (digestInput files)
  files := files
  directories := directories

def manifestFile : List (PyStr × List UInt8) := [(lit "plugin.json", [0x7B, 0x7D])]

/-- A bundle of one short file. -/
theorem bundleDigest_pins_manifest :
    Undivided manifestFile ∧ ((∀ contents', Reads plainDigest contents' →
      contents'.digest = plainDigest (digestInput manifestFile) →
        contents'.files.Perm manifestFile) ↔ Undivided manifestFile) := by
  have hreads : Reads plainDigest (contentsOf manifestFile [[]]) :=
    ⟨.file (lit "plugin.json") [0x7B, 0x7D] .empty, {}, _, ⟨List.not_mem_nil, trivial⟩, rfl⟩
  have hundivided : Undivided manifestFile := by
    refine ⟨Nat.le_refl 1, List.forall_mem_singleton.2 ?_⟩
    rintro ⟨before, other, after, hcontent, -⟩
    have hzero : (0 : UInt8) ∈ [0x7B, 0x7D] := by
      rw [show ([0x7B, 0x7D] : List UInt8) = _ from hcontent]
      exact List.mem_append_right _ List.mem_cons_self
    exact absurd hzero (by decide)
  have hlength : (digestInput manifestFile).length ≤ maxSingleFileBytes := by
    unfold digestInput manifestFile
    rw [List.mergeSort_singleton]
    decide
  exact ⟨hundivided, (bundleDigest_pins plainDigest_injective hreads).2.1 hlength⟩

/-! ### Two bundles of one digest -/

def manifestBytes : List UInt8 :=
  encodeSurrogatePass
    (lit "\x7b\"id\":\"p\",\"version\":\"1\",\"enabled\":true,\"skills\":[\"s\"]\x7d")

def pluginOf (skill : Directory) : Directory :=
  .file (lit "plugin.json") manifestBytes
    (.directory (lit "skills") (.directory (lit "s") skill .empty) .empty)

def honestSkill : Directory := .file (lit "SKILL.md") [65] (.file (lit "more.md") [66] .empty)

/-- A skill whose one file runs on over the name of the other. -/
def forgedSkill : Directory :=
  .file (lit "SKILL.md") (65 :: (encodeSurrogatePass (lit "skills/s/more.md") ++ [0, 66])) .empty

def honestFiles : List (PyStr × List UInt8) :=
  [(lit "plugin.json", manifestBytes), (lit "skills/s/SKILL.md", [65]),
    (lit "skills/s/more.md", [66])]

def forgedFiles : List (PyStr × List UInt8) :=
  [(lit "plugin.json", manifestBytes),
    (lit "skills/s/SKILL.md", 65 :: (encodeSurrogatePass (lit "skills/s/more.md") ++ [0, 66]))]

def readOf (files : List (PyStr × List UInt8)) : BundleContents :=
  contentsOf files [[], lit "skills", lit "skills/s"]

theorem reads_honest : Reads plainDigest (readOf honestFiles) :=
  ⟨pluginOf honestSkill, {}, _,
    by simp [pluginOf, honestSkill, Directory.Distinct, Directory.names, lit], rfl⟩

theorem reads_forged : Reads plainDigest (readOf forgedFiles) :=
  ⟨pluginOf forgedSkill, {}, _,
    by simp [pluginOf, forgedSkill, Directory.Distinct, Directory.names, lit], rfl⟩

theorem digestInput_forged : digestInput forgedFiles = digestInput honestFiles := by
  rw [digestInput_of_sorted (by decide), digestInput_of_sorted (by decide)]
  decide

def snapshotOf (files : List (PyStr × List UInt8)) : PluginCapabilitySnapshot where
  canonicalId := lit "p"
  version := lit "1"
  source := lit "home"
  bundleDigest := (readOf files).digest
  bundledSkillIds := [lit "s"]
  mcpConnectors := []
  enabled := true
  readiness := .ready

def requirementOf (files : List (PyStr × List UInt8)) : PluginRequirement where
  toPluginFacts := (snapshotOf files).toPluginFacts

def discoveredOf (files : List (PyStr × List UInt8)) : Discovered where
  snapshot := snapshotOf files
  contents := readOf files
  bundleDigest_eq := rfl

theorem satisfies_requirementOf (files : List (PyStr × List UInt8)) :
    (snapshotOf files).satisfies (requirementOf files) = true := by
  simp [PluginCapabilitySnapshot.satisfies, requirementOf, snapshotOf]

theorem checkRequirement_requirementOf (files : List (PyStr × List UInt8)) :
    checkRequirement (requirementOf files) (snapshotOf files) = .ok () := by
  simp [checkRequirement, requirementOf, snapshotOf, ensure]

theorem verified_requirementOf (files : List (PyStr × List UInt8)) :
    verifiedSkillInput [requirementOf files] [snapshotOf files]
      (fun _ => .ok (discoveredOf files)) = .ok (some (discoveredOf files)) := by
  simp only [verifiedSkillInput, steps_ok]
  exact ⟨⟨trivial, rfl, rfl, rfl⟩, _, rfl, rfl, (), checkRequirement_requirementOf files, rfl⟩

/-- A skill that was put in the place of another under the same pin. -/
theorem forged_pinned : ∃ (sha256 : List UInt8 → PyStr) (queued found : Discovered)
    (r : PluginRequirement), Function.Injective sha256 ∧ Reads sha256 queued.contents ∧
    Reads sha256 found.contents ∧ queued.contents.digest = found.contents.digest ∧
    queued.snapshot.satisfies r = true ∧
    verifiedSkillInput [r] [queued.snapshot] (fun _ => .ok found) = .ok (some found) ∧
    ¬ found.contents.files.Perm queued.contents.files := by
  have hsnapshot : snapshotOf forgedFiles = snapshotOf honestFiles := by
    unfold snapshotOf readOf contentsOf
    rw [digestInput_forged]
  refine ⟨plainDigest, discoveredOf honestFiles, discoveredOf forgedFiles,
    requirementOf forgedFiles, plainDigest_injective, reads_honest, reads_forged,
    congrArg plainDigest digestInput_forged.symm, ?_, ?_, fun hperm => ?_⟩
  · show (snapshotOf honestFiles).satisfies _ = true
    rw [← hsnapshot]
    exact satisfies_requirementOf forgedFiles
  · show verifiedSkillInput _ [snapshotOf honestFiles] _ = _
    rw [← hsnapshot]
    exact verified_requirementOf forgedFiles
  · exact absurd hperm.length_eq (by decide)

end CodexFlow.Plugins
