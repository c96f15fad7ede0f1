import CodexFlow.Lib.Marks

/-!
# Runs that are words

A pattern that begins and ends at the border of a word: a fixed start, and as many tokens of a run as
there are up to such a border, but no fewer than some number.
-/

namespace Replacing

variable {τ : Type}

/-- A word and something else meet here. -/
def boundary (isWord : τ → Bool) (prev next : Option τ) : Bool := prev.any isWord != next.any isWord

/-- The start and the run of a word, with the least length of the run. -/
structure WordRun (τ : Type) where
  isWord : τ → Bool
  start : List (τ → Bool)
  run : τ → Bool
  least : ℕ

namespace WordRun

variable (p : WordRun τ)

def reads (s : List τ) : Option (List τ × List τ) := readAll (p.start.map .one) s

/-- The longest part of the run that ends at a border. -/
def runLength (run after : List τ) : Option ℕ :=
  (List.range (run.length + 1)).reverse.find? fun n => p.least ≤ n &&
    boundary p.isWord (run.take n).getLast? (run.drop n ++ after).head?

def finder : Finder τ := fun prev s =>
  if boundary p.isWord prev s.head? then
    match p.reads s with
    | none => none
    | some (start, b) =>
      match p.runLength (b.takeWhile p.run) (b.dropWhile p.run) with
      | none => none
      | some n => some ⟨[], start ++ (b.takeWhile p.run).take n,
          (b.takeWhile p.run).drop n ++ b.dropWhile p.run⟩
  else none

/-- A word of the pattern begins here. -/
structure WordAt (prev : Option τ) (s k w b : List τ) : Prop where
  first : boundary p.isWord prev s.head? = true
  start : p.reads s = some (k, w ++ b)
  run : ∀ c ∈ w, p.run c = true
  least : p.least ≤ w.length
  last : boundary p.isWord w.getLast? b.head? = true

variable {p} {prev : Option τ} {s k w b o : List τ} {f : Found τ} {m : τ}

theorem runLength_eq_some {run after : List τ} {n : ℕ} (h : p.runLength run after = some n) :
    n ≤ run.length ∧ p.least ≤ n ∧
      boundary p.isWord (run.take n).getLast? (run.drop n ++ after).head? = true := by
  have hholds := List.find?_some h
  have hmem := List.mem_of_find?_eq_some h
  rw [List.mem_reverse, List.mem_range] at hmem
  rw [Bool.and_eq_true, decide_eq_true_iff] at hholds
  exact ⟨by omega, hholds⟩

theorem runLength_isSome {run after : List τ} {n : ℕ} (hn : n ≤ run.length) (hleast : p.least ≤ n)
    (h : boundary p.isWord (run.take n).getLast? (run.drop n ++ after).head? = true) :
    (p.runLength run after).isSome = true := by
  refine List.find?_isSome.2 ⟨n, ?_, ?_⟩
  · rw [List.mem_reverse, List.mem_range]
    omega
  · rw [Bool.and_eq_true, decide_eq_true_iff]
    exact ⟨hleast, h⟩

theorem finder_eq_some (h : p.finder prev s = some f) :
    ∃ k w, f.kept = [] ∧ f.secret = k ++ w ∧ p.WordAt prev s k w f.rest := by
  unfold finder at h
  split_ifs at h with hfirst
  split at h
  · cases h
  · rename_i start b hstart
    split at h
    · cases h
    · rename_i n hlength
      cases h
      obtain ⟨-, hleast, hlast⟩ := runLength_eq_some hlength
      refine ⟨start, (b.takeWhile p.run).take n, rfl, rfl, hfirst, ?_, ?_, ?_, hlast⟩
      · rw [← List.append_assoc, List.take_append_drop, List.takeWhile_append_dropWhile]
        exact hstart
      · exact fun c hc => List.mem_takeWhile_imp (List.mem_of_mem_take hc)
      · obtain ⟨hn, -⟩ := runLength_eq_some hlength
        rwa [List.length_take, Nat.min_eq_left hn]

theorem finder_isSome (h : p.WordAt prev s k w b) : (p.finder prev s).isSome = true := by
  obtain ⟨rest, hsplit, hrest⟩ : ∃ rest, (w ++ b).takeWhile p.run = w ++ rest ∧
      b = rest ++ (w ++ b).dropWhile p.run := by
    refine ⟨b.takeWhile p.run, ?_, ?_⟩
    · rw [List.takeWhile_append_of_pos h.run]
    · rw [List.dropWhile_append_of_pos h.run, List.takeWhile_append_dropWhile]
  have hlength : (p.runLength ((w ++ b).takeWhile p.run) ((w ++ b).dropWhile p.run)).isSome = true := by
    refine runLength_isSome (n := w.length) ?_ h.least ?_
    · rw [hsplit, List.length_append]
      omega
    · rw [hsplit, List.take_left, List.drop_left, ← hrest]
      exact h.last
  obtain ⟨n, hn⟩ := Option.isSome_iff_exists.1 hlength
  unfold finder
  rw [if_pos h.first]
  simp only [h.start, hn, Option.isSome_some]

theorem finder_eq_none : p.finder prev s = none ↔ ∀ k w b, ¬p.WordAt prev s k w b := by
  constructor
  · intro h k w b hword
    have hsome := finder_isSome hword
    rw [h] at hsome
    cases hsome
  · intro h
    cases hfound : p.finder prev s with
    | none => rfl
    | some f =>
      obtain ⟨k, w, -, -, hword⟩ := finder_eq_some hfound
      exact absurd hword (h k w f.rest)

/-! ### Words and marks -/

/-- The start begins a word, and a mark is no part of one. -/
structure Lawful (p : WordRun τ) (m : τ) : Prop where
  first : ∃ q others, p.start = q :: others ∧ ∀ c, q c = true → p.isWord c = true
  start_mark : ∀ q ∈ p.start, q m = false
  run_mark : p.run m = false
  word_mark : p.isWord m = false
  least_pos : 0 < p.least

theorem readOnes_spec : ∀ {qs : List (τ → Bool)} {s k b : List τ},
    readAll (qs.map .one) s = some (k, b) →
      s = k ++ b ∧ List.Forall₂ (fun q c => q c = true) qs k ∧
      ∀ b', readAll (qs.map .one) (k ++ b') = some (k, b')
  | [], s, k, b, h => by
    cases h
    exact ⟨rfl, .nil, fun b' => rfl⟩
  | q :: qs, s, k, b, h => by
    obtain ⟨k', s', k'', hread, hqs, rfl⟩ := readAll_cons_eq_some.1 h
    cases s with
    | nil => cases hread
    | cons c s =>
      rw [Item.read] at hread
      split_ifs at hread with hc
      cases hread
      obtain ⟨rfl, hall, hlocal⟩ := readOnes_spec hqs
      refine ⟨rfl, .cons hc hall, fun b' => ?_⟩
      exact readAll_cons_eq_some.2 ⟨[c], k'' ++ b', k'', by simp [Item.read, hc], hlocal b', rfl⟩

theorem reads_spec (h : p.reads s = some (k, b)) :
    s = k ++ b ∧ List.Forall₂ (fun q c => q c = true) p.start k ∧
      ∀ b', p.reads (k ++ b') = some (k, b') := readOnes_spec h

theorem accepted_of_forall₂ {qs : List (τ → Bool)}
    (h : List.Forall₂ (fun q c => q c = true) qs k) : ∀ c ∈ k, ∃ q ∈ qs, q c = true := by
  induction h with
  | nil => exact nofun
  | @cons q c qs k hc _ ih =>
    intro d hd
    rcases List.mem_cons.1 hd with rfl | hd
    · exact ⟨q, List.mem_cons_self, hc⟩
    · obtain ⟨q', hq', haccepts⟩ := ih d hd
      exact ⟨q', List.mem_cons_of_mem q hq', haccepts⟩

theorem Lawful.notMem_start (hp : p.Lawful m) (h : p.reads s = some (k, b)) : m ∉ k := by
  obtain ⟨-, hall, -⟩ := reads_spec h
  intro hm
  obtain ⟨q, hq, haccepts⟩ := accepted_of_forall₂ hall m hm
  rw [hp.start_mark q hq] at haccepts
  cases haccepts

theorem Lawful.head_word (hp : p.Lawful m) (h : p.WordAt prev s k w b) :
    ∃ c s', s = c :: s' ∧ c ≠ m ∧ p.isWord c = true := by
  obtain ⟨q, others, hstart, hword⟩ := hp.first
  obtain ⟨hs, hall, -⟩ := reads_spec h.start
  have hm := hp.notMem_start h.start
  rw [hstart] at hall
  cases hall with
  | @cons _ c _ k' hc _ =>
    rw [List.mem_cons, not_or] at hm
    exact ⟨c, k' ++ (w ++ b), hs, Ne.symm hm.1, hword c hc⟩

theorem finds (hp : p.Lawful m) : Finds p.finder where
  split h := by
    obtain ⟨k, w, hkept, hsecret, hword⟩ := finder_eq_some h
    obtain ⟨hs, -⟩ := reads_spec hword.start
    rw [hs, hkept, hsecret, List.nil_append, List.append_assoc]
  secret h := by
    obtain ⟨k, w, -, hsecret, hword⟩ := finder_eq_some h
    have hpos := hword.least
    have hleast := hp.least_pos
    rw [hsecret]
    apply List.ne_nil_of_length_pos
    rw [List.length_append]
    omega

/-- What has no mark was there before, and the rest is replaced from there. -/
theorem Lawful.unmarked {v : List τ} (hmark : m ∉ v) (h : Replaces p.finder [m] prev s (v ++ b)) :
    ∃ z, s = v ++ z ∧ Replaces p.finder [m] (v.getLast?.or prev) z b := by
  induction v generalizing prev s with
  | nil => exact ⟨s, rfl, h⟩
  | cons c v ih =>
    rw [List.mem_cons, not_or] at hmark
    have hcases : ∃ s', s = c :: s' ∧ Replaces p.finder [m] (some c) s' (v ++ b) := by
      rw [List.cons_append] at h
      generalize hout : c :: (v ++ b) = out at h
      cases h with
      | nil => cases hout
      | keep _ h =>
        cases hout
        exact ⟨_, rfl, h⟩
      | cut hfound _ =>
        obtain ⟨-, -, hkept, -⟩ := finder_eq_some hfound
        rw [hkept] at hout
        cases hout
        exact absurd rfl hmark.1
    obtain ⟨s', rfl, hrest⟩ := hcases
    obtain ⟨z, rfl, hz⟩ := ih hmark.2 hrest
    refine ⟨z, rfl, ?_⟩
    rw [List.getLast?_cons]
    cases hlast : v.getLast? with
    | none => simpa [hlast] using hz
    | some d => simpa [hlast] using hz

theorem Lawful.run_ne_nil (hp : p.Lawful m) (h : p.WordAt prev s k w b) : w ≠ [] := by
  rintro rfl
  exact absurd (hp.least_pos.trans_le h.least) (Nat.lt_irrefl 0)

theorem Lawful.getLast?_word (hp : p.Lawful m) (h : p.WordAt prev s k w b) :
    (k ++ w).getLast? = w.getLast? := by
  rw [List.getLast?_append]
  cases hget : w.getLast? with
  | none => exact absurd (List.getLast?_eq_none_iff.1 hget) (hp.run_ne_nil h)
  | some d => rfl

theorem Lawful.no_word (hp : p.Lawful m) (h : Replaces p.finder [m] prev s o) :
    ∀ a u, o = a ++ u → ∀ k w b, ¬p.WordAt (a.getLast?.or prev) u k w b := by
  induction h with
  | nil =>
    intro a u hsplit k w b hword
    obtain ⟨-, rfl⟩ := List.append_eq_nil_iff.1 hsplit.symm
    obtain ⟨c, s', hs, -⟩ := hp.head_word hword
    cases hs
  | @keep prev c s o hnone hrest ih =>
    intro a u hsplit k w b hword
    cases a with
    | nil =>
      -- the word was there before, and its border as well
      obtain rfl : c :: o = u := hsplit
      obtain ⟨hs, -, hlocal⟩ := reads_spec hword.start
      have hmark : m ∉ k ++ w := by
        rw [List.mem_append, not_or]
        refine ⟨hp.notMem_start hword.start, fun hm => ?_⟩
        have hrun := hword.run m hm
        rw [hp.run_mark] at hrun
        cases hrun
      have hout : Replaces p.finder [m] prev (c :: s) ((k ++ w) ++ b) := by
        rw [List.append_assoc, ← hs]
        exact .keep hnone hrest
      obtain ⟨z, hz, hbehind⟩ := Lawful.unmarked hmark hout
      have hlast : (k ++ w).getLast?.or prev = w.getLast? := by
        rw [hp.getLast?_word hword]
        cases hget : w.getLast? with
        | none => exact absurd (List.getLast?_eq_none_iff.1 hget) (hp.run_ne_nil hword)
        | some d => rfl
      rw [hlast] at hbehind
      refine finder_eq_none.1 hnone k w z ⟨hword.first, ?_, hword.run, hword.least, ?_⟩
      · rw [hz, List.append_assoc]
        exact hlocal (w ++ z)
      · generalize hprev : w.getLast? = last at hbehind
        have hborder := hword.last
        rw [hprev] at hborder
        cases hbehind with
        | nil => exact hborder
        | keep _ _ => exact hborder
        | cut hfound _ =>
          obtain ⟨k', w', hkept, -, hword'⟩ := finder_eq_some hfound
          exact hword'.first
    | cons c' a =>
      obtain ⟨rfl, rfl⟩ : c = c' ∧ o = a ++ u := by simpa using hsplit
      rw [or_cons] at hword
      exact ih a u rfl k w b hword
  | @cut prev s o f hfound hrest ih =>
    obtain ⟨k', w', hkept, hsecret, hword'⟩ := finder_eq_some hfound
    intro a u hsplit k w b hword
    rw [hkept, List.nil_append, List.singleton_append] at hsplit
    cases a with
    | nil =>
      obtain rfl : m :: o = u := hsplit
      obtain ⟨c, s', hs, hne, -⟩ := hp.head_word hword
      cases hs
      exact absurd rfl hne
    | cons m' a =>
      obtain ⟨rfl, rfl⟩ : m = m' ∧ o = a ++ u := by simpa using hsplit
      rw [or_cons] at hword
      cases a with
      | nil =>
        -- behind the mark there is a border, as there was behind what was replaced
        obtain ⟨c, s', rfl, hne, -⟩ := hp.head_word hword
        have hhead : f.rest.head? = some c := by
          generalize hout : [] ++ c :: s' = out at hrest
          generalize f.rest = rest at hrest
          cases hrest with
          | nil => cases hout
          | keep _ _ =>
            cases hout
            rfl
          | cut hfound' _ =>
            obtain ⟨-, -, hkept', -⟩ := finder_eq_some hfound'
            rw [hkept'] at hout
            cases hout
            exact absurd rfl hne
        refine ih [] (c :: s') rfl k w b ⟨?_, hword.start, hword.run, hword.least, hword.last⟩
        have hborder := hword'.last
        rw [hhead, ← hp.getLast?_word hword', ← hsecret] at hborder
        exact hborder
      | cons d a =>
        refine ih (d :: a) u rfl k w b ?_
        rw [or_cons] at hword ⊢
        exact hword

/-- No word begins in the text. -/
def NoWord (p : WordRun τ) (s : List τ) : Prop :=
  ∀ a u, s = a ++ u → ∀ k w b, ¬p.WordAt a.getLast? u k w b

theorem NoWord.replace (hfinds : Finds p.finder) (h : p.NoWord s) :
    Replacing.replace p.finder [m] s = s := by
  apply replace_eq hfinds
  apply replaces_self
  intro a u hsplit
  rw [Option.or_none]
  exact finder_eq_none.2 (h a u hsplit)

theorem Lawful.noWord (hp : p.Lawful m) (h : Replaces p.finder [m] none s o) : p.NoWord o := by
  intro a u hsplit k w b hword
  have hno := hp.no_word h a u hsplit k w b
  rw [Option.or_none] at hno
  exact hno hword

/-- A token behind which no word begins, and which is no part of one. -/
structure Stub (p : WordRun τ) (x : τ) (P : List τ) : Prop where
  notWord : p.isWord x = false
  notRun : p.run x = false
  notStart : ∀ q ∈ p.start, q x = false
  behind : ∀ c ∈ P, ∀ q ∈ p.start.head?, q c = false

theorem head_of_forall₂ {qs : List (τ → Bool)}
    (h : List.Forall₂ (fun q c => q c = true) qs k) (hne : qs ≠ []) :
    ∃ c k', k = c :: k' ∧ ∀ q ∈ qs.head?, q c = true := by
  cases h with
  | nil => exact absurd rfl hne
  | @cons q c qs k' hc _ =>
    refine ⟨c, k', rfl, fun q' hq' => ?_⟩
    cases hq'
    exact hc

/-- What stands behind a text without words does not matter, as long as it is no part of one. -/
theorem NoWord.stub {x : τ} {K L P : List τ} (hp : p.Lawful m) (hstub : p.Stub x P)
    (h : p.NoWord (K ++ m :: L)) : p.NoWord (K ++ x :: P) := by
  obtain ⟨first, others, hstart, hfirst⟩ := hp.first
  intro a u hsplit k w b hword
  obtain ⟨hu, hall, hlocal⟩ := reads_spec hword.start
  obtain ⟨c, k', rfl, hc⟩ := head_of_forall₂ hall (by rw [hstart]; exact List.cons_ne_nil _ _)
  have hx : x ∉ (c :: k') ++ w := by
    rw [List.mem_append, not_or]
    refine ⟨fun hmem => ?_, fun hmem => ?_⟩
    · obtain ⟨q, hq, haccepts⟩ := accepted_of_forall₂ hall x hmem
      rw [hstub.notStart q hq] at haccepts
      cases haccepts
    · have hrun := hword.run x hmem
      rw [hstub.notRun] at hrun
      cases hrun
  have hcfirst : ∀ d ∈ x :: P, d ≠ c := by
    rintro d hd rfl
    have hq : first ∈ p.start.head? := by
      rw [hstart]
      rfl
    rcases List.mem_cons.1 hd with rfl | hd
    · have hno := hstub.notStart first (by rw [hstart]; exact List.mem_cons_self)
      rw [hc first hq] at hno
      cases hno
    · have hno := hstub.behind d hd first hq
      rw [hc first hq] at hno
      cases hno
  rw [← List.append_assoc] at hu
  rcases List.append_eq_append_iff.1 hsplit with ⟨z, ha, hP⟩ | ⟨z, hK, hz⟩
  · -- the word begins in what stands behind
    have hmem : c ∈ x :: P := by
      rw [hP, hu]
      simp
    exact hcfirst c hmem rfl
  · obtain ⟨z', rfl, hb⟩ : ∃ z', z = ((c :: k') ++ w) ++ z' ∧ b = z' ++ x :: P := by
      rcases List.append_eq_append_iff.1 (hz.symm.trans hu) with ⟨z', hword', hb⟩ | ⟨z', hz', hb⟩
      · cases z' with
        | nil => exact ⟨[], by simpa using hword'.symm, by simpa using hb.symm⟩
        | cons y z' =>
          obtain ⟨rfl, -⟩ : x = y ∧ P = z' ++ b := by simpa using hb
          exact absurd (by rw [hword']; simp) hx
      · exact ⟨z', hz', hb⟩
    refine h a (((c :: k') ++ w) ++ z' ++ m :: L) (by rw [hK]; simp) (c :: k') w (z' ++ m :: L) ?_
    refine ⟨?_, ?_, hword.run, hword.least, ?_⟩
    · have hborder := hword.first
      rw [hu] at hborder
      simpa using hborder
    · simpa using hlocal (w ++ (z' ++ m :: L))
    · have hborder := hword.last
      rw [hb] at hborder
      cases z' with
      | nil =>
        unfold boundary at hborder ⊢
        simpa [hstub.notWord, hp.word_mark] using hborder
      | cons y z' => simpa using hborder

theorem NoWord.front {v : List τ} (h : p.NoWord (s ++ v)) {a u : List τ} (hsplit : s = a ++ u)
    (hword : p.WordAt a.getLast? u k w b) : b = [] := by
  cases b with
  | nil => rfl
  | cons c b =>
    obtain ⟨hu, -, hlocal⟩ := reads_spec hword.start
    obtain ⟨d, u', hhead⟩ : ∃ d u', u = d :: u' := by
      cases u with
      | nil => simp at hu
      | cons d u' => exact ⟨d, u', rfl⟩
    refine absurd ?_ (h a (u ++ v) (by rw [hsplit, List.append_assoc]) k w (c :: (b ++ v)))
    refine ⟨?_, ?_, hword.run, hword.least, hword.last⟩
    · have hborder := hword.first
      rw [hhead] at hborder ⊢
      exact hborder
    · rw [hu]
      simpa using hlocal (w ++ c :: (b ++ v))

/-! ### Words of marked texts -/

variable {α : Type} {p : WordRun α} {text : List α} {closer : α}

def lift (p : WordRun α) : WordRun (Option α) where
  isWord t := t.any p.isWord
  start := p.start.map fun q t => t.any q
  run t := t.any p.run
  least := p.least

/-- What the word of a mark is to a run: no part of it belongs to one. -/
structure Apart (p : WordRun α) (text : List α) (closer : α) : Prop where
  word : text.getLast? = some closer
  closer : p.isWord closer = false
  opener : ∃ opener body, text = opener :: body ∧ p.isWord opener = false ∧
    p.run opener = false ∧ ∀ q ∈ p.start, q opener = false
  inside : ∀ {a v : List α} (s : List α), text = a ++ v → v ≠ [] → p.reads (v ++ s) = none

theorem Apart.any_before (h : p.Apart text closer) (prev : Option (Option α)) :
    (before closer prev).any p.isWord = prev.any p.lift.isWord := by
  cases prev with
  | none => rfl
  | some t =>
    cases t with
    | none => exact h.closer
    | some c => rfl

theorem Apart.any_head (h : p.Apart text closer) (s : List (Option α)) :
    (unmark text s).head?.any p.isWord = s.head?.any p.lift.isWord := by
  obtain ⟨opener, body, rfl, hopener, -⟩ := h.opener
  cases s with
  | nil => rfl
  | cons t s =>
    cases t with
    | none => exact hopener
    | some c => rfl

theorem Apart.reads_unmark (h : p.Apart text closer) (s : List (Option α)) :
    p.reads (unmark text s) =
      (p.lift.reads s).map fun (k, b) => (unmark text k, unmark text b) := by
  obtain ⟨opener, body, rfl, -, -, hstart⟩ := h.opener
  have hitems : p.lift.start.map Item.one = (p.start.map Item.one).map Item.lift := by
    simp only [lift, List.map_map]
    rfl
  unfold reads
  rw [hitems, readAll_unmark (List.cons_ne_nil opener body)]
  intro item hitem c hc
  obtain ⟨q, hq, rfl⟩ := List.mem_map.1 hitem
  cases hc
  exact hstart q hq

theorem run_unmarked (s : List (Option α)) :
    ∃ cs : List α, (s.takeWhile p.lift.run) = cs.map some := by
  induction s with
  | nil => exact ⟨[], rfl⟩
  | cons t s ih =>
    cases t with
    | none => exact ⟨[], rfl⟩
    | some c =>
      obtain ⟨cs, hcs⟩ := ih
      by_cases hc : p.run c = true
      · refine ⟨c :: cs, ?_⟩
        rw [List.takeWhile_cons_of_pos (show p.lift.run (some c) = true from hc), hcs]
        rfl
      · refine ⟨[], ?_⟩
        rw [List.takeWhile_cons_of_neg (show ¬p.lift.run (some c) = true from hc)]
        rfl

theorem Apart.runLength_unmark (h : p.Apart text closer) (cs : List α) (s : List (Option α)) :
    p.runLength cs (unmark text s) = p.lift.runLength (cs.map some) s := by
  unfold runLength
  rw [List.length_map]
  congr 1
  funext n
  have hlast : (cs.take n).getLast?.any p.isWord =
      ((cs.map some).take n).getLast?.any p.lift.isWord := by
    rw [← List.map_take, List.getLast?_map, Option.any_map]
    rfl
  have hnext : (cs.drop n ++ unmark text s).head?.any p.isWord =
      ((cs.map some).drop n ++ s).head?.any p.lift.isWord := by
    rw [← h.any_head, unmark_append, ← List.map_drop, unmark_map]
  unfold boundary
  rw [hlast, hnext]
  rfl

theorem Apart.finder_unmark (h : p.Apart text closer) (prev : Option (Option α))
    (s : List (Option α)) :
    p.finder (before closer prev) (unmark text s) = (p.lift.finder prev s).map fun f =>
      ⟨unmark text f.kept, unmark text f.secret, unmark text f.rest⟩ := by
  have hborder : boundary p.isWord (before closer prev) (unmark text s).head? =
      boundary p.lift.isWord prev s.head? := by
    unfold boundary
    rw [h.any_before, h.any_head]
  unfold finder
  rw [hborder]
  split_ifs with hfirst
  · rw [h.reads_unmark]
    cases p.lift.reads s with
    | none => rfl
    | some result =>
      obtain ⟨start, b⟩ := result
      obtain ⟨opener, body, htext, -, hrun, -⟩ := h.opener
      have hhead : ∀ c ∈ text.head?, p.run c = false := by
        rw [htext]
        intro c hc
        cases hc
        exact hrun
      have hne : text ≠ [] := by
        rw [htext]
        exact List.cons_ne_nil opener body
      obtain ⟨htake, hdrop⟩ := takeWhile_unmark hhead hne b
      obtain ⟨cs, hcs⟩ := run_unmarked (p := p) b
      have hrun' : (unmark text b).takeWhile p.run = cs := by
        rw [htake]
        exact (congrArg (unmark text) hcs).trans (unmark_map cs)
      have hafter : (unmark text b).dropWhile p.run = unmark text (b.dropWhile p.lift.run) := hdrop
      simp only [Option.map_some, hrun', hafter, hcs]
      rw [h.runLength_unmark]
      cases p.lift.runLength (cs.map some) (b.dropWhile p.lift.run) with
      | none => rfl
      | some n =>
        simp only [Option.map_some, unmark_append, unmark_nil]
        rw [← List.map_take, ← List.map_drop, unmark_map, unmark_map]
  · rfl

theorem Apart.mirrors (h : p.Apart text closer) : Mirrors text closer p.lift.finder p.finder where
  word := h.word
  found hfound := by
    rw [h.finder_unmark, hfound]
    rfl
  notFound hnone := by
    rw [← unmark_some, h.finder_unmark, hnone]
    rfl
  inside {a v s prev} hsplit hne := by
    refine finder_eq_none.2 fun k w b hword => ?_
    have hstart := hword.start
    rw [h.inside s hsplit hne] at hstart
    cases hstart

structure Proper (p : WordRun α) : Prop where
  first : ∃ q others, p.start = q :: others ∧ ∀ c, q c = true → p.isWord c = true
  least_pos : 0 < p.least

theorem Proper.lawful (h : p.Proper) : p.lift.Lawful none where
  first := by
    obtain ⟨q, others, hstart, hword⟩ := h.first
    refine ⟨fun t => t.any q, others.map fun q t => t.any q, by simp [lift, hstart], fun t ht => ?_⟩
    cases t with
    | none => cases ht
    | some c => exact hword c ht
  start_mark q hq := by
    obtain ⟨q, -, rfl⟩ := List.mem_map.1 hq
    rfl
  run_mark := rfl
  word_mark := rfl
  least_pos := h.least_pos

end WordRun

end Replacing
