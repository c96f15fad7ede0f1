import Mathlib

/-!
# Replacing what a pattern finds

A text in which each place that a pattern finds, from the left, is replaced by a mark. A pattern is a
group of items, which stays, and the longest run of some tokens behind it, which is replaced.
-/

namespace Replacing

variable {τ : Type}

/-! ### Replacing -/

/-- What is found at a place: what stays, what is replaced, and what follows. -/
structure Found (τ : Type) where
  kept : List τ
  secret : List τ
  rest : List τ

/-- What is found, from the token before a place and the tokens from there on. -/
abbrev Finder (τ : Type) := Option τ → List τ → Option (Found τ)

/-- The text with a mark for what is found, at as many places as the fuel. -/
def replaceFrom (find : Finder τ) (mark : List τ) : ℕ → Option τ → List τ → List τ
  | 0, _, s => s
  | _ + 1, _, [] => []
  | fuel + 1, prev, c :: s =>
    match find prev (c :: s) with
    | none => c :: replaceFrom find mark fuel (some c) s
    | some f => f.kept ++ (mark ++ replaceFrom find mark fuel f.secret.getLast? f.rest)

def replace (find : Finder τ) (mark : List τ) (s : List τ) : List τ :=
  replaceFrom find mark s.length none s

/-- What is found is there, and something of it is replaced. -/
structure Finds (find : Finder τ) : Prop where
  split : ∀ {prev s f}, find prev s = some f → s = f.kept ++ (f.secret ++ f.rest)
  secret : ∀ {prev s f}, find prev s = some f → f.secret ≠ []

/-- The course of replacing, from left to right. -/
inductive Replaces (find : Finder τ) (mark : List τ) : Option τ → List τ → List τ → Prop
  | nil (prev : Option τ) : Replaces find mark prev [] []
  | keep {prev : Option τ} {c : τ} {s o : List τ} (h : find prev (c :: s) = none)
      (rest : Replaces find mark (some c) s o) : Replaces find mark prev (c :: s) (c :: o)
  | cut {prev : Option τ} {s o : List τ} {f : Found τ} (h : find prev s = some f)
      (rest : Replaces find mark f.secret.getLast? f.rest o) :
      Replaces find mark prev s (f.kept ++ (mark ++ o))

variable {find : Finder τ} {mark : List τ} {prev : Option τ} {s o o' : List τ} {f : Found τ}

theorem Finds.rest_length (hfind : Finds find) (h : find prev s = some f) :
    f.rest.length < s.length := by
  have hpos := List.length_pos_iff.2 (hfind.secret h)
  rw [hfind.split h, List.length_append, List.length_append]
  omega

theorem Finds.none_of_nil (hfind : Finds find) : find prev [] = none := by
  cases h : find prev [] with
  | none => rfl
  | some f => exact absurd (hfind.rest_length h) (Nat.not_lt_zero _)

theorem replaces_replaceFrom (hfind : Finds find) {fuel : ℕ} (h : s.length ≤ fuel) :
    Replaces find mark prev s (replaceFrom find mark fuel prev s) := by
  induction fuel generalizing prev s with
  | zero =>
    obtain rfl := List.length_eq_zero_iff.1 (Nat.le_zero.1 h)
    exact .nil prev
  | succ fuel ih =>
    cases s with
    | nil => exact .nil prev
    | cons c s =>
      rw [replaceFrom]
      cases hfound : find prev (c :: s) with
      | none => exact .keep hfound (ih (Nat.le_of_succ_le_succ h))
      | some f =>
        have hlt := hfind.rest_length hfound
        exact .cut hfound (ih (by omega))

theorem replaces_replace (hfind : Finds find) (s : List τ) :
    Replaces find mark none s (replace find mark s) :=
  replaces_replaceFrom hfind le_rfl

theorem Replaces.unique (hfind : Finds find) (h : Replaces find mark prev s o)
    (h' : Replaces find mark prev s o') : o = o' := by
  induction h generalizing o' with
  | nil prev =>
    cases h' with
    | nil => rfl
    | cut hfound _ => cases hfind.none_of_nil.symm.trans hfound
  | keep hnone _ ih =>
    cases h' with
    | keep _ rest => rw [ih rest]
    | cut hfound _ => cases hnone.symm.trans hfound
  | cut hfound _ ih =>
    cases h' with
    | nil => cases hfind.none_of_nil.symm.trans hfound
    | keep hnone _ => cases hnone.symm.trans hfound
    | cut hfound' rest =>
      cases hfound.symm.trans hfound'
      rw [ih rest]

theorem replace_eq (hfind : Finds find) (h : Replaces find mark none s o) :
    replace find mark s = o :=
  (replaces_replace hfind s).unique hfind h

theorem or_cons (a : List τ) (c : τ) (prev : Option τ) :
    (c :: a).getLast?.or prev = a.getLast?.or (some c) := by
  rw [List.getLast?_cons]
  cases a.getLast? <;> rfl

/-- A text in which nothing is found stays. -/
theorem replaces_self (h : ∀ a u, s = a ++ u → find (a.getLast?.or prev) u = none) :
    Replaces find mark prev s s := by
  induction s generalizing prev with
  | nil => exact .nil prev
  | cons c s ih =>
    apply Replaces.keep (h [] (c :: s) rfl)
    apply ih
    intro a u hsplit
    rw [← or_cons]
    exact h (c :: a) u (congrArg (c :: ·) hsplit)

/-- Where each match is longer than its mark, a text in which something is found becomes shorter. -/
theorem Replaces.shorter (hfind : Finds find)
    (hlong : ∀ {prev s f}, find prev s = some f → f.kept = [] ∧ mark.length < f.secret.length)
    (h : Replaces find mark prev s o) :
    o.length < s.length ∨
      o = s ∧ ∀ a u, s = a ++ u → find (a.getLast?.or prev) u = none := by
  induction h with
  | nil prev =>
    refine .inr ⟨rfl, fun a u hsplit => ?_⟩
    obtain ⟨rfl, rfl⟩ := List.append_eq_nil_iff.1 hsplit.symm
    exact hfind.none_of_nil
  | @keep prev c s o hnone _ ih =>
    rcases ih with hlt | ⟨rfl, hall⟩
    · exact .inl (Nat.succ_lt_succ hlt)
    · refine .inr ⟨rfl, fun a u hsplit => ?_⟩
      cases a with
      | nil =>
        obtain rfl : c :: o = u := hsplit
        exact hnone
      | cons d a =>
        obtain ⟨rfl, rfl⟩ : c = d ∧ o = a ++ u := by simpa using hsplit
        rw [or_cons]
        exact hall a u rfl
  | @cut prev s o f hfound _ ih =>
    obtain ⟨hkept, hlt⟩ := hlong hfound
    have hrest : o.length ≤ f.rest.length := by
      rcases ih with hlt | ⟨rfl, -⟩
      · exact hlt.le
      · exact le_rfl
    left
    rw [hfind.split hfound, hkept]
    simp only [List.nil_append, List.length_append]
    omega

/-! ### Cuts -/

/-- Pieces of soft tokens are replaced by the mark. -/
inductive Cuts (mark : τ) (hard : τ → Bool) : List τ → List τ → Prop
  | nil : Cuts mark hard [] []
  | keep (c : τ) {s o : List τ} (h : Cuts mark hard s o) : Cuts mark hard (c :: s) (c :: o)
  | cut {secret s o : List τ} (hne : secret ≠ []) (hsoft : ∀ c ∈ secret, hard c = false)
      (h : Cuts mark hard s o) : Cuts mark hard (secret ++ s) (mark :: o)

section Cuts

variable {m : τ} {hard : τ → Bool} {a v : List τ}

theorem Cuts.append_left (h : Cuts m hard s o) : ∀ v, Cuts m hard (v ++ s) (v ++ o)
  | [] => h
  | c :: v => .keep c (h.append_left v)

theorem Replaces.cuts (hfind : Finds find)
    (hsoft : ∀ {prev s f}, find prev s = some f → ∀ c ∈ f.secret, hard c = false)
    (h : Replaces find [m] prev s o) : Cuts m hard s o := by
  induction h with
  | nil => exact .nil
  | keep _ _ ih => exact .keep _ ih
  | @cut prev s o f hfound _ ih =>
    rw [hfind.split hfound]
    exact (Cuts.cut (hfind.secret hfound) (hsoft hfound) ih).append_left f.kept

/-- Every place of the result comes from one of the text. -/
theorem Cuts.suffix (h : Cuts m hard s (a ++ v)) : ∃ b u, s = b ++ u ∧ Cuts m hard u v := by
  induction a generalizing s with
  | nil => exact ⟨[], s, rfl, h⟩
  | cons c a ih =>
    rw [List.cons_append] at h
    cases h with
    | keep _ h =>
      obtain ⟨b, u, rfl, hcuts⟩ := ih h
      exact ⟨c :: b, u, rfl, hcuts⟩
    | @cut secret s _ _ _ h =>
      obtain ⟨b, u, rfl, hcuts⟩ := ih h
      exact ⟨secret ++ b, u, (List.append_assoc _ _ _).symm, hcuts⟩

theorem Cuts.unmarked (hmark : m ∉ a) (h : Cuts m hard s (a ++ v)) :
    ∃ u, s = a ++ u ∧ Cuts m hard u v := by
  induction a generalizing s with
  | nil => exact ⟨s, rfl, h⟩
  | cons c a ih =>
    rw [List.mem_cons, not_or] at hmark
    rw [List.cons_append] at h
    cases h with
    | keep _ h =>
      obtain ⟨u, rfl, hcuts⟩ := ih hmark.2 h
      exact ⟨u, rfl, hcuts⟩
    | cut => exact absurd rfl hmark.1

/-- The text is over, or a hard token comes. -/
def HardStart (hard : τ → Bool) (s : List τ) : Prop := ∀ c ∈ s.head?, hard c = true

theorem Cuts.hardStart (h : Cuts m hard s o) (hs : HardStart hard s) : HardStart hard o := by
  cases h with
  | nil => exact hs
  | keep c _ => exact fun d hd => hs d hd
  | @cut secret s _ hne hsoft _ =>
    cases secret with
    | nil => exact absurd rfl hne
    | cons c secret =>
      have hhard := hs c rfl
      rw [hsoft c List.mem_cons_self] at hhard
      cases hhard

end Cuts

/-! ### Items -/

/-- One token, at most one, or as many as there are. -/
inductive Item (τ : Type)
  | one (p : τ → Bool)
  | opt (p : τ → Bool)
  | many (p : τ → Bool)

def Item.accepts : Item τ → τ → Bool
  | .one p | .opt p | .many p => p

/-- What the item takes from the front, and what follows. -/
def Item.read : Item τ → List τ → Option (List τ × List τ)
  | .one p, c :: s => if p c then some ([c], s) else none
  | .one _, [] => none
  | .opt p, c :: s => if p c then some ([c], s) else some ([], c :: s)
  | .opt _, [] => some ([], [])
  | .many p, s => some (s.takeWhile p, s.dropWhile p)

def readAll : List (Item τ) → List τ → Option (List τ × List τ)
  | [], s => some ([], s)
  | item :: items, s =>
    match item.read s with
    | none => none
    | some (k, s') =>
      match readAll items s' with
      | none => none
      | some (k', b) => some (k ++ k', b)

/-- The text is over, or a token comes that the predicate refuses. -/
def Stops (p : τ → Bool) (s : List τ) : Prop := ∀ c ∈ s.head?, p c = false

variable {p q : τ → Bool} {g b : List τ} {item : Item τ} {items : List (Item τ)}

theorem Stops.takeWhile (h : Stops p s) : s.takeWhile p = [] := by
  cases s with
  | nil => rfl
  | cons c s => exact List.takeWhile_cons_of_neg (by simp [h c rfl])

theorem Stops.dropWhile (h : Stops p s) : s.dropWhile p = s := by
  cases s with
  | nil => rfl
  | cons c s => exact List.dropWhile_cons_of_neg (by simp [h c rfl])

theorem stops_dropWhile (p : τ → Bool) (s : List τ) : Stops p (s.dropWhile p) := by
  intro c hc
  have hhead := List.head?_dropWhile_not p s
  rw [Option.mem_def.1 hc] at hhead
  simpa using hhead

theorem takeWhile_run (hg : ∀ c ∈ g, p c = true) (h : Stops p b) : (g ++ b).takeWhile p = g := by
  rw [List.takeWhile_append_of_pos hg, h.takeWhile, List.append_nil]

theorem dropWhile_run (hg : ∀ c ∈ g, p c = true) (h : Stops p b) : (g ++ b).dropWhile p = b := by
  rw [List.dropWhile_append_of_pos hg, h.dropWhile]

theorem readAll_cons_eq_some : readAll (item :: items) s = some (g, b) ↔
    ∃ k s' k', item.read s = some (k, s') ∧ readAll items s' = some (k', b) ∧ g = k ++ k' := by
  rw [readAll]
  constructor
  · intro h
    split at h
    · cases h
    · rename_i k s' hread
      split at h
      · cases h
      · rename_i k' b' hitems
        cases h
        exact ⟨k, s', k', hread, hitems, rfl⟩
  · rintro ⟨k, s', k', hread, hitems, rfl⟩
    simp only [hread, hitems]

theorem Item.read_spec {k s' : List τ} (h : item.read s = some (k, s')) :
    s = k ++ s' ∧ ∀ c ∈ k, item.accepts c = true := by
  cases item with
  | one p =>
    cases s with
    | nil => cases h
    | cons c s =>
      rw [Item.read] at h
      split_ifs at h with hp
      cases h
      exact ⟨rfl, List.forall_mem_singleton.2 hp⟩
  | opt p =>
    cases s with
    | nil =>
      cases h
      exact ⟨rfl, nofun⟩
    | cons c s =>
      rw [Item.read] at h
      split_ifs at h with hp
      · cases h
        exact ⟨rfl, List.forall_mem_singleton.2 hp⟩
      · cases h
        exact ⟨rfl, nofun⟩
  | many p =>
    cases h
    exact ⟨(List.takeWhile_append_dropWhile).symm, fun c hc => List.mem_takeWhile_imp hc⟩

theorem Item.read_append {k g : List τ} {c : τ} (h : item.read (k ++ c :: g) = some (k, c :: g))
    (b : List τ) : item.read (k ++ c :: b) = some (k, c :: b) := by
  cases item with
  | one p =>
    cases k with
    | nil =>
      simp only [List.nil_append, Item.read] at h
      split_ifs at h
      cases h
    | cons d k =>
      simp only [List.cons_append, Item.read] at h ⊢
      split_ifs at h with hp
      have hk := congrArg Prod.fst (Option.some.inj h)
      obtain rfl : k = [] := by simpa using hk.symm
      rw [if_pos hp]
      rfl
  | opt p =>
    cases k with
    | nil =>
      simp only [List.nil_append, Item.read] at h ⊢
      split_ifs at h with hp
      · cases h
      · rw [if_neg hp]
    | cons d k =>
      simp only [List.cons_append, Item.read] at h ⊢
      split_ifs at h with hp
      · have hk := congrArg Prod.fst (Option.some.inj h)
        obtain rfl : k = [] := by simpa using hk.symm
        rw [if_pos hp]
        rfl
      · cases h
  | many p =>
    simp only [Item.read, Option.some.injEq, Prod.mk.injEq] at h ⊢
    have hk : ∀ d ∈ k, p d = true := by
      rw [← h.1]
      exact fun d hd => List.mem_takeWhile_imp hd
    have hc : p c = false := by
      have hstops := stops_dropWhile p (k ++ c :: g)
      rw [h.2] at hstops
      exact hstops c rfl
    have hstops : Stops p (c :: b) := fun d hd => by
      cases hd
      exact hc
    exact ⟨takeWhile_run hk hstops, dropWhile_run hk hstops⟩

/-! ### Patterns -/

/-- A group that begins with one token and ends with one and its padding, and the longest run of some
tokens behind it, which is replaced. -/
structure Pattern (τ : Type) where
  first : τ → Bool
  middle : List (Item τ)
  last : τ → Bool
  pad : τ → Bool
  tail : τ → Bool

namespace Pattern

variable (p : Pattern τ)

/-- The items of the group behind its first. -/
def others : List (Item τ) := p.middle ++ [.one p.last, .many p.pad]

def group (s : List τ) : Option (List τ × List τ) := readAll (.one p.first :: p.others) s

def finder : Finder τ := fun _ s =>
  match p.group s with
  | none => none
  | some (g, b) =>
    match b.takeWhile p.tail with
    | [] => none
    | c :: secret => some ⟨g, c :: secret, b.dropWhile p.tail⟩

/-- What keeps a mark apart from a pattern, and the groups of a pattern from each other. Hard tokens
are never replaced. -/
structure Lawful (m : τ) (hard : τ → Bool) : Prop where
  first_mark : p.first m = false
  others_mark : ∀ item ∈ p.others, item.accepts m = false
  others_first : ∀ item ∈ p.others, ∀ c, item.accepts c = true → p.first c = false
  first_soft : ∀ c, p.first c = true → hard c = false
  pad_hard : ∀ c, p.pad c = true → hard c = true
  tail_soft : ∀ c, p.tail c = true → hard c = false
  wide : p.tail m = true → ∀ c, hard c = false → p.tail c = true

variable {p} {m : τ} {hard : τ → Bool} {c : τ} {k a u v : List τ}

/-- Reading the end of a group depends on the group and on where its padding stops. -/
theorem readAll_local {last pad : τ → Bool} : ∀ {middle : List (Item τ)} {s g b : List τ},
    readAll (middle ++ [.one last, .many pad]) s = some (g, b) →
      s = g ++ b ∧ g ≠ [] ∧ Stops pad b ∧
      (∀ c ∈ g, ∃ item ∈ middle ++ [.one last, .many pad], item.accepts c = true) ∧
      ∀ b', Stops pad b' → readAll (middle ++ [.one last, .many pad]) (g ++ b') = some (g, b') := by
  intro middle
  induction middle with
  | nil =>
    intro s g b h
    rw [List.nil_append, readAll_cons_eq_some] at h
    obtain ⟨k, s', k', hlast, h, rfl⟩ := h
    obtain ⟨run, b', none', hpad, hnil, rfl⟩ := readAll_cons_eq_some.1 h
    cases hnil
    cases s with
    | nil => cases hlast
    | cons c s =>
      rw [Item.read] at hlast
      split_ifs at hlast with hc
      cases hlast
      simp only [Item.read, Option.some.injEq, Prod.mk.injEq] at hpad
      obtain ⟨rfl, rfl⟩ := hpad
      refine ⟨?_, List.cons_ne_nil _ _, stops_dropWhile pad s', ?_, ?_⟩
      · simp [List.takeWhile_append_dropWhile]
      · intro d hd
        rw [List.append_nil, List.singleton_append, List.mem_cons] at hd
        rcases hd with rfl | hd
        · exact ⟨.one last, by simp, hc⟩
        · exact ⟨.many pad, by simp, List.mem_takeWhile_imp hd⟩
      · intro b hb
        have hrun : ∀ d ∈ s'.takeWhile pad, pad d = true := fun d hd => List.mem_takeWhile_imp hd
        rw [List.nil_append, readAll_cons_eq_some]
        refine ⟨[c], s'.takeWhile pad ++ b, s'.takeWhile pad, ?_, ?_, by simp⟩
        · simp [Item.read, hc]
        · rw [readAll_cons_eq_some]
          refine ⟨s'.takeWhile pad, b, [], ?_, rfl, by simp⟩
          rw [Item.read, takeWhile_run hrun hb, dropWhile_run hrun hb]
  | cons item middle ih =>
    intro s g b h
    rw [List.cons_append, readAll_cons_eq_some] at h
    obtain ⟨k, s', k', hread, h, rfl⟩ := h
    obtain ⟨rfl, hne, hstops, haccepts, hlocal⟩ := ih h
    obtain ⟨rfl, hk⟩ := Item.read_spec hread
    refine ⟨(List.append_assoc _ _ _).symm, by simp [hne], hstops, ?_, ?_⟩
    · intro c hc
      rcases List.mem_append.1 hc with hc | hc
      · exact ⟨item, List.mem_cons_self, hk c hc⟩
      · obtain ⟨other, hother, hc⟩ := haccepts c hc
        exact ⟨other, List.mem_cons_of_mem _ hother, hc⟩
    · intro b' hb'
      rw [List.cons_append, readAll_cons_eq_some]
      refine ⟨k, k' ++ b', k', ?_, hlocal b' hb', rfl⟩
      cases k' with
      | nil => exact absurd rfl hne
      | cons c k' =>
        rw [List.append_assoc]
        exact Item.read_append hread (k' ++ b')

theorem group_spec (h : p.group s = some (g, b)) :
    s = g ++ b ∧ Stops p.pad b ∧
      (∃ c k, g = c :: k ∧ p.first c = true ∧
        ∀ d ∈ k, ∃ item ∈ p.others, item.accepts d = true) ∧
      ∀ b', Stops p.pad b' → p.group (g ++ b') = some (g, b') := by
  obtain ⟨k, s', k', hfirst, hothers, rfl⟩ := readAll_cons_eq_some.1 h
  obtain ⟨rfl, -, hstops, haccepts, hlocal⟩ := readAll_local hothers
  cases s with
  | nil => cases hfirst
  | cons c s =>
    rw [Item.read] at hfirst
    split_ifs at hfirst with hc
    cases hfirst
    refine ⟨rfl, hstops, ⟨c, k', rfl, hc, haccepts⟩, fun b' hb' => ?_⟩
    refine readAll_cons_eq_some.2 ⟨[c], k' ++ b', k', ?_, hlocal b' hb', rfl⟩
    simp [Item.read, hc]

theorem group_cons_of_not (h : p.first c = false) : p.group (c :: s) = none := by
  cases hgroup : p.group (c :: s) with
  | none => rfl
  | some result =>
    obtain ⟨hs, -, ⟨d, k, hg, hfirst, -⟩, -⟩ := group_spec (g := result.1) (b := result.2) hgroup
    rw [hg] at hs
    cases hs
    rw [h] at hfirst
    cases hfirst

theorem finder_eq_some : p.finder prev s = some f ↔
    ∃ g b, p.group s = some (g, b) ∧ f = ⟨g, b.takeWhile p.tail, b.dropWhile p.tail⟩ ∧
      ∃ c ∈ b.head?, p.tail c = true := by
  unfold Pattern.finder
  constructor
  · intro h
    split at h
    · cases h
    · rename_i g b hgroup
      split at h
      · cases h
      · rename_i c secret hrun
        cases h
        refine ⟨g, b, hgroup, by rw [hrun], ?_⟩
        cases b with
        | nil => cases hrun
        | cons d b =>
          refine ⟨d, rfl, ?_⟩
          by_contra hd
          rw [List.takeWhile_cons_of_neg hd] at hrun
          cases hrun
  · rintro ⟨g, b, hgroup, rfl, c, hc, htail⟩
    cases b with
    | nil => cases hc
    | cons d b =>
      cases hc
      simp only [hgroup, List.takeWhile_cons_of_pos htail]

theorem finder_eq_none : p.finder prev s = none ↔
    ∀ g b, p.group s = some (g, b) → Stops p.tail b := by
  constructor
  · intro h g b hgroup c hc
    by_contra htail
    have hfound : p.finder prev s = some ⟨g, b.takeWhile p.tail, b.dropWhile p.tail⟩ :=
      finder_eq_some.2 ⟨g, b, hgroup, rfl, c, hc, Bool.of_not_eq_false htail⟩
    rw [h] at hfound
    cases hfound
  · intro h
    cases hfound : p.finder prev s with
    | none => rfl
    | some f =>
      obtain ⟨g, b, hgroup, -, c, hc, htail⟩ := finder_eq_some.1 hfound
      rw [h g b hgroup c hc] at htail
      cases htail

theorem finds : Finds p.finder where
  split h := by
    obtain ⟨g, b, hgroup, rfl, -⟩ := finder_eq_some.1 h
    rw [List.takeWhile_append_dropWhile]
    exact (group_spec hgroup).1
  secret h := by
    obtain ⟨g, b, -, rfl, c, hc, htail⟩ := finder_eq_some.1 h
    cases b with
    | nil => cases hc
    | cons d b =>
      cases hc
      simp [htail]

theorem Lawful.soft (hp : p.Lawful m hard) (h : p.finder prev s = some f) :
    ∀ c ∈ f.secret, hard c = false := by
  obtain ⟨g, b, -, rfl, -⟩ := finder_eq_some.1 h
  exact fun c hc => hp.tail_soft c (List.mem_takeWhile_imp hc)

/-! ### Closed texts -/

/-- Behind a group there is nothing to be replaced but a mark, by itself. -/
def Closed (p : Pattern τ) (m : τ) (hard : τ → Bool) (s : List τ) : Prop :=
  ∀ a u, s = a ++ u → ∀ g c b, p.group u = some (g, c :: b) → p.tail c = true →
    c = m ∧ HardStart hard b

theorem Closed.suffix (h : p.Closed m hard (a ++ s)) : p.Closed m hard s := by
  intro a' u hsplit
  apply h (a ++ a') u
  rw [hsplit, List.append_assoc]

theorem Lawful.notMem_group (hp : p.Lawful m hard) (h : p.group s = some (g, b)) : m ∉ g := by
  obtain ⟨-, -, ⟨c, k, rfl, hfirst, haccepts⟩, -⟩ := group_spec h
  intro hm
  rcases List.mem_cons.1 hm with rfl | hm
  · rw [hp.first_mark] at hfirst
    cases hfirst
  · obtain ⟨item, hitem, haccept⟩ := haccepts m hm
    rw [hp.others_mark item hitem] at haccept
    cases haccept

theorem Lawful.stops_pad (hp : p.Lawful m hard) (h : hard c = false) (b : List τ) :
    Stops p.pad (c :: b) := by
  intro d hd
  cases hd
  by_contra hpad
  rw [hp.pad_hard c (Bool.of_not_eq_false hpad)] at h
  cases h

theorem Lawful.group_before (hp : p.Lawful m hard) (hcuts : Cuts m hard s o)
    (h : p.group o = some (g, c :: b)) (htail : p.tail c = true) :
    ∃ d u, p.group s = some (g, d :: u) ∧ p.tail d = true ∧
      (d = c ∧ Cuts m hard u b ∨
        c = m ∧ ∃ secret v, u = secret ++ v ∧ (∀ x ∈ secret, hard x = false) ∧ Cuts m hard v b) := by
  obtain ⟨rfl, -, -, hlocal⟩ := group_spec h
  obtain ⟨u, rfl, hbehind⟩ := hcuts.unmarked (hp.notMem_group h)
  cases hbehind with
  | @keep _ u _ hrest =>
    exact ⟨c, u, hlocal _ (hp.stops_pad (hp.tail_soft c htail) u), htail, .inl ⟨rfl, hrest⟩⟩
  | @cut secret v _ hne hsoft hrest =>
    cases secret with
    | nil => exact absurd rfl hne
    | cons d secret =>
      have hd := hsoft d List.mem_cons_self
      refine ⟨d, secret ++ v, hlocal _ (hp.stops_pad hd _), hp.wide htail d hd, .inr ⟨rfl, ?_⟩⟩
      exact ⟨secret, v, rfl, fun x hx => hsoft x (List.mem_cons_of_mem d hx), hrest⟩

theorem Lawful.closed_of_cuts (hp : p.Lawful m hard) (hcuts : Cuts m hard s o)
    (h : p.Closed m hard s) : p.Closed m hard o := by
  rintro a v rfl g c b hgroup htail
  obtain ⟨a', u, rfl, hu⟩ := hcuts.suffix
  obtain ⟨d, w, hbefore, hd, hcase⟩ := hp.group_before hu hgroup htail
  obtain ⟨rfl, hstart⟩ := h a' u rfl g d w hbefore hd
  rcases hcase with ⟨rfl, hrest⟩ | ⟨rfl, secret, v, rfl, hsoft, hrest⟩
  · exact ⟨rfl, hrest.hardStart hstart⟩
  · refine ⟨rfl, hrest.hardStart ?_⟩
    cases secret with
    | nil => exact hstart
    | cons e secret =>
      have hhard := hstart e rfl
      rw [hsoft e List.mem_cons_self] at hhard
      cases hhard

theorem Lawful.closed_of_replaces (hp : p.Lawful m hard)
    (h : Replaces p.finder [m] prev s o) : p.Closed m hard o := by
  induction h with
  | nil =>
    intro a u hsplit g c b hgroup
    obtain ⟨-, rfl⟩ := List.append_eq_nil_iff.1 hsplit.symm
    cases hgroup
  | @keep prev c s o hnone hrest ih =>
    intro a u hsplit g d b hgroup htail
    cases a with
    | nil =>
      -- the group begins here, so it begins here in the text as well, where nothing was found
      obtain rfl : c :: o = u := hsplit
      have hcuts : Cuts m hard (c :: s) (c :: o) := .keep c (hrest.cuts finds hp.soft)
      obtain ⟨e, w, hbefore, he, -⟩ := hp.group_before hcuts hgroup htail
      rw [finder_eq_none.1 hnone g (e :: w) hbefore e rfl] at he
      cases he
    | cons c' a =>
      obtain ⟨rfl, rfl⟩ : c = c' ∧ o = a ++ u := by simpa using hsplit
      exact ih a u rfl g d b hgroup htail
  | @cut prev s o f hfound hrest ih =>
    obtain ⟨k, r, hkept, rfl, x, hx, hxtail⟩ := finder_eq_some.1 hfound
    obtain ⟨-, -, ⟨first, k', hk, -, haccepts⟩, hlocal⟩ := group_spec hkept
    intro a u hsplit g d b hgroup htail
    rcases List.append_eq_append_iff.1 hsplit with ⟨a', rfl, hafter⟩ | ⟨k'', hkeep, rfl⟩
    · -- behind the group that was found
      cases a' with
      | nil =>
        obtain rfl : m :: o = u := hafter
        rw [group_cons_of_not hp.first_mark] at hgroup
        cases hgroup
      | cons m' a' =>
        obtain ⟨-, rfl⟩ : m = m' ∧ o = a' ++ u := by simpa using hafter
        exact ih a' u rfl g d b hgroup htail
    · cases a with
      | nil =>
        -- the group that was found, with its mark
        obtain rfl : k = k'' := hkeep
        have hmark : Stops p.pad ([m] ++ o) := by
          intro y hy
          cases hy
          exact hp.others_mark (.many p.pad) (by simp [others])
        rw [hlocal _ hmark] at hgroup
        cases hgroup
        refine ⟨rfl, (hrest.cuts finds hp.soft).hardStart fun y hy => ?_⟩
        by_contra hsoft
        have hstops := stops_dropWhile p.tail r y hy
        rw [hp.wide htail y (by simpa using hsoft)] at hstops
        cases hstops
      | cons c a =>
        -- no group begins inside another
        rw [hk] at hkeep
        obtain ⟨rfl, rfl⟩ : first = c ∧ k' = a ++ k'' := by simpa using hkeep
        cases k'' with
        | nil =>
          rw [List.nil_append, List.singleton_append, group_cons_of_not hp.first_mark] at hgroup
          cases hgroup
        | cons y k'' =>
          obtain ⟨item, hitem, haccept⟩ := haccepts y (by simp)
          rw [List.cons_append, group_cons_of_not (hp.others_first item hitem y haccept)] at hgroup
          cases hgroup

theorem Lawful.replaces_closed (hp : p.Lawful m hard) (h : Replaces p.finder [m] prev s o)
    (hclosed : p.Closed m hard s) : o = s := by
  induction h with
  | nil => rfl
  | @keep prev c s o _ _ ih => rw [ih (Closed.suffix (a := [c]) hclosed)]
  | @cut prev s o f hfound _ ih =>
    obtain ⟨g, b, hgroup, rfl, c, hc, htail⟩ := finder_eq_some.1 hfound
    obtain ⟨rfl, -⟩ := group_spec hgroup
    cases b with
    | nil => cases hc
    | cons d b =>
      obtain rfl : d = c := Option.some.inj hc
      obtain ⟨hmark, hstart⟩ := hclosed [] _ rfl g d b hgroup htail
      have hstops : Stops p.tail b := by
        intro y hy
        by_contra htail
        have hsoft := hp.tail_soft y (Bool.of_not_eq_false htail)
        rw [hstart y hy] at hsoft
        cases hsoft
      have hrest : (d :: b).dropWhile p.tail = b := by
        rw [List.dropWhile_cons_of_pos htail, hstops.dropWhile]
      have hsuffix : p.Closed m hard b := Closed.suffix (a := g ++ [d]) (by simpa using hclosed)
      rw [hrest] at ih
      rw [ih hsuffix, hmark]
      rfl

theorem Lawful.replace_closed (hp : p.Lawful m hard) (h : p.Closed m hard s) :
    replace p.finder [m] s = s :=
  hp.replaces_closed (replaces_replace finds s) h

/-! ### Cuts through a mark -/

/-- What is cut off behind a closed text leaves it closed. -/
theorem Lawful.closed_front (hp : p.Lawful m hard) (h : p.Closed m hard (s ++ v)) :
    p.Closed m hard s := by
  rintro a u rfl g c b hgroup htail
  obtain ⟨rfl, -, -, hlocal⟩ := group_spec hgroup
  have hbehind := hlocal (c :: (b ++ v)) (hp.stops_pad (hp.tail_soft c htail) _)
  obtain ⟨rfl, hstart⟩ := h a (g ++ c :: (b ++ v)) (by simp) g c (b ++ v) hbehind htail
  refine ⟨rfl, ?_⟩
  cases b with
  | nil => exact nofun
  | cons d b => exact fun y hy => hstart y hy

/-- What is left of a mark: it is no part of a group, and the tail takes the whole of it, or
nothing. -/
structure Stub (p : Pattern τ) (P : List τ) : Prop where
  opener : ∃ y P', P = y :: P' ∧ p.first y = false ∧
    (∀ item ∈ p.others, item.accepts y = false) ∧ (p.tail y = true → ∀ c ∈ P, p.tail c = true)
  inside : ∀ {a v : List τ}, P = a ++ v → p.group v = none

theorem Stub.replaces {P : List τ} (hstub : p.Stub P) :
    ∀ {a v : List τ}, P = a ++ v → Replaces p.finder [m] prev v o → o = v := by
  intro a v hsplit h
  refine h.unique finds (replaces_self fun a' u hv => finder_eq_none.2 fun g b hgroup => ?_)
  rw [hstub.inside (a := a ++ a') (by rw [hsplit, hv, List.append_assoc])] at hgroup
  cases hgroup

/-- Behind a closed text, what is left of a mark stays or becomes the mark again. -/
theorem Lawful.replaces_stub (hp : p.Lawful m hard) {P K L : List τ} (hstub : p.Stub P)
    (h : Replaces p.finder [m] prev s o) (hs : s = K ++ P)
    (hclosed : p.Closed m hard (K ++ m :: L)) : o = K ++ P ∨ o = K ++ [m] := by
  induction h generalizing K with
  | nil =>
    obtain ⟨y, P', rfl, -⟩ := hstub.opener
    simp at hs
  | @keep prev c s o hnone hrest ih =>
    cases K with
    | nil =>
      left
      rw [List.nil_append] at hs ⊢
      rw [← hs]
      exact hstub.replaces (a := []) hs.symm (.keep hnone hrest)
    | cons d K =>
      obtain ⟨rfl, rfl⟩ : c = d ∧ s = K ++ P := by simpa using hs
      rcases ih rfl (Closed.suffix (a := [c]) hclosed) with rfl | rfl
      · exact .inl rfl
      · exact .inr rfl
  | @cut prev s o f hfound hrest ih =>
    obtain ⟨g, b, hgroup, rfl, c, hc, htail⟩ := finder_eq_some.1 hfound
    obtain ⟨hsplit, -, ⟨first, g', hg, hfirst, haccepts⟩, hlocal⟩ := group_spec hgroup
    obtain ⟨y, P', hP, hyfirst, hyothers, hytail⟩ := hstub.opener
    have hy : y ∉ g := by
      rw [hg]
      intro hmem
      rcases List.mem_cons.1 hmem with rfl | hmem
      · rw [hyfirst] at hfirst
        cases hfirst
      · obtain ⟨item, hitem, haccept⟩ := haccepts y hmem
        rw [hyothers item hitem] at haccept
        cases haccept
    rcases List.append_eq_append_iff.1 (hsplit.symm.trans hs) with ⟨z, hK, hb⟩ | ⟨z, hgK, hPb⟩
    · -- the group ends before the stub
      cases z with
      | nil =>
        obtain rfl : b = P := by simpa using hb
        obtain rfl : K = g := by simpa using hK
        rw [hP] at hc
        cases hc
        have hall : ∀ d ∈ b, p.tail d = true := hytail htail
        have hrest' : b.dropWhile p.tail = [] := List.dropWhile_eq_nil_iff.2 hall
        rw [hrest'] at hrest
        right
        rw [hrest.unique finds (.nil _)]
        rfl
      | cons d z =>
        rw [hb] at hc
        obtain rfl : d = c := Option.some.inj hc
        have hbehind := hlocal (d :: (z ++ m :: L)) (hp.stops_pad (hp.tail_soft d htail) _)
        obtain ⟨rfl, hstart⟩ := hclosed [] (g ++ d :: (z ++ m :: L)) (by simp [hK]) g d _ hbehind htail
        cases z with
        | nil =>
          have hhard := hstart d rfl
          rw [hp.tail_soft d htail] at hhard
          cases hhard
        | cons e z =>
          have hhard := hstart e rfl
          have hstops : Stops p.tail (e :: z ++ P) := by
            intro x hx
            cases hx
            by_contra he
            rw [hp.tail_soft e (Bool.of_not_eq_false he)] at hhard
            cases hhard
          have hdrop : b.dropWhile p.tail = e :: z ++ P := by
            rw [hb, List.cons_append, List.dropWhile_cons_of_pos htail, hstops.dropWhile]
          have hsuffix : p.Closed d hard (e :: z ++ d :: L) :=
            Closed.suffix (a := g ++ [d]) (by simpa [hK] using hclosed)
          rcases ih hdrop hsuffix with rfl | rfl
          · left
            simp [hK]
          · right
            simp [hK]
    · -- the stub is no part of a group
      cases z with
      | nil =>
        obtain rfl : g = K := by simpa using hgK
        obtain rfl : P = b := by simpa using hPb
        rw [hP] at hc
        cases hc
        have hall : ∀ d ∈ P, p.tail d = true := hytail htail
        have hrest' : P.dropWhile p.tail = [] := List.dropWhile_eq_nil_iff.2 hall
        rw [hrest'] at hrest
        right
        rw [hrest.unique finds (.nil _)]
        rfl
      | cons d z =>
        rw [hP] at hPb
        obtain ⟨rfl, -⟩ : y = d ∧ P' = z ++ b := by simpa using hPb
        exact absurd (by simp [hgK]) hy

theorem Lawful.replace_stub (hp : p.Lawful m hard) {P K L : List τ} (hstub : p.Stub P)
    (hclosed : p.Closed m hard (K ++ m :: L)) :
    replace p.finder [m] (K ++ P) = K ++ P ∨ replace p.finder [m] (K ++ P) = K ++ [m] :=
  hp.replaces_stub hstub (replaces_replace finds _) rfl hclosed

end Pattern

end Replacing
