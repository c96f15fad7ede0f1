import CodexFlow.Lib.Replacing
import Mathlib

/-!
# Texts with marks

A text in which some tokens are marks, each of which stands for a word. Replacing in the marked text is
replacing in the text that it stands for, where no match takes a part of the word alone.
-/

namespace Replacing

variable {α : Type} {text : List α} {closer : α}

/-- What a token stands for. -/
def wordOf (text : List α) : Option α → List α
  | some c => [c]
  | none => text

/-- The text that a marked text stands for. -/
def unmark (text : List α) (s : List (Option α)) : List α := s.flatMap (wordOf text)

@[simp] theorem unmark_nil : unmark text [] = [] := rfl

@[simp] theorem unmark_some (c : α) (s : List (Option α)) :
    unmark text (some c :: s) = c :: unmark text s := rfl

@[simp] theorem unmark_none (s : List (Option α)) :
    unmark text (none :: s) = text ++ unmark text s := rfl

theorem unmark_append (s s' : List (Option α)) :
    unmark text (s ++ s') = unmark text s ++ unmark text s' := List.flatMap_append

theorem unmark_map (s : List α) : unmark text (s.map some) = s := by
  induction s with
  | nil => rfl
  | cons c s ih => rw [List.map_cons, unmark_some, ih]

/-- What is cut off ends behind a token, or in the word of a mark. -/
theorem front_unmark {o : List (Option α)} {x y : List α} (h : unmark text o = x ++ y) :
    (∃ K L, o = K ++ L ∧ x = unmark text K) ∨
      ∃ K L p q, o = K ++ none :: L ∧ text = p ++ q ∧ p ≠ [] ∧ q ≠ [] ∧ x = unmark text K ++ p := by
  induction o generalizing x with
  | nil =>
    obtain ⟨rfl, -⟩ := List.append_eq_nil_iff.1 h.symm
    exact .inl ⟨[], [], rfl, rfl⟩
  | cons t o ih =>
    cases x with
    | nil => exact .inl ⟨[], t :: o, rfl, rfl⟩
    | cons c x =>
      cases t with
      | some d =>
        obtain ⟨rfl, hrest⟩ : d = c ∧ unmark text o = x ++ y := by simpa using h
        rcases ih hrest with ⟨K, L, rfl, rfl⟩ | ⟨K, L, p, q, rfl, htext, hp, hq, rfl⟩
        · exact .inl ⟨some d :: K, L, rfl, rfl⟩
        · exact .inr ⟨some d :: K, L, p, q, rfl, htext, hp, hq, rfl⟩
      | none =>
        rw [unmark_none] at h
        rcases List.append_eq_append_iff.1 h with ⟨z, hz, hrest⟩ | ⟨q, htext, -⟩
        · rcases ih hrest with ⟨K, L, rfl, hK⟩ | ⟨K, L, p, q, rfl, htext, hp, hq, hK⟩
          · exact .inl ⟨none :: K, L, rfl, by rw [hz, hK, unmark_none]⟩
          · refine .inr ⟨none :: K, L, p, q, rfl, htext, hp, hq, ?_⟩
            rw [hz, hK, unmark_none, List.append_assoc]
        · cases q with
          | nil =>
            refine .inl ⟨[none], o, rfl, ?_⟩
            rw [htext, unmark_none, unmark_nil]
            simp
          | cons d q =>
            exact .inr ⟨[], o, c :: x, d :: q, rfl, htext, List.cons_ne_nil _ _,
              List.cons_ne_nil _ _, rfl⟩

/-- What is cut off ends, and what is behind it begins, between two tokens or in the word of a mark. -/
theorem split_unmark {o : List (Option α)} {x y : List α} (h : unmark text o = x ++ y) :
    (∃ K L, o = K ++ L ∧ x = unmark text K ∧ y = unmark text L) ∨
      ∃ K L p q, o = K ++ none :: L ∧ text = p ++ q ∧ p ≠ [] ∧ q ≠ [] ∧
        x = unmark text K ++ p ∧ y = q ++ unmark text L := by
  rcases front_unmark h with ⟨K, L, rfl, rfl⟩ | ⟨K, L, p, q, rfl, htext, hp, hq, rfl⟩
  · rw [unmark_append] at h
    exact .inl ⟨K, L, rfl, rfl, (List.append_cancel_left h).symm⟩
  · refine .inr ⟨K, L, p, q, rfl, htext, hp, hq, rfl, ?_⟩
    have hsame : (unmark text K ++ p) ++ (q ++ unmark text L) = (unmark text K ++ p) ++ y := by
      rw [← h, unmark_append, unmark_none, List.append_assoc, ← List.append_assoc p, ← htext]
    exact (List.append_cancel_left hsame).symm

/-! ### Replacing -/

/-- The last character of the token in front of a place. -/
def before (closer : α) : Option (Option α) → Option α
  | none => none
  | some none => some closer
  | some (some c) => some c

/-- A finder of marked texts finds what the other finds in the texts that they stand for. -/
structure Mirrors (text : List α) (closer : α) (F : Finder (Option α)) (f : Finder α) : Prop where
  word : text.getLast? = some closer
  found : ∀ {prev s r}, F prev s = some r → f (before closer prev) (unmark text s) =
    some ⟨unmark text r.kept, unmark text r.secret, unmark text r.rest⟩
  notFound : ∀ {prev c s}, F prev (some c :: s) = none →
    f (before closer prev) (c :: unmark text s) = none
  inside : ∀ {a v s prev}, text = a ++ v → v ≠ [] → f prev (v ++ s) = none

theorem getLast?_unmark (h : text.getLast? = some closer) (s : List (Option α)) :
    (unmark text s).getLast? = before closer s.getLast? := by
  induction s using List.reverseRecOn with
  | nil => rfl
  | append_singleton s t _ =>
    rw [unmark_append, List.getLast?_append, List.getLast?_concat]
    cases t with
    | none => simp [before, unmark, wordOf, h]
    | some c => simp [before, unmark, wordOf]

/-- Nothing is found inside a word. -/
theorem Mirrors.through {F : Finder (Option α)} {f : Finder α} (h : Mirrors text closer F f)
    {s o : List α} (hrest : Replaces f text (some closer) s o) :
    ∀ {a v : List α} {prev : Option α}, text = a ++ v → v ≠ [] →
      Replaces f text prev (v ++ s) (v ++ o) := by
  intro a v
  induction v generalizing a with
  | nil => exact fun _ hne => absurd rfl hne
  | cons c v ih =>
    intro prev hsplit _
    apply Replaces.keep (h.inside hsplit (List.cons_ne_nil c v))
    cases v with
    | nil =>
      have hlast := h.word
      rw [hsplit, List.getLast?_append] at hlast
      cases hlast
      exact hrest
    | cons d v =>
      apply ih (a := a ++ [c]) _ (List.cons_ne_nil d v)
      rw [hsplit, List.append_assoc]
      rfl

theorem Mirrors.replaces {F : Finder (Option α)} {f : Finder α} (h : Mirrors text closer F f)
    {prev : Option (Option α)} {s o : List (Option α)} (hrun : Replaces F [none] prev s o) :
    Replaces f text (before closer prev) (unmark text s) (unmark text o) := by
  induction hrun with
  | nil => exact .nil _
  | @keep prev t s o hnone _ ih =>
    cases t with
    | none =>
      have hne : text ≠ [] := by
        rintro rfl
        cases h.word
      exact h.through (ih) (a := []) rfl hne
    | some c => exact .keep (h.notFound hnone) ih
  | @cut prev s o r hfound _ ih =>
    rw [← getLast?_unmark h.word] at ih
    rw [unmark_append]
    exact .cut (h.found hfound) ih

theorem Mirrors.replace {F : Finder (Option α)} {f : Finder α} (h : Mirrors text closer F f)
    (hF : Finds F) (hf : Finds f) (s : List (Option α)) :
    replace f text (unmark text s) = unmark text (Replacing.replace F [none] s) :=
  replace_eq hf (h.replaces (replaces_replace hF s))

/-- What is found in the text that a marked text stands for is found in the marked text. -/
theorem Mirrors.found_at {F : Finder (Option α)} {f : Finder α} (h : Mirrors text closer F f)
    (hf : Finds f) {o : List (Option α)} {x y : List α} {r : Found α}
    (hsplit : unmark text o = x ++ y) (hfound : f x.getLast? y = some r) :
    ∃ K L r', o = K ++ L ∧ F K.getLast? L = some r' ∧
      r = ⟨unmark text r'.kept, unmark text r'.secret, unmark text r'.rest⟩ := by
  rcases split_unmark hsplit with ⟨K, L, rfl, rfl, rfl⟩ | ⟨K, L, p, q, rfl, htext, -, hq, -, rfl⟩
  · rw [getLast?_unmark h.word] at hfound
    cases hF : F K.getLast? L with
    | some r' =>
      rw [h.found hF] at hfound
      exact ⟨K, L, r', rfl, hF, (Option.some.inj hfound).symm⟩
    | none =>
      cases L with
      | nil =>
        rw [unmark_nil, hf.none_of_nil] at hfound
        cases hfound
      | cons t L =>
        cases t with
        | none =>
          have hne : text ≠ [] := by
            rintro rfl
            cases h.word
          rw [unmark_none, h.inside (a := []) rfl hne] at hfound
          cases hfound
        | some c =>
          rw [unmark_some, h.notFound hF] at hfound
          cases hfound
  · rw [h.inside htext hq] at hfound
    cases hfound

/-! ### Patterns of marked texts -/

def Item.lift : Item α → Item (Option α)
  | .one p => .one fun t => t.any p
  | .opt p => .opt fun t => t.any p
  | .many p => .many fun t => t.any p

/-- The pattern of marked texts, whose tail takes marks or does not. -/
def Pattern.lift (p : Pattern α) (tailMark : Bool) : Pattern (Option α) where
  first t := t.any p.first
  middle := p.middle.map Item.lift
  last t := t.any p.last
  pad t := t.any p.pad
  tail t := t.elim tailMark p.tail

/-- What a word is to a pattern: a match takes the whole of it, or nothing. -/
structure Pattern.Apart (p : Pattern α) (text : List α) (tailMark : Bool) : Prop where
  opener : ∃ opener body, text = opener :: body ∧ p.first opener = false ∧
    (∀ item ∈ p.others, item.accepts opener = false) ∧ p.tail opener = tailMark
  tail : tailMark = true → ∀ c ∈ text, p.tail c = true
  inside : ∀ {a v : List α} (s : List α), text = a ++ v → v ≠ [] → p.group (v ++ s) = none

variable {p : Pattern α} {tailMark : Bool} {q : α → Bool}

theorem takeWhile_unmark (hmark : ∀ c ∈ text.head?, q c = false) (hne : text ≠ [])
    (s : List (Option α)) :
    (unmark text s).takeWhile q = unmark text (s.takeWhile fun t => t.any q) ∧
      (unmark text s).dropWhile q = unmark text (s.dropWhile fun t => t.any q) := by
  induction s with
  | nil => exact ⟨rfl, rfl⟩
  | cons t s ih =>
    cases t with
    | none =>
      cases text with
      | nil => exact absurd rfl hne
      | cons c text => simp [hmark c rfl]
    | some c => by_cases hc : q c = true <;> simp [hc, ih]

/-- A tail that takes words takes the same of both. -/
theorem tail_unmark (htail : tailMark = true → ∀ c ∈ text, q c = true)
    (hmark : tailMark = false → ∀ c ∈ text.head?, q c = false) (hne : text ≠ [])
    (s : List (Option α)) :
    (unmark text s).takeWhile q = unmark text (s.takeWhile fun t => t.elim tailMark q) ∧
      (unmark text s).dropWhile q = unmark text (s.dropWhile fun t => t.elim tailMark q) := by
  induction s with
  | nil => exact ⟨rfl, rfl⟩
  | cons t s ih =>
    cases t with
    | none =>
      cases tailMark with
      | true =>
        rw [unmark_none, List.takeWhile_append_of_pos (htail rfl),
          List.dropWhile_append_of_pos (htail rfl), ih.1, ih.2]
        exact ⟨rfl, rfl⟩
      | false =>
        cases text with
        | nil => exact absurd rfl hne
        | cons c text => simp [hmark rfl c rfl]
    | some c => by_cases hc : q c = true <;> simp [hc, ih]

theorem Item.read_unmark {item : Item α} (hmark : ∀ c ∈ text.head?, item.accepts c = false)
    (hne : text ≠ []) (s : List (Option α)) :
    item.read (unmark text s) = (item.lift.read s).map fun (k, b) => (unmark text k, unmark text b) := by
  cases item with
  | many q =>
    have hq : ∀ c ∈ text.head?, q c = false := hmark
    obtain ⟨htake, hdrop⟩ := takeWhile_unmark hq hne s
    simp only [Item.read, Item.lift, Option.map_some]
    rw [htake, hdrop]
  | one q =>
    cases s with
    | nil => rfl
    | cons t s =>
      cases t with
      | none =>
        cases text with
        | nil => exact absurd rfl hne
        | cons c text =>
          have hc : q c = false := hmark c rfl
          simp [Item.read, Item.lift, hc]
      | some c => by_cases hc : q c = true <;> simp [Item.read, Item.lift, hc]
  | opt q =>
    cases s with
    | nil => rfl
    | cons t s =>
      cases t with
      | none =>
        cases text with
        | nil => exact absurd rfl hne
        | cons c text =>
          have hc : q c = false := hmark c rfl
          simp [Item.read, Item.lift, hc]
      | some c => by_cases hc : q c = true <;> simp [Item.read, Item.lift, hc]

theorem readAll_unmark (hne : text ≠ []) : ∀ {items : List (Item α)},
    (∀ item ∈ items, ∀ c ∈ text.head?, item.accepts c = false) → ∀ s : List (Option α),
      readAll items (unmark text s) =
        (readAll (items.map Item.lift) s).map fun (k, b) => (unmark text k, unmark text b)
  | [], _, s => rfl
  | item :: items, hmark, s => by
    obtain ⟨hitem, hitems⟩ := List.forall_mem_cons.1 hmark
    rw [readAll, Item.read_unmark hitem hne, List.map_cons, readAll]
    cases hread : item.lift.read s with
    | none => rfl
    | some result =>
      obtain ⟨k, b⟩ := result
      simp only [Option.map_some]
      rw [readAll_unmark hne hitems b]
      cases readAll (items.map Item.lift) b with
      | none => rfl
      | some result => simp [unmark_append]

theorem Pattern.others_lift (p : Pattern α) (tailMark : Bool) :
    (p.lift tailMark).others = p.others.map Item.lift := by
  simp only [Pattern.others, Pattern.lift, List.map_append]
  rfl

theorem Pattern.Apart.group_unmark (h : p.Apart text tailMark) (s : List (Option α)) :
    p.group (unmark text s) =
      ((p.lift tailMark).group s).map fun (k, b) => (unmark text k, unmark text b) := by
  obtain ⟨opener, body, rfl, hfirst, hothers, -⟩ := h.opener
  unfold Pattern.group
  rw [Pattern.others_lift, readAll_unmark (List.cons_ne_nil opener body)]
  · rfl
  · intro item hitem c hc
    cases hc
    rcases List.mem_cons.1 hitem with rfl | hitem
    · exact hfirst
    · exact hothers item hitem

theorem Pattern.Apart.tail_unmark (h : p.Apart text tailMark) (s : List (Option α)) :
    (unmark text s).takeWhile p.tail = unmark text (s.takeWhile (p.lift tailMark).tail) ∧
      (unmark text s).dropWhile p.tail = unmark text (s.dropWhile (p.lift tailMark).tail) := by
  have htail := h.tail
  obtain ⟨opener, body, rfl, -, -, hopener⟩ := h.opener
  refine Replacing.tail_unmark htail (fun hmark c hc => ?_) (List.cons_ne_nil opener body) s
  cases hc
  rw [hopener, hmark]

/-- The token behind a group is in the tail when the first character of its word is. -/
theorem Pattern.Apart.head_unmark (h : p.Apart text tailMark) (s : List (Option α)) :
    (∃ c ∈ (unmark text s).head?, p.tail c = true) ↔
      ∃ t ∈ s.head?, (p.lift tailMark).tail t = true := by
  obtain ⟨opener, body, rfl, -, -, hopener⟩ := h.opener
  cases s with
  | nil => simp
  | cons t s =>
    cases t with
    | none => simp [Pattern.lift, hopener]
    | some c => simp [Pattern.lift]

theorem Pattern.Apart.mirrors (h : p.Apart text tailMark) (hword : text.getLast? = some closer) :
    Mirrors text closer (p.lift tailMark).finder p.finder where
  word := hword
  found hfound := by
    obtain ⟨g, b, hgroup, rfl, hhead⟩ := Pattern.finder_eq_some.1 hfound
    obtain ⟨htake, hdrop⟩ := h.tail_unmark b
    refine Pattern.finder_eq_some.2 ⟨unmark text g, unmark text b, ?_, ?_, h.head_unmark b |>.2 hhead⟩
    · rw [h.group_unmark, hgroup]
      rfl
    · rw [htake, hdrop]
  notFound {prev c s} hnone := by
    refine Pattern.finder_eq_none.2 fun g b hgroup d hd => ?_
    rw [← unmark_some, h.group_unmark] at hgroup
    obtain ⟨⟨k, r⟩, hlift, hsame⟩ := Option.map_eq_some_iff.1 hgroup
    cases hsame
    by_contra htail
    obtain ⟨t, ht, htail⟩ := (h.head_unmark r).1 ⟨d, hd, Bool.of_not_eq_false htail⟩
    rw [Pattern.finder_eq_none.1 hnone k r hlift t ht] at htail
    cases htail
  inside {a v s prev} hsplit hne := by
    refine Pattern.finder_eq_none.2 fun g b hgroup => ?_
    rw [h.inside s hsplit hne] at hgroup
    cases hgroup

theorem Item.accepts_lift (item : Item α) (t : Option α) :
    item.lift.accepts t = t.any item.accepts := by
  cases item <;> rfl

/-- The front of a word is no part of a match, unless the tail takes it. -/
theorem Pattern.Apart.stub {P q : List α} (h : p.Apart text tailMark)
    (hpad : ∀ c ∈ text, p.pad c = false) (htext : text = P ++ q) (hP : P ≠ []) (hq : q ≠ []) :
    (p.lift tailMark).Stub (P.map some) where
  opener := by
    obtain ⟨opener, body, hopener, hfirst, hothers, htail⟩ := h.opener
    cases P with
    | nil => exact absurd rfl hP
    | cons c P =>
      obtain ⟨rfl, -⟩ : c = opener ∧ P ++ q = body := by simpa [htext] using hopener
      refine ⟨some c, P.map some, rfl, hfirst, fun item hitem => ?_, fun hmark d hd => ?_⟩
      · rw [Pattern.others_lift] at hitem
        obtain ⟨item, hmem, rfl⟩ := List.mem_map.1 hitem
        rw [Item.accepts_lift]
        exact hothers item hmem
      · obtain ⟨e, he, rfl⟩ := List.mem_map.1 hd
        apply h.tail (htail.symm.trans hmark) e
        rw [htext]
        exact List.mem_append_left q he
  inside {a v} hsplit := by
    obtain ⟨a, v, rfl, rfl, rfl⟩ := List.map_eq_append_iff.1 hsplit
    have hsame := h.group_unmark (v.map some)
    rw [unmark_map] at hsame
    apply Option.map_eq_none_iff.1 (hsame.symm.trans ?_)
    cases hgroup : p.group v with
    | none => rfl
    | some result =>
      obtain ⟨g, b⟩ := result
      obtain ⟨hv, hstops, -, hlocal⟩ := Pattern.group_spec hgroup
      have hmore : Stops p.pad (b ++ q) := by
        intro c hc
        cases b with
        | nil =>
          apply hpad c
          rw [htext]
          exact List.mem_append_right _ (List.mem_of_mem_head? hc)
        | cons d b => exact hstops c hc
      have hnone := h.inside (a := a) (v := v ++ q) []
        (by rw [htext, List.append_assoc]) (by simp [hq])
      rw [List.append_nil, hv, List.append_assoc, hlocal _ hmore] at hnone
      cases hnone

/-- What the characters of a pattern are to the marks and to each other. -/
structure Pattern.Clear (p : Pattern α) (hard : α → Bool) (tailMark : Bool) : Prop where
  others_first : ∀ item ∈ p.others, ∀ c, item.accepts c = true → p.first c = false
  first_soft : ∀ c, p.first c = true → hard c = false
  pad_hard : ∀ c, p.pad c = true → hard c = true
  tail_soft : ∀ c, p.tail c = true → hard c = false
  wide : tailMark = true → ∀ c, hard c = false → p.tail c = true

/-- A mark is never hard. -/
def hardToken (hard : α → Bool) (t : Option α) : Bool := t.any hard

theorem Pattern.Clear.lawful {hard : α → Bool} (h : p.Clear hard tailMark) :
    (p.lift tailMark).Lawful none (hardToken hard) where
  first_mark := rfl
  others_mark item hitem := by
    rw [Pattern.others_lift] at hitem
    obtain ⟨item, -, rfl⟩ := List.mem_map.1 hitem
    rw [Item.accepts_lift]
    rfl
  others_first item hitem t haccepts := by
    rw [Pattern.others_lift] at hitem
    obtain ⟨item, hmem, rfl⟩ := List.mem_map.1 hitem
    rw [Item.accepts_lift] at haccepts
    cases t with
    | none => rfl
    | some c => exact h.others_first item hmem c haccepts
  first_soft t hfirst := by
    cases t with
    | none => rfl
    | some c => exact h.first_soft c hfirst
  pad_hard t hpad := by
    cases t with
    | none => cases hpad
    | some c => exact h.pad_hard c hpad
  tail_soft t htail := by
    cases t with
    | none => rfl
    | some c => exact h.tail_soft c htail
  wide hmark t hsoft := by
    cases t with
    | none => exact hmark
    | some c => exact h.wide hmark c hsoft

/-- What a pattern finds in a closed text is the word of a mark, where the pattern takes one. -/
theorem Pattern.Clear.found_word {hard : α → Bool} (hclear : p.Clear hard tailMark)
    (h : p.Apart text tailMark) (hword : text.getLast? = some closer) {o : List (Option α)}
    (hclosed : (p.lift tailMark).Closed none (hardToken hard) o) {x y : List α} {r : Found α}
    (hsplit : unmark text o = x ++ y) (hfound : p.finder x.getLast? y = some r) :
    tailMark = true ∧ r.secret = text := by
  obtain ⟨K, L, r', rfl, hF, rfl⟩ := (h.mirrors hword).found_at Pattern.finds hsplit hfound
  obtain ⟨g, b, hgroup, rfl, t, ht, htail⟩ := Pattern.finder_eq_some.1 hF
  cases b with
  | nil => cases ht
  | cons t' b =>
    cases ht
    obtain ⟨rfl, hstart⟩ := hclosed K L rfl g t b hgroup htail
    refine ⟨htail, ?_⟩
    have hstops : Stops (p.lift tailMark).tail b := by
      intro c hc
      by_contra htaken
      have hsoft := hclear.lawful.tail_soft c (Bool.of_not_eq_false htaken)
      rw [hstart c hc] at hsoft
      cases hsoft
    show unmark text ((none :: b).takeWhile _) = text
    rw [List.takeWhile_cons_of_pos htail, hstops.takeWhile, unmark_none, unmark_nil,
      List.append_nil]

end Replacing
