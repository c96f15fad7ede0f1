import Mathlib

/-!
# The last matching item of a list

Reading and replacing the last item that satisfies a predicate, as code does that walks a list
backwards and mutates the first hit. A replacement relates the two lists item by item, so facts
about counts and members follow from the relation alone.
-/

namespace LastMatch

variable {α : Type*}

/-- The last item satisfying `p`. -/
def findLast (p : α → Bool) (items : List α) : Option α := items.reverse.find? p

/-- The last item satisfying `p` replaced by its image, every other item as it was. -/
def modifyLast (p : α → Bool) (f : α → α) : List α → List α
  | [] => []
  | a :: items =>
    if items.any p then a :: modifyLast p f items
    else if p a then f a :: items
    else a :: items

variable {p q : α → Bool} {f : α → α} {items items' : List α} {a : α}

/-! ### The last match -/

theorem findLast_cons :
    findLast p (a :: items) = (findLast p items).or (if p a then some a else none) := by
  unfold findLast
  rw [List.reverse_cons, List.find?_append]
  cases h : p a <;> simp [h]

theorem findLast_eq_none_iff : findLast p items = none ↔ ∀ b ∈ items, p b = false := by
  simp [findLast, List.find?_eq_none]

theorem findLast_eq_none_of_not_any (h : ¬items.any p = true) : findLast p items = none := by
  rw [findLast_eq_none_iff]
  simpa using h

theorem exists_findLast_of_any (h : items.any p = true) : ∃ c, findLast p items = some c := by
  rw [← Option.isSome_iff_exists, Option.isSome_iff_ne_none, ne_eq, findLast_eq_none_iff]
  simpa using h

theorem findLast_mem (h : findLast p items = some a) : a ∈ items :=
  List.mem_reverse.1 (List.mem_of_find?_eq_some h)

theorem findLast_holds (h : findLast p items = some a) : p a = true :=
  List.find?_some h

/-! ### Replacing it -/

theorem forall₂_modifyLast {R : α → α → Prop} (hrefl : ∀ b, R b b)
    (hf : ∀ b, findLast p items = some b → R b (f b)) :
    List.Forall₂ R items (modifyLast p f items) := by
  have same : ∀ l : List α, List.Forall₂ R l l := fun l => List.forall₂_same.2 fun b _ => hrefl b
  induction items with
  | nil => exact .nil
  | cons b items ih =>
    unfold modifyLast
    by_cases hany : items.any p = true
    · rw [if_pos hany]
      refine .cons (hrefl b) (ih fun d hd => hf d ?_)
      rw [findLast_cons, hd]
      rfl
    · rw [if_neg hany]
      have hnone := findLast_eq_none_of_not_any hany
      by_cases hb : p b = true
      · rw [if_pos hb]
        refine .cons (hf b ?_) (same items)
        rw [findLast_cons, hnone, if_pos hb]
        rfl
      · rw [if_neg hb]
        exact same (b :: items)

theorem modifyLast_cons : modifyLast p f (a :: items) =
    if items.any p then a :: modifyLast p f items
    else if p a then f a :: items else a :: items := rfl

theorem modifyLast_of_not_any (h : ¬items.any p = true) : modifyLast p f items = items := by
  cases items with
  | nil => rfl
  | cons b items =>
    rw [List.any_cons, Bool.or_eq_true, not_or] at h
    rw [modifyLast_cons, if_neg h.2, if_neg h.1]

/-- The last match stands alone: what is before it and after it stays. -/
theorem modifyLast_split (h : findLast p items = some a) :
    ∃ before after, items = before ++ a :: after ∧ (∀ b ∈ after, p b = false) ∧
      modifyLast p f items = before ++ f a :: after := by
  induction items with
  | nil => cases h
  | cons b items ih =>
    rw [modifyLast_cons]
    by_cases hany : items.any p = true
    · rw [if_pos hany]
      obtain ⟨c, hc⟩ := exists_findLast_of_any hany
      rw [findLast_cons, hc, Option.some_or] at h
      obtain ⟨before, after, rfl, hafter, hmodify⟩ := ih (hc.trans h)
      exact ⟨b :: before, after, rfl, hafter, by rw [hmodify]; rfl⟩
    · rw [if_neg hany]
      rw [findLast_cons, findLast_eq_none_of_not_any hany, Option.none_or] at h
      split_ifs at h with hb
      obtain rfl := Option.some.inj h
      refine ⟨[], items, rfl, fun c hc => ?_, by rw [if_pos hb]; rfl⟩
      exact Bool.eq_false_iff.2 fun hpc => hany (List.any_eq_true.2 ⟨c, hc, hpc⟩)

/-! ### Filtering -/

variable {g : α → Bool}

/-- A replacement outside a class of items does not show in the class. -/
theorem filter_modifyLast_of_disjoint (hp : ∀ b, p b = true → g b = false)
    (hf : ∀ b, p b = true → g (f b) = false) :
    (modifyLast p f items).filter g = items.filter g := by
  induction items with
  | nil => rfl
  | cons b items ih =>
    unfold modifyLast
    split_ifs with hany hb
    · rw [List.filter_cons, List.filter_cons, ih]
    · rw [List.filter_cons_of_neg (by simp [hf b hb]), List.filter_cons_of_neg (by simp [hp b hb])]
    · rfl

theorem any_filter_of_imp (hp : ∀ b, p b = true → g b = true) :
    (items.filter g).any p = items.any p := by
  rw [List.any_filter]
  refine List.any_congr rfl fun b => ?_
  cases hb : p b with
  | false => simp
  | true => simp [hp b hb]

theorem findLast_filter (hp : ∀ b, p b = true → g b = true) :
    findLast p (items.filter g) = findLast p items := by
  unfold findLast
  rw [← List.filter_reverse, List.find?_filter]
  congr 1
  funext b
  cases hb : p b with
  | false => simp
  | true => simp [hp b hb]

/-- A replacement of class members can be made in the class alone. -/
theorem filter_modifyLast (hp : ∀ b, p b = true → g b = true) :
    (modifyLast p f items).filter g = (modifyLast p f (items.filter g)).filter g := by
  induction items with
  | nil => rfl
  | cons b items ih =>
    by_cases hg : g b = true
    · rw [List.filter_cons_of_pos hg]
      unfold modifyLast
      rw [any_filter_of_imp hp]
      split_ifs
      · rw [List.filter_cons_of_pos hg, List.filter_cons_of_pos hg, ih]
      · rw [List.filter_cons, List.filter_cons, List.filter_filter]
        simp only [Bool.and_self]
      · rw [List.filter_cons_of_pos hg, List.filter_cons_of_pos hg, List.filter_filter]
        simp only [Bool.and_self]
    · rw [List.filter_cons_of_neg hg, ← ih, modifyLast_cons, if_neg fun h => hg (hp b h)]
      by_cases hany : items.any p = true
      · rw [if_pos hany, List.filter_cons_of_neg hg]
      · rw [if_neg hany, List.filter_cons_of_neg hg, modifyLast_of_not_any hany]

/-! ### Lists related item by item -/

theorem mem_of_forall₂ {β : Type*} {R : α → β → Prop} {others : List β}
    (h : List.Forall₂ R items others) (ha : a ∈ items) : ∃ b ∈ others, R a b := by
  induction h with
  | nil => cases ha
  | cons hab _ ih =>
    cases ha with
    | head => exact ⟨_, List.mem_cons_self, hab⟩
    | tail _ ha =>
      obtain ⟨b, hb, hR⟩ := ih ha
      exact ⟨b, List.mem_cons_of_mem _ hb, hR⟩

theorem countP_le_of_forall₂ {R : α → α → Prop} (h : List.Forall₂ R items items')
    (hq : ∀ b c, R b c → q c = true → q b = true) : items'.countP q ≤ items.countP q := by
  induction h with
  | nil => exact Nat.le_refl _
  | @cons b c _ _ hbc _ ih =>
    rw [List.countP_cons, List.countP_cons]
    have hhead : (if q c = true then 1 else 0) ≤ if q b = true then 1 else 0 := by
      by_cases hc : q c = true
      · have hb := hq b c hbc hc
        simp [hc, hb]
      · simp [hc]
    omega

end LastMatch
