import CodexFlow.Schema.Accepted
import CodexFlow.Capsule.TextSize
import Mathlib

/-!
# Sizes of a value

What the validator counts while it walks through a value, and when one of its checks refuses it.
-/

namespace CodexFlow.Schema

open Hook (PyStr Json Dict lit)
open Capsule (byteLength text textBytes quotedBytes fieldBytes separated)
open Checked

/-! ### Refusals -/

section Refused

variable {α β : Type} {x : Checked α} {f : α → Checked β}

/-- The computation raises a `ValueError`. -/
def Refused (x : Checked α) : Prop := ∃ e, x = .error e ∧ e.isValueError = true

theorem not_refused_ok {a : α} : ¬Refused (.ok a : Checked α) := fun ⟨_, h, _⟩ => nomatch h

theorem not_refused_error {e : Raised} (h : e.isValueError = false) :
    ¬Refused (.error e : Checked α) := by
  rintro ⟨e', he, hvalue⟩
  cases he
  exact absurd hvalue (by rw [h]; decide)

theorem not_refused_bind (hx : ¬Refused x) (hf : ∀ a, x = .ok a → ¬Refused (f a)) :
    ¬Refused (x >>= f) := by
  cases x with
  | ok a => exact hf a rfl
  | error e =>
    rintro ⟨e', he, hvalue⟩
    cases he
    exact hx ⟨e, rfl, hvalue⟩

theorem not_refused_ensure {c : Prop} [Decidable c] {e : Raised} (h : c) :
    ¬Refused (ensure c e) := by
  rw [ensure_of h]
  exact not_refused_ok

end Refused

/-! ### Parts of a value -/

/-- A value that stands in another, or the name of a property of it. -/
inductive Part : Json → Json → Prop
  | item {items : List Json} {item : Json} (h : item ∈ items) : Part (.arr items) item
  | value {fields : Dict} {field : PyStr × Json} (h : field ∈ fields) : Part (.obj fields) field.2
  | name {fields : Dict} {field : PyStr × Json} (h : field ∈ fields) :
      Part (.obj fields) (.str field.1)

/-- The value and every part of it have the property. -/
def Everywhere (p : Json → Prop) (v : Json) : Prop := ∀ part, Relation.ReflTransGen Part v part → p part

section Everywhere

variable {p : Json → Prop} {v : Json}

theorem Everywhere.of_part {part : Json} (h : Everywhere p v) (hpart : Part v part) :
    Everywhere p part :=
  fun other hother => h other (.head hpart hother)

theorem everywhere_of_parts (h : p v) (hparts : ∀ part, Part v part → Everywhere p part) :
    Everywhere p v := by
  intro part hpart
  obtain rfl | ⟨next, hnext, hrest⟩ := Relation.ReflTransGen.cases_head hpart
  · exact h
  · exact hparts next hnext part hrest

end Everywhere

/-- Arrays and objects are within the limits of the validator. -/
structure Sized (v : Json) : Prop where
  items : ∀ items, v = .arr items → items.length ≤ maxOutputArrayItems
  fields : ∀ fields, v = .obj fields → fields.length ≤ maxOutputObjectProperties

theorem sized_str (content : PyStr) : Everywhere Sized (.str content) :=
  everywhere_of_parts ⟨nofun, nofun⟩ nofun

/-- A string is within the byte limit. -/
def SmallString (v : Json) : Prop :=
  ∀ content, v = .str content → content.length ≤ maxStructuredOutputBytes

/-! ### Bytes of the parts -/

theorem le_separated {size : ℕ} {sizes : List ℕ} (h : size ∈ sizes) : size ≤ separated sizes := by
  have hle := List.le_sum_of_mem h
  unfold separated
  omega

theorem textBytes_part {v part : Json} (h : Part v part) : textBytes part ≤ textBytes v := by
  cases h with
  | item hitem =>
    have hle := le_separated (List.mem_map_of_mem (f := textBytes) hitem)
    rw [Capsule.textBytes_arr]
    omega
  | value hfield =>
    have hle := le_separated (List.mem_map_of_mem (f := fieldBytes) hfield)
    rw [Capsule.textBytes_obj]
    unfold fieldBytes at hle ⊢
    omega
  | name hfield =>
    have hle := le_separated (List.mem_map_of_mem (f := fieldBytes) hfield)
    rw [Capsule.textBytes_obj, Capsule.textBytes_str]
    unfold fieldBytes at hle ⊢
    omega

theorem length_le_byteLength (content : PyStr) : content.length ≤ byteLength content := by
  induction content with
  | nil => exact Nat.zero_le _
  | cons c content ih =>
    have hone : 1 ≤ byteLength [c] := by
      unfold byteLength Hook.encodeSurrogatePass
      rw [List.flatMap_singleton]
      unfold Hook.utf8Bytes
      dsimp only
      split_ifs <;> exact Nat.le_add_left 1 _
    rw [Capsule.byteLength_cons, List.length_cons]
    omega

theorem length_le_quotedBytes (content : PyStr) : content.length ≤ quotedBytes content := by
  have hsum : ∀ l : PyStr,
      l.length ≤ (l.map fun c => byteLength (Capsule.escapeChar c)).sum := by
    intro l
    induction l with
    | nil => exact Nat.le_refl _
    | cons c l ih =>
      have hone : 1 ≤ byteLength (Capsule.escapeChar c) := by
        refine le_trans ?_ (length_le_byteLength _)
        unfold Capsule.escapeChar
        split_ifs <;> exact Nat.le_add_left 1 _
      rw [List.map_cons, List.sum_cons, List.length_cons]
      omega
  have hle := hsum content
  unfold quotedBytes
  omega

theorem smallStrings {v : Json} (h : byteLength (text v) ≤ maxStructuredOutputBytes) :
    Everywhere SmallString v := by
  intro part hpart content hcontent
  have hbytes : textBytes part ≤ textBytes v := by
    clear hcontent
    induction hpart with
    | refl => exact Nat.le_refl _
    | tail _ hstep ih => exact (textBytes_part hstep).trans ih
  rw [hcontent, Capsule.textBytes_str] at hbytes
  exact (length_le_quotedBytes content).trans (hbytes.trans h)

/-! ### Properties in a value -/

mutual

/-- How many properties the objects of a value have in all. -/
def members : Json → ℕ
  | .arr items => itemsMembers items
  | .obj fields => fields.length + fieldsMembers fields
  | _ => 0

def itemsMembers : List Json → ℕ
  | [] => 0
  | item :: items => members item + itemsMembers items

def fieldsMembers : List (PyStr × Json) → ℕ
  | [] => 0
  | (_, value) :: fields => members value + fieldsMembers fields

end

theorem members_arr (items : List Json) : members (.arr items) = (items.map members).sum := by
  rw [members]
  induction items with
  | nil => rfl
  | cons item items ih => rw [itemsMembers, ih, List.map_cons, List.sum_cons]

theorem members_obj (fields : Dict) :
    members (.obj fields) = fields.length + (fields.map fun field => members field.2).sum := by
  rw [members]
  congr 1
  induction fields with
  | nil => rfl
  | cons field fields ih =>
    obtain ⟨name, value⟩ := field
    rw [fieldsMembers, ih, List.map_cons, List.sum_cons]

/-! ### Branches -/

section Branches

variable {validate : Json → Checked ℕ} {start last : ℕ × ℕ} {branches : List Json}

/-- The branch accepts the value. -/
def Matches (validate : Json → Checked ℕ) (branch : Json) : Prop := ∃ seen, validate branch = .ok seen

theorem not_refused_matchBranches : ¬Refused (matchBranches validate start branches) := by
  induction branches generalizing start with
  | nil => exact not_refused_ok
  | cons branch branches ih =>
    unfold matchBranches
    split
    · exact ih
    · split_ifs with hvalue
      · exact ih
      · exact not_refused_error (Bool.eq_false_iff.2 hvalue)

theorem matchBranches_decided (h : matchBranches validate start branches = .ok last) :
    ∀ branch ∈ branches, Matches validate branch ∨ Refused (validate branch) := by
  induction branches generalizing start with
  | nil => exact nofun
  | cons branch branches ih =>
    unfold matchBranches at h
    split at h
    · rename_i seen hseen
      exact List.forall_mem_cons.2 ⟨.inl ⟨seen, hseen⟩, ih h⟩
    · rename_i e he
      split_ifs at h with hvalue
      exact List.forall_mem_cons.2 ⟨.inr ⟨e, he, hvalue⟩, ih h⟩

theorem not_matches_of_error {branch : Json} {e : Raised} (h : validate branch = .error e) :
    ¬Matches validate branch := by
  rintro ⟨seen, hseen⟩
  rw [h] at hseen
  cases hseen

theorem matchBranches_count (h : matchBranches validate start branches = .ok last) :
    start.1 ≤ last.1 ∧ (last.1 = start.1 ↔ ∀ branch ∈ branches, ¬Matches validate branch) ∧
      (last.1 = start.1 + 1 ↔ ExactlyOne (Matches validate) branches) := by
  induction branches generalizing start with
  | nil =>
    cases h
    exact ⟨Nat.le_refl _, ⟨fun _ => nofun, fun _ => rfl⟩, by simp [ExactlyOne]⟩
  | cons branch branches ih =>
    unfold matchBranches at h
    rw [List.forall_mem_cons, ExactlyOne]
    split at h
    · rename_i seen hseen
      have hmatch : Matches validate branch := ⟨seen, hseen⟩
      obtain ⟨hle, hnone, -⟩ := ih h
      have hle : start.1 + 1 ≤ last.1 := hle
      have hnone : last.1 = start.1 + 1 ↔ ∀ branch ∈ branches, ¬Matches validate branch := hnone
      refine ⟨by omega, ⟨fun heq => by omega, fun hall => absurd hmatch hall.1⟩, ?_⟩
      rw [hnone]
      exact ⟨fun hall => .inl ⟨hmatch, hall⟩, fun hone => by
        obtain ⟨-, hall⟩ | ⟨hno, -⟩ := hone
        · exact hall
        · exact absurd hmatch hno⟩
    · rename_i e he
      have hno := not_matches_of_error he
      split_ifs at h with hvalue
      obtain ⟨hle, hnone, hone⟩ := ih h
      refine ⟨hle, hnone.trans ⟨fun hall => ⟨hno, hall⟩, And.right⟩, hone.trans ?_⟩
      exact ⟨fun hall => .inr ⟨hno, hall⟩, fun hall => (hall.resolve_left fun h => hno h.1).2⟩

theorem matchBranches_seen (h : matchBranches validate start branches = .ok last) :
    last = start ∨ ∃ branch ∈ branches, validate branch = .ok last.2 := by
  induction branches generalizing start with
  | nil =>
    cases h
    exact .inl rfl
  | cons branch branches ih =>
    unfold matchBranches at h
    split at h
    · rename_i seen hseen
      obtain rfl | ⟨other, hother, hlast⟩ := ih h
      · exact .inr ⟨branch, List.mem_cons_self, hseen⟩
      · exact .inr ⟨other, List.mem_cons_of_mem _ hother, hlast⟩
    · split_ifs at h with hvalue
      obtain rfl | ⟨other, hother, hlast⟩ := ih h
      · exact .inl rfl
      · exact .inr ⟨other, List.mem_cons_of_mem _ hother, hlast⟩

end Branches

end CodexFlow.Schema
