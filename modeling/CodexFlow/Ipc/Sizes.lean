import CodexFlow.Capsule.TextSize
import CodexFlow.Ipc.Frames
import Mathlib

/-!
# Sizes of frames

Which values have a canonical encoding, and how many bytes it takes, from the fields of a
dictionary in the order that it was built in.
-/

namespace CodexFlow.Ipc

open Hook (CodePoint PyStr Json Dict isSurrogate encodeSurrogatePass)
open Capsule (Floats JsonValue DictValue text printable printableItems printableFields interoperable
  interoperableItems interoperableFields textBytes fieldBytes quotedBytes separated)

variable {floats : Floats}

/-- Every integer is within the limit of the conversion, and no string has a lone surrogate. -/
def encodable (value : Json) : Bool := printable value && interoperable value

theorem canonicalBytes_iff {value : Json} (h : Capsule.ordered floats value = true)
    {raw : List UInt8} :
    canonicalBytes value = some raw ↔
      encodable value = true ∧ encodeSurrogatePass (text value) = raw := by
  unfold canonicalBytes encodeUtf8 encodable
  rw [Capsule.any_text value h]
  cases printable value <;> cases interoperable value <;> simp

theorem length_of_canonicalBytes {value : Json} (h : Capsule.ordered floats value = true)
    {raw : List UInt8} (hraw : canonicalBytes value = some raw) : raw.length = textBytes value := by
  rw [← ((canonicalBytes_iff h).1 hraw).2]
  rfl

@[simp] theorem encodable_str (s : PyStr) : encodable (.str s) = !s.any isSurrogate := by
  simp [encodable, printable, interoperable]

theorem encodable_arr (items : List Json) :
    encodable (.arr items) = true ↔ ∀ item ∈ items, encodable item = true := by
  unfold encodable
  rw [printable, interoperable]
  induction items with
  | nil => exact ⟨fun _ _ hmem => absurd hmem List.not_mem_nil, fun _ => rfl⟩
  | cons item items ih =>
    rw [List.forall_mem_cons, ← ih, printableItems, interoperableItems]
    simp only [Bool.and_eq_true]
    tauto

theorem encodable_obj (fields : Dict) :
    encodable (.obj fields) = true ↔
      ∀ field ∈ fields, field.1.any isSurrogate = false ∧ encodable field.2 = true := by
  unfold encodable
  rw [printable, interoperable]
  induction fields with
  | nil => exact ⟨fun _ _ hmem => absurd hmem List.not_mem_nil, fun _ => rfl⟩
  | cons field fields ih =>
    rw [List.forall_mem_cons, ← ih, printableFields, interoperableFields]
    simp only [Bool.and_eq_true, Bool.not_eq_true']
    tauto

variable {fields : List (PyStr × JsonValue floats)} {nodup : (fields.map (·.1)).Nodup}

theorem encodable_ofFields :
    encodable (.obj (DictValue.ofFields fields nodup).val) = true ↔
      ∀ field ∈ fields, field.1.any isSurrogate = false ∧ encodable field.2.val = true := by
  rw [encodable_obj]
  constructor
  · intro h field hmem
    exact h _ (DictValue.mem_ofFields.2 ⟨field, hmem, rfl⟩)
  · intro h field hmem
    obtain ⟨pair, hpair, rfl⟩ := DictValue.mem_ofFields.1 hmem
    exact h pair hpair

/-- The order of the keys does not matter to the size. -/
theorem textBytes_ofFields :
    textBytes (.obj (DictValue.ofFields fields nodup).val) =
      2 + separated (fields.map fun field => fieldBytes (field.1, field.2.val)) := by
  have hperm : ((DictValue.ofFields fields nodup).val.map fieldBytes).Perm
      (fields.map fun field => fieldBytes (field.1, field.2.val)) := by
    have h := (List.mergeSort_perm (fields.map fun field => (field.1, field.2.val))
      Capsule.fieldLE).map fieldBytes
    rwa [List.map_map] at h
  rw [Capsule.textBytes_obj]
  unfold separated
  rw [hperm.sum_eq, hperm.length_eq]

theorem separated_le {sizes : List ℕ} {most : ℕ} (h : ∀ size ∈ sizes, size ≤ most) :
    separated sizes ≤ sizes.length * (most + 1) := by
  have hsum : sizes.sum ≤ sizes.length * most := List.sum_le_card_nsmul sizes most h
  unfold separated
  rw [Nat.mul_succ]
  omega

/-! ### Escapes -/

theorem unicodeEscape_bytes : ∀ n < 0x20, Capsule.byteLength (Hook.unicodeEscape n) = 6 := by
  decide

theorem byteLength_escapeChar_le (c : CodePoint) :
    Capsule.byteLength (Capsule.escapeChar c) ≤ 6 * Capsule.byteLength [c] := by
  have hpos : 0 < Capsule.byteLength [c] := by
    unfold Capsule.byteLength encodeSurrogatePass
    rw [List.flatMap_singleton]
    exact List.length_pos_iff.2 (utf8Bytes_ne_nil c)
  have hsimple : ∀ s : PyStr, Capsule.byteLength s = 2 →
      Capsule.byteLength s ≤ 6 * Capsule.byteLength [c] := by
    intro s hs
    omega
  unfold Capsule.escapeChar
  split_ifs with hquote hbackslash hnewline hreturn htab hfeed hback hcontrol
  · exact hsimple _ rfl
  · exact hsimple _ rfl
  · exact hsimple _ rfl
  · exact hsimple _ rfl
  · exact hsimple _ rfl
  · exact hsimple _ rfl
  · exact hsimple _ rfl
  · rw [unicodeEscape_bytes _ hcontrol]
    omega
  · omega

/-- A string in the text is at most six times as long. -/
theorem quotedBytes_le (s : PyStr) : quotedBytes s ≤ 2 + 6 * Capsule.byteLength s := by
  induction s with
  | nil => decide
  | cons c s ih =>
    have hchar := byteLength_escapeChar_le c
    unfold quotedBytes at ih ⊢
    rw [List.map_cons, List.sum_cons, Capsule.byteLength_cons]
    omega

theorem quotedBytes_append (s t : PyStr) :
    quotedBytes (s ++ t) + 2 = quotedBytes s + quotedBytes t := by
  unfold quotedBytes
  rw [List.map_append, List.sum_append]
  omega

theorem quotedBytes_replicate (n : ℕ) (c : CodePoint) :
    quotedBytes (List.replicate n c) = 2 + n * Capsule.byteLength (Capsule.escapeChar c) := by
  unfold quotedBytes
  rw [List.map_replicate, List.sum_replicate_nat]

theorem quotedBytes_le_of_infix {s t : PyStr} (h : s <:+: t) : quotedBytes s ≤ quotedBytes t := by
  obtain ⟨before, after, rfl⟩ := h
  have hfirst := quotedBytes_append (before ++ s) after
  have hsecond := quotedBytes_append before s
  have hpos : ∀ u : PyStr, 2 ≤ quotedBytes u := fun u => Nat.le_add_right 2 _
  have hbefore := hpos before
  have hafter := hpos after
  omega

theorem infix_moreFieldsText {fields : Dict} {field : PyStr × Json} (h : field ∈ fields) :
    text field.2 <:+: Capsule.moreFieldsText fields := by
  induction fields with
  | nil => cases h
  | cons other fields ih =>
    obtain ⟨key, value⟩ := other
    rw [Capsule.moreFieldsText]
    rcases List.mem_cons.1 h with rfl | hmem
    · exact ⟨Capsule.comma :: Capsule.quoted key ++ [Capsule.colon], Capsule.moreFieldsText fields,
        by simp⟩
    · exact (ih hmem).trans (List.suffix_append _ _).isInfix

theorem infix_text {fields : Dict} {field : PyStr × Json} (h : field ∈ fields) :
    text field.2 <:+: text (.obj fields) := by
  have hfields : text field.2 <:+: Capsule.fieldsText fields := by
    cases fields with
    | nil => cases h
    | cons other fields =>
      obtain ⟨key, value⟩ := other
      rw [Capsule.fieldsText]
      rcases List.mem_cons.1 h with rfl | hmem
      · exact ⟨Capsule.quoted key ++ [Capsule.colon], Capsule.moreFieldsText fields, by simp⟩
      · exact (infix_moreFieldsText hmem).trans (List.suffix_append _ _).isInfix
  rw [text]
  exact hfields.trans ⟨[Capsule.openBrace], [Capsule.closeBrace], rfl⟩

end CodexFlow.Ipc
