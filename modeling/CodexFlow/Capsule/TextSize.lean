import CodexFlow.Capsule.JsonText
import Mathlib

/-!
# The size of JSON text

How many bytes the canonical text of a value takes, from the sizes of its parts.
-/

namespace CodexFlow.Capsule

open Hook (CodePoint PyStr Json Dict lit)

/-! ### Bytes of a text -/

@[simp] theorem byteLength_nil : byteLength [] = 0 := rfl

theorem byteLength_append (s t : PyStr) : byteLength (s ++ t) = byteLength s + byteLength t := by
  unfold byteLength Hook.encodeSurrogatePass
  rw [List.flatMap_append, List.length_append]

theorem byteLength_cons (c : CodePoint) (s : PyStr) :
    byteLength (c :: s) = byteLength [c] + byteLength s := byteLength_append [c] s

def quotedBytes (s : PyStr) : ℕ := 2 + (s.map fun c => byteLength (escapeChar c)).sum

theorem byteLength_flatMap (f : CodePoint → PyStr) (s : PyStr) :
    byteLength (s.flatMap f) = (s.map fun c => byteLength (f c)).sum := by
  induction s with
  | nil => rfl
  | cons c s ih => rw [List.flatMap_cons, byteLength_append, ih, List.map_cons, List.sum_cons]

@[simp] theorem byteLength_quoted (s : PyStr) : byteLength (quoted s) = quotedBytes s := by
  have hquote : byteLength [quote] = 1 := rfl
  unfold quoted quotedBytes
  rw [List.cons_append, byteLength_cons, byteLength_append, byteLength_flatMap, hquote]
  omega

/-! ### Bytes of a value -/

def textBytes (value : Json) : ℕ := byteLength (text value)

@[simp] theorem textBytes_null : textBytes .null = 4 := rfl

@[simp] theorem textBytes_bool (b : Bool) : textBytes (.bool b) = if b then 4 else 5 := by
  cases b <;> rfl

@[simp] theorem textBytes_str (s : PyStr) : textBytes (.str s) = quotedBytes s := by
  unfold textBytes
  rw [text]
  exact byteLength_quoted s

@[simp] theorem textBytes_nat (n : ℕ) : textBytes (.int n) = byteLength (decimal n) := by
  have hnonneg : ¬ ((n : ℤ) < 0) := by omega
  unfold textBytes
  rw [text, intText, if_neg hnonneg, Int.natAbs_natCast]

/-- Parts with a comma between them. -/
def separated (sizes : List ℕ) : ℕ := sizes.sum + (sizes.length - 1)

theorem byteLength_moreItemsText (items : List Json) :
    byteLength (moreItemsText items) = (items.map textBytes).sum + items.length := by
  induction items with
  | nil => rfl
  | cons item items ih =>
    have hcomma : byteLength [comma] = 1 := rfl
    rw [moreItemsText, List.cons_append, byteLength_cons, byteLength_append, ih, hcomma,
      List.map_cons, List.sum_cons, List.length_cons]
    unfold textBytes
    omega

@[simp] theorem textBytes_arr (items : List Json) :
    textBytes (.arr items) = 2 + separated (items.map textBytes) := by
  have hopen : byteLength [openBracket] = 1 := rfl
  have hclose : byteLength [closeBracket] = 1 := rfl
  unfold textBytes separated
  rw [text, List.cons_append, byteLength_cons, byteLength_append, hopen, hclose]
  cases items with
  | nil => rfl
  | cons item items =>
    rw [itemsText, byteLength_append, byteLength_moreItemsText, List.map_cons, List.sum_cons,
      List.length_cons, List.length_map]
    unfold textBytes
    omega

def fieldBytes (field : PyStr × Json) : ℕ := quotedBytes field.1 + 1 + textBytes field.2

theorem byteLength_fieldText (key : PyStr) (value : Json) (rest : PyStr) :
    byteLength (quoted key ++ colon :: text value ++ rest) =
      fieldBytes (key, value) + byteLength rest := by
  have hcolon : byteLength [colon] = 1 := rfl
  rw [byteLength_append, byteLength_append, byteLength_cons, byteLength_quoted, hcolon]
  show quotedBytes key + (1 + textBytes value) + _ = quotedBytes key + 1 + textBytes value + _
  omega

theorem byteLength_moreFieldsText (fields : Dict) :
    byteLength (moreFieldsText fields) = (fields.map fieldBytes).sum + fields.length := by
  induction fields with
  | nil => rfl
  | cons field fields ih =>
    obtain ⟨key, value⟩ := field
    have hcomma : byteLength [comma] = 1 := rfl
    rw [moreFieldsText, List.cons_append, List.cons_append, byteLength_cons, byteLength_fieldText,
      ih, hcomma, List.map_cons, List.sum_cons, List.length_cons]
    omega

@[simp] theorem textBytes_obj (fields : Dict) :
    textBytes (.obj fields) = 2 + separated (fields.map fieldBytes) := by
  have hopen : byteLength [openBrace] = 1 := rfl
  have hclose : byteLength [closeBrace] = 1 := rfl
  unfold separated
  rw [textBytes, text, List.cons_append, byteLength_cons, byteLength_append, hopen, hclose]
  cases fields with
  | nil => rfl
  | cons field fields =>
    obtain ⟨key, value⟩ := field
    rw [fieldsText, byteLength_fieldText, byteLength_moreFieldsText, List.map_cons, List.sum_cons,
      List.length_cons, List.length_map]
    omega

end CodexFlow.Capsule
