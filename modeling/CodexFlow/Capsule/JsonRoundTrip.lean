import CodexFlow.Capsule.JsonText
import Mathlib

/-!
# The strict reader reads canonical text

`parseValue_text` inverts the writer on ordered values, whatever follows that no number runs into.
-/

namespace CodexFlow.Capsule

open Hook (CodePoint PyStr Json Dict codePoint lit isSurrogate)

/-! ### Numbers -/

theorem digitValue_digit {n : ℕ} (h : n < 10) : digitValue (digit n) = n := by
  simp only [digitValue, digit]
  omega

theorem isDigit_digit (n : ℕ) : isDigit (digit n) = true := by
  refine Bool.and_eq_true_iff.mpr ⟨decide_eq_true ?_, decide_eq_true ?_⟩ <;> show (_ : ℕ) ≤ _
  · simp only [digit]
    omega
  · simp only [digit]
    omega

theorem decimal_ne_nil (n : ℕ) : decimal n ≠ [] := by
  unfold decimal
  split_ifs with h
  · exact List.cons_ne_nil _ _
  · simpa using Nat.digits_ne_nil_iff_ne_zero.mpr h

theorem decimal_digits (n : ℕ) : (decimal n).all isDigit = true := by
  unfold decimal
  split_ifs
  · simp [isDigit_digit]
  · simp [isDigit_digit]

theorem natOfDigits_decimal (n : ℕ) : natOfDigits (decimal n) = n := by
  unfold natOfDigits decimal
  split_ifs with h
  · subst h
    rfl
  · rw [List.reverse_reverse, List.map_map]
    have digits : (Nat.digits 10 n).map (digitValue ∘ digit) = Nat.digits 10 n := by
      conv_rhs => rw [← List.map_id (Nat.digits 10 n)]
      exact List.map_congr_left fun d mem =>
        digitValue_digit (Nat.digits_lt_base (by decide) mem)
    rw [digits, Nat.ofDigits_digits]

theorem digit_eq_zero {d : ℕ} (small : d < 10) (h : digit d = digit 0) : d = 0 := by
  have value := congrArg digitValue h
  rwa [digitValue_digit small, digitValue_digit (by decide)] at value

/-- A number of more than one digit does not begin with a zero. -/
theorem isWhole_decimal (n : ℕ) : isWhole (decimal n) = true := by
  have head : (decimal n).length = 1 ∨ (decimal n).head? ≠ some (digit 0) := by
    unfold decimal
    split_ifs with h
    · exact .inl rfl
    · right
      have nonempty : Nat.digits 10 n ≠ [] := Nat.digits_ne_nil_iff_ne_zero.mpr h
      rw [List.head?_reverse, List.getLast?_map, List.getLast?_eq_some_getLast nonempty]
      intro eq
      refine Nat.getLast_digit_ne_zero 10 h (digit_eq_zero ?_ (Option.some.inj eq))
      exact Nat.digits_lt_base (by decide) (List.getLast_mem nonempty)
  simp [isWhole, decimal_ne_nil, decimal_digits, head]

theorem minus_not_digit : isDigit minus = false := by decide

theorem head_ne_minus {text : PyStr} (h : text.all isDigit = true) : text.head? ≠ some minus := by
  cases text with
  | nil => nofun
  | cons c rest =>
    intro eq
    cases Option.some.inj eq
    rw [List.all_cons, minus_not_digit, Bool.false_and] at h
    exact absurd h nofun

theorem intToken_intText {n : ℤ} (short : (decimal n.natAbs).length ≤ maxIntDigits) :
    intToken (intText n) = some n := by
  unfold intToken intText
  by_cases negative : n < 0
  · have value : -(n.natAbs : ℤ) = n := by omega
    simpa [negative, isWhole_decimal, short, natOfDigits_decimal] using value
  · have unsigned := head_ne_minus (decimal_digits n.natAbs)
    have value : (n.natAbs : ℤ) = n := by omega
    simpa [negative, unsigned, isWhole_decimal, short, natOfDigits_decimal] using value

theorem length_decimal_natOfDigits {digits : PyStr} (h : isWhole digits = true) :
    (decimal (natOfDigits digits)).length ≤ digits.length := by
  simp only [isWhole, Bool.and_eq_true, decide_eq_true_eq] at h
  obtain ⟨⟨nonempty, all⟩, -⟩ := h
  unfold decimal
  split_ifs
  · exact List.length_pos_of_ne_nil nonempty
  · rw [List.length_reverse, List.length_map, Nat.digits_length_le_iff (by decide)]
    have small : ∀ d ∈ digits.reverse.map digitValue, d < 10 := by
      intro d mem
      obtain ⟨c, inside, rfl⟩ := List.mem_map.mp mem
      have isDigit := List.all_eq_true.mp all c (List.mem_reverse.mp inside)
      simp only [Capsule.isDigit, Bool.and_eq_true, decide_eq_true_eq] at isDigit
      unfold digitValue
      omega
    have bound := Nat.ofDigits_lt_base_pow_length (by decide) small
    rwa [List.length_map, List.length_reverse] at bound

theorem length_of_intToken {token : PyStr} {n : ℤ} (h : intToken token = some n) :
    (decimal n.natAbs).length ≤ maxIntDigits := by
  unfold intToken at h
  dsimp only at h
  generalize (if decide (token.head? = some minus) = true then token.tail else token) = digits at h
  split_ifs at h with whole negative
  · obtain rfl := Option.some.inj h
    rw [Int.natAbs_neg, Int.natAbs_natCast]
    exact (length_decimal_natOfDigits whole.1).trans whole.2
  · obtain rfl := Option.some.inj h
    rw [Int.natAbs_natCast]
    exact (length_decimal_natOfDigits whole.1).trans whole.2

theorem isNumberChar_of_isDigit {c : CodePoint} (h : isDigit c = true) : isNumberChar c = true := by
  simp [isNumberChar, h]

theorem intText_numberChars (n : ℤ) : (intText n).all isNumberChar = true := by
  have digits : (decimal n.natAbs).all isNumberChar = true := by
    simp only [List.all_eq_true]
    intro c mem
    exact isNumberChar_of_isDigit (List.all_eq_true.mp (decimal_digits _) c mem)
  unfold intText
  split_ifs
  · rw [List.all_cons, digits]
    decide
  · exact digits

theorem intToken_of_isFloatToken {text : PyStr} (h : isFloatToken text = true) :
    intToken text = none := by
  unfold isFloatToken at h
  simp only [Bool.and_eq_true] at h
  obtain ⟨-, h⟩ := h
  unfold intToken
  have notWhole : isWhole (if text.head? = some minus then text.tail else text) = false := by
    by_contra whole
    rw [Bool.not_eq_false, isWhole, Bool.and_eq_true, Bool.and_eq_true] at whole
    have none_left := List.dropWhile_eq_nil_iff.mpr (List.all_eq_true.mp whole.1.2)
    rw [none_left] at h
    exact absurd h nofun
  simp [notWhole]

/-- What follows a value is not taken for a part of a number. -/
def Stops (rest : PyStr) : Prop := ∀ c ∈ rest.head?, isNumberChar c = false

theorem stops_cons {c : CodePoint} (h : isNumberChar c = false) (rest : PyStr) :
    Stops (c :: rest) := by
  intro d mem
  cases mem
  exact h

theorem takeWhile_token {token rest : PyStr} (h : token.all isNumberChar = true)
    (stops : Stops rest) : (token ++ rest).takeWhile isNumberChar = token := by
  rw [List.takeWhile_append_of_pos (List.all_eq_true.mp h)]
  cases rest with
  | nil => simp
  | cons c rest => simp [stops c rfl]

theorem dropWhile_token {token rest : PyStr} (h : token.all isNumberChar = true)
    (stops : Stops rest) : (token ++ rest).dropWhile isNumberChar = rest := by
  rw [List.dropWhile_append_of_pos (List.all_eq_true.mp h)]
  cases rest with
  | nil => simp
  | cons c rest => simp [stops c rfl]

/-! ### Strings -/

theorem hexValue_hexDigit : ∀ n < 16, hexValue (Hook.hexDigit n) = some n := by decide

theorem hexUnit_unicodeEscape {n : ℕ} (h : n < 0x10000) :
    hexUnit (Hook.hexDigit (n / 4096 % 16)) (Hook.hexDigit (n / 256 % 16))
      (Hook.hexDigit (n / 16 % 16)) (Hook.hexDigit (n % 16)) = some ⟨n, by omega⟩ := by
  have unit : 4096 * (n / 4096 % 16) + 256 * (n / 256 % 16) + 16 * (n / 16 % 16) + n % 16 = n := by
    omega
  simp only [hexUnit, hexValue_hexDigit _ (Nat.mod_lt _ (by decide : 0 < 16)), Option.bind_eq_bind,
    Option.bind_some, unit]
  exact dif_pos (by omega)

theorem scanString_quote (rest : PyStr) : scanString (quote :: rest) = some ([], rest) := by
  rw [scanString.eq_def]
  exact if_pos rfl

theorem scanString_simple {e c : CodePoint} (notHex : e ≠ codePoint 'u')
    (simple : simpleEscape e = some c) (tail : PyStr) :
    scanString (backslash :: e :: tail) =
      (scanString tail).map fun (s, rest) => (c :: s, rest) := by
  rw [scanString.eq_def]
  dsimp only
  rw [if_neg (by decide), if_pos rfl, if_neg notHex, simple]
  cases scanString tail <;> rfl

theorem scanString_hex {a b c d unit : CodePoint} (h : hexUnit a b c d = some unit)
    (tail : PyStr) :
    scanString (backslash :: codePoint 'u' :: a :: b :: c :: d :: tail) =
      (scanString tail).map fun (s, rest) => (unit :: s, rest) := by
  rw [scanString.eq_def]
  dsimp only
  rw [if_neg (by decide), if_pos rfl, if_pos rfl, h]
  cases scanString tail <;> rfl

theorem scanString_plain {c : CodePoint} (hquote : c ≠ quote) (hbackslash : c ≠ backslash)
    (hcontrol : ¬ c.val < 0x20) (tail : PyStr) :
    scanString (c :: tail) = (scanString tail).map fun (s, rest) => (c :: s, rest) := by
  rw [scanString.eq_def]
  dsimp only
  rw [if_neg hquote, if_neg hbackslash, if_neg hcontrol]

/-- A character that is written is read back. -/
theorem scanString_escapeChar (c : CodePoint) (tail : PyStr) :
    scanString (escapeChar c ++ tail) =
      (scanString tail).map fun (s, rest) => (c :: s, rest) := by
  have named : ∀ {e d : CodePoint}, e ≠ codePoint 'u' → simpleEscape e = some d → c.val = d.val →
      scanString (backslash :: e :: tail) =
        (scanString tail).map fun (s, rest) => (c :: s, rest) := by
    intro e d notHex simple same
    rw [Fin.ext same]
    exact scanString_simple notHex simple tail
  unfold escapeChar
  split_ifs with isQuote isBackslash newline return_ tab feed bell control
  · exact named (e := quote) (d := quote) (by decide) (by decide) (congrArg _ isQuote)
  · exact named (e := backslash) (d := backslash) (by decide) (by decide) (congrArg _ isBackslash)
  · exact named (e := codePoint 'n') (d := codePoint '\n') (by decide) (by decide) newline
  · exact named (e := codePoint 'r') (d := codePoint '\r') (by decide) (by decide) return_
  · exact named (e := codePoint 't') (d := codePoint '\t') (by decide) (by decide) tab
  · exact named (e := codePoint 'f') (d := codePoint '\x0c') (by decide) (by decide) feed
  · exact named (e := codePoint 'b') (d := codePoint '\x08') (by decide) (by decide) bell
  · exact scanString_hex (hexUnit_unicodeEscape (by omega)) tail
  · exact scanString_plain isQuote isBackslash control tail

theorem scanString_escaped (s rest : PyStr) :
    scanString (s.flatMap escapeChar ++ quote :: rest) = some (s, rest) := by
  induction s with
  | nil => exact scanString_quote rest
  | cons c s ih => rw [List.flatMap_cons, List.append_assoc, scanString_escapeChar, ih]; rfl

theorem joinSurrogates_eq_self {s : PyStr} (h : s.any isSurrogate = false) :
    joinSurrogates s = s := by
  induction s with
  | nil => rfl
  | cons c s ih =>
    rw [List.any_cons, Bool.or_eq_false_iff] at h
    rw [joinSurrogates, ih h.2]
    cases s with
    | nil => rfl
    | cons low rest =>
      refine dif_neg fun pair => ?_
      have surrogate : isSurrogate c = true := by
        simp only [isSurrogate, Bool.and_eq_true, decide_eq_true_eq]
        omega
      rw [h.1] at surrogate
      cases surrogate

theorem parseString_quoted {s : PyStr} (h : s.any isSurrogate = false) (rest : PyStr) :
    parseString (s.flatMap escapeChar ++ quote :: rest) = some (s, rest) := by
  rw [parseString, scanString_escaped]
  show some (joinSurrogates s, rest) = _
  rw [joinSurrogates_eq_self h]

/-! ### Values -/

variable {floats : Floats}

theorem strictPairs_of_sortedKeys {fields : Dict} (h : sortedKeys fields = true) :
    strictPairs fields = some fields := by
  have distinct : (fields.map (·.1)).Nodup ∧
      fields.Pairwise fun a b => Hook.keyLE a.1 b.1 = true := by
    induction fields with
    | nil => exact ⟨List.nodup_nil, .nil⟩
    | cons field fields ih =>
      rw [sortedKeys, Bool.and_eq_true, List.all_eq_true] at h
      obtain ⟨first, rest⟩ := h
      obtain ⟨nodup, sorted⟩ := ih rest
      have before : ∀ g ∈ fields, Hook.keyLE field.1 g.1 = true ∧ field.1 ≠ g.1 := by
        intro g mem
        simpa using first g mem
      refine ⟨List.nodup_cons.mpr ⟨fun mem => ?_, nodup⟩,
        List.pairwise_cons.mpr ⟨fun g mem => (before g mem).1, sorted⟩⟩
      obtain ⟨g, mem, same⟩ := List.mem_map.mp mem
      exact (before g mem).2 same.symm
  rw [strictPairs, if_pos distinct.1, List.mergeSort_of_pairwise distinct.2]

def startsNumber (c : CodePoint) : Bool := isDigit c || c = minus

theorem intText_head (n : ℤ) : ∃ c tail, intText n = c :: tail ∧ startsNumber c = true := by
  unfold intText
  split_ifs
  · exact ⟨minus, _, rfl, by decide⟩
  · rcases value : decimal n.natAbs with _ | ⟨c, tail⟩
    · exact absurd value (decimal_ne_nil _)
    · have digits := decimal_digits n.natAbs
      rw [value, List.all_cons, Bool.and_eq_true] at digits
      exact ⟨c, tail, rfl, by simp [startsNumber, digits.1]⟩

theorem floatToken_head {text : PyStr} (h : isFloatToken text = true) :
    ∃ c tail, text = c :: tail ∧ startsNumber c = true := by
  unfold isFloatToken at h
  simp only [Bool.and_eq_true] at h
  obtain ⟨whole, -⟩ := h
  cases text with
  | nil => exact absurd whole (by decide)
  | cons c tail =>
    refine ⟨c, tail, rfl, ?_⟩
    by_cases sign : c = minus
    · simp [startsNumber, sign]
    · by_contra other
      have notDigit : isDigit c = false := by
        simp only [startsNumber, Bool.or_eq_true, not_or, Bool.not_eq_true] at other
        exact other.1
      simp [sign, notDigit, isWhole] at whole

theorem parseValue_number {token rest : PyStr} {value : Json} (fuel : ℕ)
    (head : ∃ c tail, token = c :: tail ∧ startsNumber c = true)
    (chars : token.all isNumberChar = true) (read : numberToken floats token = some value)
    (stops : Stops rest) : parseValue floats (fuel + 1) (token ++ rest) = some (value, rest) := by
  obtain ⟨c, tail, rfl, start⟩ := head
  have differs : ∀ d : CodePoint, startsNumber d = false → c ≠ d := by
    rintro d h rfl
    rw [start] at h
    cases h
  have noWord : ∀ (d : CodePoint) (word : PyStr), startsNumber d = false →
      afterWord (d :: word) (c :: tail ++ rest) = none := by
    intro d word h
    refine if_neg fun isPrefix => ?_
    simp [List.isPrefixOf, (differs d h).symm] at isPrefix
  rw [parseValue.eq_def]
  show (if c = quote then _ else _) = _
  rw [if_neg (differs quote (by decide)), if_neg (differs openBrace (by decide)),
    if_neg (differs openBracket (by decide))]
  rw [show lit "null" = codePoint 'n' :: lit "ull" from rfl, noWord _ _ (by decide),
    show lit "true" = codePoint 't' :: lit "rue" from rfl, noWord _ _ (by decide),
    show lit "false" = codePoint 'f' :: lit "alse" from rfl, noWord _ _ (by decide)]
  dsimp only
  rw [takeWhile_token chars stops, dropWhile_token chars stops, read]
  rfl

/-! ### Values -/

/-- The value is one that the interpreter can hold and that canonical text can carry. -/
structure Readable (floats : Floats) (value : Json) : Prop where
  ordered : ordered floats value = true
  printable : printable value = true
  interoperable : interoperable value = true

theorem Readable.items {item : Json} {items : List Json}
    (h : Readable floats (.arr (item :: items))) :
    Readable floats item ∧ Readable floats (.arr items) := by
  obtain ⟨ordered, printable, interoperable⟩ := h
  simp only [Capsule.ordered, orderedItems, Capsule.printable, printableItems,
    Capsule.interoperable, interoperableItems, Bool.and_eq_true] at ordered printable interoperable
  exact ⟨⟨ordered.1, printable.1, interoperable.1⟩, ⟨ordered.2, printable.2, interoperable.2⟩⟩

theorem Readable.fields {key : PyStr} {value : Json} {fields : Dict}
    (h : Readable floats (.obj ((key, value) :: fields))) :
    key.any isSurrogate = false ∧ Readable floats value ∧ Readable floats (.obj fields) := by
  obtain ⟨ordered, printable, interoperable⟩ := h
  simp only [Capsule.ordered, orderedFields, sortedKeys, Capsule.printable, printableFields,
    Capsule.interoperable, interoperableFields, Bool.and_eq_true, Bool.not_eq_true'] at ordered printable interoperable
  obtain ⟨⟨-, sorted⟩, orderedValue, orderedRest⟩ := ordered
  obtain ⟨⟨keyText, interoperableValue⟩, interoperableRest⟩ := interoperable
  exact ⟨keyText, ⟨orderedValue, printable.1, interoperableValue⟩,
    ⟨by simp [Capsule.ordered, sorted, orderedRest], printable.2, interoperableRest⟩⟩

theorem text_head {value : Json} (h : Readable floats value) :
    ∃ c tail, text value = c :: tail ∧ isBlank c = false ∧ c ≠ closeBracket ∧
      c ≠ byteOrderMark := by
  have number : ∀ c, startsNumber c = true →
      isBlank c = false ∧ c ≠ closeBracket ∧ c ≠ byteOrderMark := by
    intro c start
    refine ⟨?_, ?_, ?_⟩
    · by_contra blank
      simp only [isBlank, Bool.not_eq_false, List.mem_cons, List.not_mem_nil, or_false,
        decide_eq_true_eq] at blank
      obtain code | code | code | code := blank <;>
        simp [startsNumber, isDigit, code, minus, codePoint, Fin.ext_iff] at start
    · rintro rfl
      exact absurd start (by decide)
    · rintro rfl
      exact absurd start (by decide)
  match value, h with
  | .null, _ => exact ⟨_, _, rfl, by decide, by decide, by decide⟩
  | .bool true, _ => exact ⟨_, _, rfl, by decide, by decide, by decide⟩
  | .bool false, _ => exact ⟨_, _, rfl, by decide, by decide, by decide⟩
  | .int n, _ =>
    obtain ⟨c, tail, eq, start⟩ := intText_head n
    exact ⟨c, tail, by rw [text, eq], number c start⟩
  | .float literal, h =>
    have isRepr : floats.isRepr literal = true := by simpa [ordered] using h.ordered
    obtain ⟨c, tail, eq, start⟩ := floatToken_head (floats.token literal isRepr).1
    exact ⟨c, tail, by rw [text, eq], number c start⟩
  | .str s, _ => exact ⟨quote, _, by rw [text, quoted]; rfl, by decide, by decide, by decide⟩
  | .arr items, _ => exact ⟨openBracket, _, by rw [text]; rfl, by decide, by decide, by decide⟩
  | .obj fields, _ => exact ⟨openBrace, _, by rw [text]; rfl, by decide, by decide, by decide⟩

theorem skipBlanks_cons {c : CodePoint} (h : isBlank c = false) (rest : PyStr) :
    skipBlanks (c :: rest) = c :: rest := by
  simp [skipBlanks, h]

theorem skipBlanks_text {value : Json} (h : Readable floats value) (rest : PyStr) :
    skipBlanks (text value ++ rest) = text value ++ rest := by
  obtain ⟨c, tail, eq, solid, -⟩ := text_head h
  rw [eq, List.cons_append, skipBlanks_cons solid]

theorem parseValue_string (fuel : ℕ) {s : PyStr} (h : s.any isSurrogate = false) (rest : PyStr) :
    parseValue floats (fuel + 1) (quoted s ++ rest) = some (.str s, rest) := by
  rw [parseValue.eq_def]
  show (if quote = quote then
    (parseString (s.flatMap escapeChar ++ [quote] ++ rest)).map _ else _) = _
  rw [if_pos rfl, List.append_assoc]
  exact congrArg (Option.map _) (parseString_quoted h rest)

theorem parseValue_word (fuel : ℕ) (rest : PyStr) :
    parseValue floats (fuel + 1) (lit "null" ++ rest) = some (.null, rest) ∧
    parseValue floats (fuel + 1) (lit "true" ++ rest) = some (.bool true, rest) ∧
    parseValue floats (fuel + 1) (lit "false" ++ rest) = some (.bool false, rest) := by
  refine ⟨?_, ?_, ?_⟩ <;> rw [parseValue.eq_def] <;> rfl

theorem moreItemsText_cons (item : Json) (items : List Json) :
    moreItemsText (item :: items) = comma :: itemsText (item :: items) := by
  rw [moreItemsText, itemsText]
  rfl

theorem moreFieldsText_cons (field : PyStr × Json) (fields : Dict) :
    moreFieldsText (field :: fields) = comma :: fieldsText (field :: fields) := by
  rw [moreFieldsText, fieldsText]
  simp

theorem text_length_pos {value : Json} (h : Readable floats value) : 0 < (text value).length := by
  obtain ⟨c, tail, eq, -⟩ := text_head h
  simp [eq]

/-- What the reader makes of canonical text, on values, on the items of an array and on the fields
of an object. -/
structure Reads (floats : Floats) (fuel : ℕ) : Prop where
  value : ∀ {value rest}, Readable floats value → (text value).length ≤ fuel → Stops rest →
    parseValue floats fuel (text value ++ rest) = some (value, rest)
  items : ∀ {item items rest}, Readable floats (.arr (item :: items)) →
    (itemsText (item :: items)).length + 1 ≤ fuel →
    parseItems floats fuel (itemsText (item :: items) ++ closeBracket :: rest) =
      some (item :: items, rest)
  fields : ∀ {field fields rest}, Readable floats (.obj (field :: fields)) →
    (fieldsText (field :: fields)).length + 1 ≤ fuel →
    parseFields floats fuel (fieldsText (field :: fields) ++ closeBrace :: rest) =
      some (field :: fields, rest)

theorem stops_closeBracket (rest : PyStr) : Stops (closeBracket :: rest) :=
  stops_cons (by decide) rest

theorem Reads.zero : Reads floats 0 where
  value h length := absurd length (Nat.not_le.mpr (text_length_pos h))
  items _ length := absurd length (by omega)
  fields _ length := absurd length (by omega)

theorem parseValue_array {fuel : ℕ} {input : PyStr} {items : List Json} {rest : PyStr}
    (head : ∃ c tail, input = c :: tail ∧ isBlank c = false ∧ c ≠ closeBracket)
    (read : parseItems floats fuel input = some (items, rest)) :
    parseValue floats (fuel + 1) (openBracket :: input) = some (.arr items, rest) := by
  obtain ⟨c, tail, rfl, solid, open_⟩ := head
  rw [parseValue.eq_def]
  dsimp only
  rw [if_neg (by decide), if_neg (by decide), if_pos rfl, skipBlanks_cons solid]
  dsimp only
  rw [if_neg open_, read]
  rfl

theorem parseValue_object {fuel : ℕ} {input : PyStr} {fields : Dict} {rest : PyStr}
    (sorted : sortedKeys fields = true)
    (read : parseFields floats fuel (quote :: input) = some (fields, rest)) :
    parseValue floats (fuel + 1) (openBrace :: quote :: input) = some (.obj fields, rest) := by
  rw [parseValue.eq_def]
  dsimp only
  rw [if_neg (by decide), if_pos rfl, skipBlanks_cons (by decide)]
  dsimp only
  rw [if_neg (by decide), read]
  dsimp only [Option.bind_eq_bind, Option.bind_some]
  rw [strictPairs_of_sortedKeys sorted]
  rfl

theorem Reads.value_succ {fuel : ℕ} (reads : Reads floats fuel) {value : Json} {rest : PyStr}
    (h : Readable floats value) (length : (text value).length ≤ fuel + 1) (stops : Stops rest) :
    parseValue floats (fuel + 1) (text value ++ rest) = some (value, rest) := by
  match value, h, length with
  | .null, _, _ => exact (parseValue_word fuel rest).1
  | .bool true, _, _ => exact (parseValue_word fuel rest).2.1
  | .bool false, _, _ => exact (parseValue_word fuel rest).2.2
  | .int n, h, _ =>
    have short : (decimal n.natAbs).length ≤ maxIntDigits := by simpa [printable] using h.printable
    rw [text]
    refine parseValue_number fuel (intText_head n) (intText_numberChars n) ?_ stops
    rw [numberToken, intToken_intText short]
  | .float literal, h, _ =>
    have isRepr : floats.isRepr literal = true := by simpa [ordered] using h.ordered
    obtain ⟨token, chars⟩ := floats.token literal isRepr
    rw [text]
    refine parseValue_number fuel (floatToken_head token) chars ?_ stops
    rw [numberToken, intToken_of_isFloatToken token]
    dsimp only
    rw [if_pos token, floats.round_trip literal isRepr, Option.map_some]
  | .str s, h, _ =>
    have clean : s.any isSurrogate = false := by simpa [interoperable] using h.interoperable
    rw [text]
    exact parseValue_string fuel clean rest
  | .arr [], _, _ =>
    rw [parseValue.eq_def]
    rfl
  | .arr (item :: items), h, length =>
    rw [text, List.length_append, List.length_cons, List.length_singleton] at length
    rw [text, List.cons_append, List.cons_append, List.append_assoc]
    refine parseValue_array ?_ (reads.items h (by omega))
    obtain ⟨c, tail, eq, solid, open_, -⟩ := text_head h.items.1
    exact ⟨c, _, by rw [itemsText, eq]; rfl, solid, open_⟩
  | .obj [], _, _ =>
    rw [parseValue.eq_def]
    rfl
  | .obj (field :: fields), h, length =>
    obtain ⟨key, value⟩ := field
    have sorted : sortedKeys ((key, value) :: fields) = true := by
      have ordered := h.ordered
      rw [Capsule.ordered, Bool.and_eq_true] at ordered
      exact ordered.1
    have read := @Reads.fields _ _ reads _ _ rest h (by
      rw [text, List.length_append, List.length_cons, List.length_singleton] at length
      omega)
    rw [text, List.cons_append, List.cons_append, List.append_assoc]
    rw [fieldsText, quoted] at read ⊢
    exact parseValue_object sorted read

theorem Reads.items_succ {fuel : ℕ} (reads : Reads floats fuel) {item : Json} {items : List Json}
    {rest : PyStr} (h : Readable floats (.arr (item :: items)))
    (length : (itemsText (item :: items)).length + 1 ≤ fuel + 1) :
    parseItems floats (fuel + 1) (itemsText (item :: items) ++ closeBracket :: rest) =
      some (item :: items, rest) := by
  obtain ⟨first, others⟩ := h.items
  rw [itemsText, List.length_append] at length
  rw [parseItems.eq_def, itemsText, List.append_assoc]
  dsimp only
  cases items with
  | nil =>
    rw [moreItemsText, List.nil_append,
      reads.value first (by omega) (stops_closeBracket rest)]
    dsimp only [Option.bind_eq_bind, Option.bind_some]
    rw [skipBlanks_cons (by decide)]
    rfl
  | cons next items =>
    rw [moreItemsText_cons] at length ⊢
    have pos := text_length_pos first
    rw [List.length_cons] at length
    rw [List.cons_append, reads.value first (by omega) (stops_cons (by decide) _)]
    dsimp only [Option.bind_eq_bind, Option.bind_some]
    have solid : skipBlanks (itemsText (next :: items) ++ closeBracket :: rest) =
        itemsText (next :: items) ++ closeBracket :: rest := by
      rw [itemsText, List.append_assoc]
      exact skipBlanks_text others.items.1 _
    rw [skipBlanks_cons (by decide)]
    dsimp only
    rw [if_neg (by decide), if_pos rfl, solid, reads.items others (by omega)]
    rfl

theorem Reads.fields_succ {fuel : ℕ} (reads : Reads floats fuel) {field : PyStr × Json}
    {fields : Dict} {rest : PyStr} (h : Readable floats (.obj (field :: fields)))
    (length : (fieldsText (field :: fields)).length + 1 ≤ fuel + 1) :
    parseFields floats (fuel + 1) (fieldsText (field :: fields) ++ closeBrace :: rest) =
      some (field :: fields, rest) := by
  obtain ⟨key, value⟩ := field
  obtain ⟨keyText, first, others⟩ := h.fields
  rw [fieldsText, List.length_append, List.length_append, List.length_cons] at length
  rw [parseFields.eq_def, fieldsText, quoted]
  simp only [List.cons_append, List.append_assoc, List.nil_append]
  rw [if_pos trivial, parseString_quoted keyText]
  dsimp only [Option.bind_eq_bind, Option.bind_some]
  rw [skipBlanks_cons (by decide)]
  dsimp only
  rw [if_pos rfl, skipBlanks_text first]
  cases fields with
  | nil =>
    rw [moreFieldsText, List.nil_append,
      reads.value first (by omega) (stops_cons (by decide) rest)]
    dsimp only [Option.bind_some]
    rw [skipBlanks_cons (by decide)]
    rfl
  | cons next fields =>
    rw [moreFieldsText_cons] at length ⊢
    rw [List.length_cons] at length
    rw [List.cons_append, reads.value first (by omega) (stops_cons (by decide) _)]
    dsimp only [Option.bind_some]
    have solid : skipBlanks (fieldsText (next :: fields) ++ closeBrace :: rest) =
        fieldsText (next :: fields) ++ closeBrace :: rest := by
      obtain ⟨key, value⟩ := next
      rw [fieldsText, quoted]
      exact skipBlanks_cons (by decide) _
    rw [skipBlanks_cons (by decide)]
    dsimp only
    rw [if_neg (by decide), if_pos rfl, solid, reads.fields others (by omega)]
    rfl

/-- The reader inverts the writer, given a step for each character. -/
theorem reads (floats : Floats) (fuel : ℕ) : Reads floats fuel := by
  induction fuel with
  | zero => exact Reads.zero
  | succ fuel ih => exact ⟨ih.value_succ, ih.items_succ, ih.fields_succ⟩

/-! ### Documents -/

/-- What may follow canonical text: nothing, or the end of its line. -/
def IsEnd (rest : PyStr) : Prop := rest = [] ∨ rest = [codePoint '\n']

theorem IsEnd.stops {rest : PyStr} (h : IsEnd rest) : Stops rest := by
  obtain rfl | rfl := h
  · exact fun _ => nofun
  · exact stops_cons (by decide) []

theorem IsEnd.blank {rest : PyStr} (h : IsEnd rest) : skipBlanks rest = [] := by
  obtain rfl | rfl := h <;> rfl

theorem IsEnd.clean {rest : PyStr} (h : IsEnd rest) : rest.any isSurrogate = false := by
  obtain rfl | rfl := h <;> decide

theorem loads_text {value : Json} (h : Readable floats value) {rest : PyStr} (ends : IsEnd rest) :
    loads floats (text value ++ rest) = some value := by
  have read := (reads floats ((text value ++ rest).length + 1)).value h
    (by rw [List.length_append]; omega) ends.stops
  rw [loads, skipBlanks_text h, read]
  exact if_pos ends.blank

/-! ### Surrogates -/

theorem any_escapeChar (c : CodePoint) : (escapeChar c).any isSurrogate = isSurrogate c := by
  have plain : ∀ d : CodePoint, d.val < 0x80 → isSurrogate d = false := by
    intro d small
    simp only [isSurrogate, Bool.and_eq_false_iff, decide_eq_false_iff_not]
    omega
  unfold escapeChar
  split_ifs with isQuote isBackslash newline return_ tab feed bell control
  · rw [isQuote]
    decide
  · rw [isBackslash]
    decide
  · rw [plain c (by omega)]
    decide
  · rw [plain c (by omega)]
    decide
  · rw [plain c (by omega)]
    decide
  · rw [plain c (by omega)]
    decide
  · rw [plain c (by omega)]
    decide
  · rw [plain c (by omega)]
    have escape : ∀ n < 0x20, (Hook.unicodeEscape n).any isSurrogate = false := by decide
    exact escape c.val control
  · simp

theorem any_quoted (s : PyStr) : (quoted s).any isSurrogate = s.any isSurrogate := by
  have plain : isSurrogate quote = false := by decide
  simp [quoted, plain, List.any_flatMap, any_escapeChar]

theorem any_numberChars {token : PyStr} (h : token.all isNumberChar = true) :
    token.any isSurrogate = false := by
  rw [List.any_eq_false]
  intro c mem surrogate
  have number := List.all_eq_true.mp h c mem
  simp only [isSurrogate, Bool.and_eq_true, decide_eq_true_eq] at surrogate
  simp only [isNumberChar, isDigit, Bool.or_eq_true, Bool.and_eq_true, decide_eq_true_eq,
    List.mem_cons, List.not_mem_nil, or_false] at number
  obtain digit | rfl | rfl | rfl | rfl | rfl := number
  · omega
  all_goals exact absurd surrogate (by decide)

mutual

/-- Canonical text has a lone surrogate exactly where a string of the value has. -/
theorem any_text : ∀ value, ordered floats value = true →
    (text value).any isSurrogate = !interoperable value
  | .null, _ => by decide
  | .bool true, _ => by decide
  | .bool false, _ => by decide
  | .int n, _ => any_numberChars (intText_numberChars n)
  | .float literal, h => any_numberChars (floats.token literal (by simpa [ordered] using h)).2
  | .str s, _ => by rw [text, any_quoted, interoperable, Bool.not_not]
  | .arr items, h => by
    have inner := any_itemsText items (by simpa [ordered] using h)
    have plain : isSurrogate openBracket = false ∧ isSurrogate closeBracket = false := by decide
    simp [text, interoperable, inner.1, plain]
  | .obj fields, h => by
    have inner := any_fieldsText fields (by
      rw [ordered, Bool.and_eq_true] at h
      exact h.2)
    have plain : isSurrogate openBrace = false ∧ isSurrogate closeBrace = false := by decide
    simp [text, interoperable, inner.1, plain]

theorem any_itemsText : ∀ items, orderedItems floats items = true →
    (itemsText items).any isSurrogate = !interoperableItems items ∧
      (moreItemsText items).any isSurrogate = !interoperableItems items
  | [], _ => by decide
  | item :: items, h => by
    rw [orderedItems, Bool.and_eq_true] at h
    have first := any_text item h.1
    have others := any_itemsText items h.2
    have plain : isSurrogate comma = false := by decide
    simp [itemsText, moreItemsText, interoperableItems, first, others.2, plain]

theorem any_fieldsText : ∀ fields, orderedFields floats fields = true →
    (fieldsText fields).any isSurrogate = !interoperableFields fields ∧
      (moreFieldsText fields).any isSurrogate = !interoperableFields fields
  | [], _ => by decide
  | (key, value) :: fields, h => by
    rw [orderedFields, Bool.and_eq_true] at h
    have first := any_text value h.1
    have others := any_fieldsText fields h.2
    have plain : isSurrogate comma = false ∧ isSurrogate colon = false := by decide
    simp [fieldsText, moreFieldsText, interoperableFields, any_quoted, first, others.2, plain,
      Bool.or_assoc]

end

theorem canonicalText_eq_some {value : Json} (h : ordered floats value = true) {line : PyStr} :
    canonicalText value = some line ↔
      Readable floats value ∧ text value ++ [codePoint '\n'] = line := by
  have plain : isSurrogate (codePoint '\n') = false := by decide
  have surrogates : ¬ (text value ++ [codePoint '\n']).any isSurrogate = true ↔
      interoperable value = true := by
    rw [List.any_append, any_text value h]
    simp [plain]
  rw [canonicalText]
  constructor
  · intro eq
    split_ifs at eq with ok
    exact ⟨⟨h, ok.1, surrogates.mp ok.2⟩, Option.some.inj eq⟩
  · rintro ⟨readable, rfl⟩
    exact if_pos ⟨readable.printable, surrogates.mpr readable.interoperable⟩

/-- The strict reader reads canonical text within its limit, and refuses what is longer. -/
theorem strictLoads_text {value : Json} (h : Readable floats value) {rest : PyStr}
    (ends : IsEnd rest) (maxBytes : ℕ) :
    strictLoads floats maxBytes (text value ++ rest) =
      if byteLength (text value ++ rest) ≤ maxBytes then some value else none := by
  have clean : ¬ (text value ++ rest).any isSurrogate = true := by
    rw [List.any_append, any_text value h.ordered, h.interoperable, ends.clean]
    decide
  have noMark : (text value ++ rest).head? ≠ some byteOrderMark := by
    obtain ⟨c, tail, eq, -, -, noMark⟩ := text_head h
    rw [eq]
    exact fun same => noMark (Option.some.inj same)
  unfold strictLoads
  by_cases short : byteLength (text value ++ rest) ≤ maxBytes
  · rw [if_pos ⟨short, clean, noMark⟩, if_pos short, loads_text h ends, Option.filter_some,
      if_pos h.interoperable]
  · rw [if_neg fun all => short all.1, if_neg short]

end CodexFlow.Capsule
