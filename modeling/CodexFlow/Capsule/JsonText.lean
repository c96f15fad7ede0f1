import CodexFlow.Hook.Json
import Mathlib

/-!
# JSON text

The canonical text of a JSON value and the strict reader. A Python dictionary is kept as its fields
in the order of their keys: that is the order of the canonical text, and equality of dictionaries
does not see another. The depth of the interpreter's stack is not modelled.
-/

namespace CodexFlow.Capsule

open Hook (CodePoint PyStr Json Dict codePoint lit isSurrogate)

/-! ### Characters -/

def quote : CodePoint := codePoint '"'
def backslash : CodePoint := codePoint '\\'
def comma : CodePoint := codePoint ','
def colon : CodePoint := codePoint ':'
def openBracket : CodePoint := codePoint '['
def closeBracket : CodePoint := codePoint ']'
def openBrace : CodePoint := codePoint '\x7b'
def closeBrace : CodePoint := codePoint '\x7d'
def minus : CodePoint := codePoint '-'

/-- White space between the tokens of JSON. -/
def isBlank (c : CodePoint) : Bool := c.val ∈ [0x20, 0x09, 0x0A, 0x0D]

def isDigit (c : CodePoint) : Bool := 0x30 ≤ c.val && c.val ≤ 0x39

def isNumberChar (c : CodePoint) : Bool :=
  isDigit c || c ∈ [minus, codePoint '+', codePoint '.', codePoint 'e', codePoint 'E']

/-! ### Numbers -/

def digit (n : ℕ) : CodePoint := ⟨0x30 + n % 10, by omega⟩

def digitValue (c : CodePoint) : ℕ := c.val - 0x30

/-- The decimal digits of a natural number, the most significant first. -/
def decimal (n : ℕ) : PyStr :=
  if n = 0 then [digit 0] else ((Nat.digits 10 n).map digit).reverse

/-- `int.__repr__` -/
def intText (n : ℤ) : PyStr :=
  if n < 0 then minus :: decimal n.natAbs else decimal n.natAbs

/-- The interpreter's limit on the digits of an integer that is converted to or from text. -/
def maxIntDigits : ℕ := 4300

def natOfDigits (digits : PyStr) : ℕ := Nat.ofDigits 10 (digits.reverse.map digitValue)

/-- A whole number of JSON without its sign. -/
def isWhole (text : PyStr) : Bool :=
  text ≠ [] && text.all isDigit && (text.length = 1 || text.head? ≠ some (digit 0))

/-- The integer that a number token stands for. -/
def intToken (text : PyStr) : Option ℤ :=
  let negative : Bool := text.head? = some minus
  let whole := if negative then text.tail else text
  if isWhole whole ∧ whole.length ≤ maxIntDigits then
    some (if negative then -(natOfDigits whole : ℤ) else natOfDigits whole)
  else none

/-- An exponent of JSON, after its letter. -/
def isExponent : PyStr → Bool
  | [] => false
  | c :: rest =>
    if c = minus ∨ c = codePoint '+' then rest ≠ [] && rest.all isDigit
    else isDigit c && rest.all isDigit

/-- A number of JSON with a fraction or an exponent. -/
def isFloatToken (text : PyStr) : Bool :=
  let unsigned := if text.head? = some minus then text.tail else text
  let whole := unsigned.takeWhile isDigit
  isWhole whole && match unsigned.dropWhile isDigit with
    | [] => false
    | c :: rest =>
      if c = codePoint '.' then
        let fraction := rest.takeWhile isDigit
        fraction ≠ [] && match rest.dropWhile isDigit with
          | [] => true
          | e :: exponent => (e = codePoint 'e' || e = codePoint 'E') && isExponent exponent
      else (c = codePoint 'e' || c = codePoint 'E') && isExponent rest

/-- The interpreter's floats, each kept as its `repr`. -/
structure Floats where
  isRepr : PyStr → Bool
  /-- `repr(float(text))` of a number token: `none` where that is not finite. -/
  read : PyStr → Option PyStr
  /-- `repr(float(n))` -/
  ofInt : ℤ → Option PyStr
  isPositive : PyStr → Bool
  /-- The `repr` of a finite float is a number with a fraction or an exponent. -/
  token : ∀ text, isRepr text = true → isFloatToken text = true ∧ text.all isNumberChar = true
  /-- and reads back as itself. -/
  round_trip : ∀ text, isRepr text = true → read text = some text
  read_isRepr : ∀ text value, read text = some value → isRepr value = true

variable (floats : Floats)

def numberToken (text : PyStr) : Option Json :=
  match intToken text with
  | some n => some (.int n)
  | none => if isFloatToken text then (floats.read text).map Json.float else none

/-! ### Strings -/

def hexValue (c : CodePoint) : Option ℕ :=
  let n := c.val
  if 0x30 ≤ n ∧ n ≤ 0x39 then some (n - 0x30)
  else if 0x41 ≤ n ∧ n ≤ 0x46 then some (n - 0x37)
  else if 0x61 ≤ n ∧ n ≤ 0x66 then some (n - 0x57)
  else none

/-- `encode_basestring`, of one character. -/
def escapeChar (c : CodePoint) : PyStr :=
  if c = quote then [backslash, quote]
  else if c = backslash then [backslash, backslash]
  else if c.val = 0x0A then lit "\\n"
  else if c.val = 0x0D then lit "\\r"
  else if c.val = 0x09 then lit "\\t"
  else if c.val = 0x0C then lit "\\f"
  else if c.val = 0x08 then lit "\\b"
  else if c.val < 0x20 then Hook.unicodeEscape c.val
  else [c]

def quoted (s : PyStr) : PyStr := quote :: s.flatMap escapeChar ++ [quote]

def simpleEscape (c : CodePoint) : Option CodePoint :=
  if c = quote ∨ c = backslash ∨ c = codePoint '/' then some c
  else if c = codePoint 'n' then some (codePoint '\n')
  else if c = codePoint 'r' then some (codePoint '\r')
  else if c = codePoint 't' then some (codePoint '\t')
  else if c = codePoint 'f' then some (codePoint '\x0c')
  else if c = codePoint 'b' then some (codePoint '\x08')
  else none

/-- The unit of a `\uXXXX` escape. -/
def hexUnit (a b c d : CodePoint) : Option CodePoint := do
  let a ← hexValue a
  let b ← hexValue b
  let c ← hexValue c
  let d ← hexValue d
  let unit := 4096 * a + 256 * b + 16 * c + d
  if h : unit < 0x110000 then some ⟨unit, h⟩ else none

/-- A string after its opening quote, up to the closing one. -/
def scanString : PyStr → Option (PyStr × PyStr)
  | [] => none
  | c :: rest =>
    if c = quote then some ([], rest)
    else if c = backslash then
      match rest with
      | [] => none
      | e :: rest =>
        if e = codePoint 'u' then
          match rest with
          | a :: b :: c :: d :: rest =>
            match hexUnit a b c d, scanString rest with
            | some unit, some (s, rest) => some (unit :: s, rest)
            | _, _ => none
          | _ => none
        else
          match simpleEscape e, scanString rest with
          | some char, some (s, rest) => some (char :: s, rest)
          | _, _ => none
    else if c.val < 0x20 then none
    else (scanString rest).map fun (s, rest) => (c :: s, rest)

/-- A high and a low surrogate that stand together are one character. -/
def joinSurrogates : PyStr → PyStr
  | [] => []
  | c :: rest =>
    match joinSurrogates rest with
    | [] => [c]
    | low :: rest =>
      if h : (0xD800 ≤ c.val ∧ c.val ≤ 0xDBFF) ∧ 0xDC00 ≤ low.val ∧ low.val ≤ 0xDFFF then
        ⟨0x10000 + 1024 * (c.val - 0xD800) + (low.val - 0xDC00), by omega⟩ :: rest
      else c :: low :: rest

def parseString (input : PyStr) : Option (PyStr × PyStr) :=
  (scanString input).map fun (s, rest) => (joinSurrogates s, rest)

/-! ### Values -/

mutual

/-- `json.dumps(value, ensure_ascii=False, sort_keys=True, separators=(",", ":"))`, but for its
errors. -/
def text : Json → PyStr
  | .null => lit "null"
  | .bool true => lit "true"
  | .bool false => lit "false"
  | .int n => intText n
  | .float literal => literal
  | .str s => quoted s
  | .arr items => openBracket :: itemsText items ++ [closeBracket]
  | .obj fields => openBrace :: fieldsText fields ++ [closeBrace]

def itemsText : List Json → PyStr
  | [] => []
  | item :: items => text item ++ moreItemsText items

def moreItemsText : List Json → PyStr
  | [] => []
  | item :: items => comma :: text item ++ moreItemsText items

def fieldsText : List (PyStr × Json) → PyStr
  | [] => []
  | (key, value) :: fields => quoted key ++ colon :: text value ++ moreFieldsText fields

def moreFieldsText : List (PyStr × Json) → PyStr
  | [] => []
  | (key, value) :: fields =>
    comma :: quoted key ++ colon :: text value ++ moreFieldsText fields

end

mutual

/-- Every integer is within the limit of the conversion to text. -/
def printable : Json → Bool
  | .int n => (decimal n.natAbs).length ≤ maxIntDigits
  | .arr items => printableItems items
  | .obj fields => printableFields fields
  | _ => true

def printableItems : List Json → Bool
  | [] => true
  | item :: items => printable item && printableItems items

def printableFields : List (PyStr × Json) → Bool
  | [] => true
  | (_, value) :: fields => printable value && printableFields fields

end

/-- The keys are in order, once each. -/
def sortedKeys : Dict → Bool
  | [] => true
  | field :: fields =>
    (fields.all fun next => Hook.keyLE field.1 next.1 && field.1 ≠ next.1) && sortedKeys fields

mutual

/-- Every dictionary has its keys in order, and every float is a `repr`. -/
def ordered : Json → Bool
  | .float literal => floats.isRepr literal
  | .arr items => orderedItems items
  | .obj fields => sortedKeys fields && orderedFields fields
  | _ => true

def orderedItems : List Json → Bool
  | [] => true
  | item :: items => ordered item && orderedItems items

def orderedFields : List (PyStr × Json) → Bool
  | [] => true
  | (_, value) :: fields => ordered value && orderedFields fields

end

/-- `_canonical_json(value)`, as text: an integer beyond the limit or a lone surrogate raises. -/
def canonicalText (value : Json) : Option PyStr :=
  let line := text value ++ [codePoint '\n']
  if printable value ∧ ¬ line.any isSurrogate then some line else none

/-- The UTF-8 bytes of a text without surrogates. -/
def byteLength (text : PyStr) : ℕ := (Hook.encodeSurrogatePass text).length

/-! ### The strict reader -/

def skipBlanks (input : PyStr) : PyStr := input.dropWhile isBlank

/-- `_strict_json_pairs`, of the pairs in the order of the text. -/
def strictPairs (pairs : List (PyStr × Json)) : Option Dict :=
  if (pairs.map (·.1)).Nodup then some (pairs.mergeSort fun a b => Hook.keyLE a.1 b.1) else none

/-- The input without a leading keyword. -/
def afterWord (word input : PyStr) : Option PyStr :=
  if word.isPrefixOf input then some (input.drop word.length) else none

mutual

/-- One value at the front of the input. The fuel bounds the steps, one for each value. -/
def parseValue : ℕ → PyStr → Option (Json × PyStr)
  | 0, _ => none
  | fuel + 1, input =>
    match input with
    | [] => none
    | c :: rest =>
      if c = quote then (parseString rest).map fun (s, rest) => (.str s, rest)
      else if c = openBrace then
        match skipBlanks rest with
        | [] => none
        | d :: tail =>
          if d = closeBrace then some (.obj [], tail)
          else do
            let (pairs, rest) ← parseFields fuel (d :: tail)
            let fields ← strictPairs pairs
            some (.obj fields, rest)
      else if c = openBracket then
        match skipBlanks rest with
        | [] => none
        | d :: tail =>
          if d = closeBracket then some (.arr [], tail)
          else do
            let (items, rest) ← parseItems fuel (d :: tail)
            some (.arr items, rest)
      else if let some rest := afterWord (lit "null") input then some (.null, rest)
      else if let some rest := afterWord (lit "true") input then some (.bool true, rest)
      else if let some rest := afterWord (lit "false") input then some (.bool false, rest)
      else do
        let value ← numberToken floats (input.takeWhile isNumberChar)
        some (value, input.dropWhile isNumberChar)

/-- The items of an array up to its closing bracket. -/
def parseItems : ℕ → PyStr → Option (List Json × PyStr)
  | 0, _ => none
  | fuel + 1, input => do
    let (item, rest) ← parseValue fuel input
    match skipBlanks rest with
    | [] => none
    | c :: rest =>
      if c = closeBracket then some ([item], rest)
      else if c = comma then do
        let (items, rest) ← parseItems fuel (skipBlanks rest)
        some (item :: items, rest)
      else none

/-- The fields of an object up to its closing brace. -/
def parseFields : ℕ → PyStr → Option (List (PyStr × Json) × PyStr)
  | 0, _ => none
  | fuel + 1, input =>
    match input with
    | [] => none
    | c :: rest =>
      if c = quote then do
        let (key, rest) ← parseString rest
        match skipBlanks rest with
        | [] => none
        | d :: rest =>
          if d = colon then do
            let (value, rest) ← parseValue fuel (skipBlanks rest)
            match skipBlanks rest with
            | [] => none
            | e :: rest =>
              if e = closeBrace then some ([(key, value)], rest)
              else if e = comma then do
                let (fields, rest) ← parseFields fuel (skipBlanks rest)
                some ((key, value) :: fields, rest)
              else none
          else none
      else none

end

/-- `json.loads` with the hooks of the strict reader. -/
def loads (input : PyStr) : Option Json := do
  let (value, rest) ← parseValue floats (input.length + 1) (skipBlanks input)
  if skipBlanks rest = [] then some value else none

mutual

/-- `_validate_interoperable_json`, of the strings. -/
def interoperable : Json → Bool
  | .str s => !s.any isSurrogate
  | .arr items => interoperableItems items
  | .obj fields => interoperableFields fields
  | _ => true

def interoperableItems : List Json → Bool
  | [] => true
  | item :: items => interoperable item && interoperableItems items

def interoperableFields : List (PyStr × Json) → Bool
  | [] => true
  | (key, value) :: fields =>
    !key.any isSurrogate && interoperable value && interoperableFields fields

end

def maxJsonBytes : ℕ := 16 * 1048576

def byteOrderMark : CodePoint := codePoint '\ufeff'

/-- `strict_json_loads(raw, max_bytes=maxBytes)`, of bytes given as their text: `none` raises. -/
def strictLoads (maxBytes : ℕ) (input : PyStr) : Option Json :=
  if byteLength input ≤ maxBytes ∧ ¬ input.any isSurrogate ∧
      input.head? ≠ some byteOrderMark then
    (loads floats input).filter interoperable
  else none

end CodexFlow.Capsule
