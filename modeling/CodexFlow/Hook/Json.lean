import Mathlib

/-!
# Python strings and JSON values

The hook reads JSON events, so its strings are lists of code points in which lone surrogates may
occur, and its objects are association lists. `dumps` is the compact, key-sorted, ASCII encoder
behind the create fingerprint.
-/

namespace CodexFlow.Hook

/-- One code point of a Python string, surrogates included. -/
abbrev CodePoint := Fin 0x110000

abbrev PyStr := List CodePoint

instance : LawfulBEq CodePoint := inferInstance

instance : LawfulBEq PyStr := inferInstance

def codePoint (c : Char) : CodePoint :=
  ⟨c.toNat, by
    have h := c.valid
    simp only [UInt32.isValidChar, Nat.isValidChar] at h
    change c.val.toNat < 0x110000
    omega⟩

/-- The Python string of a literal of the source. -/
def lit (s : String) : PyStr := s.toList.map codePoint

/-- A decoded JSON value. A float keeps its literal: the hook never computes with one. -/
inductive Json where
  | null
  | bool (b : Bool)
  | int (n : ℤ)
  | float (literal : PyStr)
  | str (s : PyStr)
  | arr (items : List Json)
  | obj (fields : List (PyStr × Json))

abbrev Dict := List (PyStr × Json)

/-! ### Dictionaries -/

namespace Dict

/-- `d.get(key, MISSING)`: `none` models `MISSING`. -/
def get? (d : Dict) (key : PyStr) : Option Json :=
  (d.find? fun field => field.1 = key).map (·.2)

/-- `d.get(key)`: an absent key reads as `None`. -/
def get (d : Dict) (key : PyStr) : Json := (get? d key).getD .null

def has (d : Dict) (key : PyStr) : Bool := (get? d key).isSome

/-- `d[key] = value`: an existing key keeps its place. -/
def set (d : Dict) (key : PyStr) (value : Json) : Dict :=
  if has d key then d.map fun field => if field.1 = key then (key, value) else field
  else d ++ [(key, value)]

/-- `del d[key]`. -/
def del (d : Dict) (key : PyStr) : Dict := d.filter fun field => field.1 ≠ key

/-- `set(d) - keys` is empty. -/
def keysWithin (d : Dict) (keys : List PyStr) : Bool := d.all fun field => field.1 ∈ keys

/-- `set(d) == keys`. -/
def keysAre (d : Dict) (keys : List PyStr) : Bool := keysWithin d keys && keys.all (has d)

end Dict

namespace Json

/-- `value == text` for a string literal of the source. -/
def isStr (value : Json) (text : PyStr) : Bool :=
  match value with
  | .str s => s = text
  | _ => false

/-- The text when `isinstance(value, str)`. -/
def asStr : Json → Option PyStr
  | .str s => some s
  | _ => none

/-- The fields when `isinstance(value, dict)`. -/
def asDict : Json → Option Dict
  | .obj fields => some fields
  | _ => none

/-- `value is True`. -/
def isTrue : Json → Bool
  | .bool b => b
  | _ => false

end Json

/-! ### Encodings -/

/-- The UTF-8 bytes of a code point; a surrogate takes three bytes, as `surrogatepass` writes it. -/
def utf8Bytes (c : CodePoint) : List UInt8 :=
  let n := c.val
  if n < 0x80 then [.ofNat n]
  else if n < 0x800 then [.ofNat (0xC0 + n / 64), .ofNat (0x80 + n % 64)]
  else if n < 0x10000 then
    [.ofNat (0xE0 + n / 4096), .ofNat (0x80 + n / 64 % 64), .ofNat (0x80 + n % 64)]
  else
    [.ofNat (0xF0 + n / 262144), .ofNat (0x80 + n / 4096 % 64), .ofNat (0x80 + n / 64 % 64),
      .ofNat (0x80 + n % 64)]

/-- `s.encode("utf-8", "surrogatepass")`. -/
def encodeSurrogatePass (s : PyStr) : List UInt8 := s.flatMap utf8Bytes

def isSurrogate (c : CodePoint) : Bool := 0xD800 ≤ c.val && c.val ≤ 0xDFFF

/-- `s.encode("utf-8", "replace")`: a surrogate is written as a question mark. -/
def encodeReplace (s : PyStr) : List UInt8 :=
  s.flatMap fun c => if isSurrogate c then [0x3F] else utf8Bytes c

def hexDigit (n : ℕ) : CodePoint :=
  codePoint (if n < 10 then Char.ofNat (48 + n) else Char.ofNat (87 + n))

/-- The escape `\uXXXX` of a 16-bit unit, in lower case. -/
def unicodeEscape (n : ℕ) : PyStr :=
  lit "\\u" ++ [hexDigit (n / 4096 % 16), hexDigit (n / 256 % 16), hexDigit (n / 16 % 16),
    hexDigit (n % 16)]

/-- One character inside a JSON string, with `ensure_ascii`. -/
def escapeChar (c : CodePoint) : PyStr :=
  let n := c.val
  if n = 0x22 then lit "\\\""
  else if n = 0x5C then lit "\\\\"
  else if n = 0x0A then lit "\\n"
  else if n = 0x0D then lit "\\r"
  else if n = 0x09 then lit "\\t"
  else if n = 0x0C then lit "\\f"
  else if n = 0x08 then lit "\\b"
  else if 0x20 ≤ n && n ≤ 0x7E then [c]
  else if n < 0x10000 then unicodeEscape n
  else unicodeEscape (0xD800 + (n - 0x10000) / 1024) ++
    unicodeEscape (0xDC00 + (n - 0x10000) % 1024)

def quoted (s : PyStr) : PyStr := lit "\"" ++ s.flatMap escapeChar ++ lit "\""

def commaSeparated (parts : List PyStr) : PyStr := (parts.intersperse (lit ",")).flatten

/-- Python compares strings by code points. -/
def keyLE : PyStr → PyStr → Bool
  | [], _ => true
  | _ :: _, [] => false
  | a :: as, b :: bs => a < b || (a = b && keyLE as bs)

mutual

/-- `json.dumps(value, sort_keys=True, separators=(",", ":"))`. -/
def dumps : Json → PyStr
  | .null => lit "null"
  | .bool true => lit "true"
  | .bool false => lit "false"
  | .int n => lit (toString n)
  | .float literal => literal
  | .str s => quoted s
  | .arr items => lit "[" ++ commaSeparated (dumpsItems items) ++ lit "]"
  | .obj fields =>
    lit "\x7b" ++ commaSeparated (((dumpsFields fields).mergeSort fun a b => keyLE a.1 b.1).map
      fun field => quoted field.1 ++ lit ":" ++ field.2) ++ lit "\x7d"

def dumpsItems : List Json → List PyStr
  | [] => []
  | item :: items => dumps item :: dumpsItems items

def dumpsFields : List (PyStr × Json) → List (PyStr × PyStr)
  | [] => []
  | (key, value) :: fields => (key, dumps value) :: dumpsFields fields

end

end CodexFlow.Hook
