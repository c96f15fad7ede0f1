import CodexFlow.Schema.Nodes

/-!
# Structured outputs

`validate_structured_output`: a decoded value against an accepted schema. The state is the number of
properties seen so far, which a branch of a union that does not match gives back.
-/

namespace CodexFlow.Schema

open Hook (PyStr Json Dict lit isSurrogate)
open Capsule (byteLength decimal printable text)
open Checked

variable (host : Host) (s : Dict)

/-! ### Checks of one value -/

/-- The types that a value is tried against; an entry that is no text is the type of no name. -/
def valueTypes : List PyStr :=
  match s.get (lit "type") with
  | .str type => [type]
  | .arr types => types.map fun type => type.asStr.getD []
  | _ => [(inferredType (s.get (lit "const"))).getD []]

/-- A number as the interpreter compares it, where a Boolean is zero or one. -/
def compared : Json → Checked ℚ
  | .bool b => pure (if b then 1 else 0)
  | value =>
    match number? host value with
    | some q => pure q
    | none => .error .typeError

/-- `low <= size <= high` of the keywords, with their defaults. -/
def within (low high : String) (maximum size : ℕ) (error : Raised) : Checked Unit := do
  let least ← compared host ((s.get? (lit low)).getD (.int 0))
  ensure (least ≤ size) error
  let most ← compared host ((s.get? (lit high)).getD (.int maximum))
  ensure (size ≤ most) error

/-- `bool(value)` -/
def truthy : Json → Bool
  | .null => false
  | .bool b => b
  | .int n => n ≠ 0
  | .float literal => host.value literal ≠ 0
  | .str text => text ≠ []
  | .arr items => !items.isEmpty
  | .obj fields => !fields.isEmpty

def checkString' (path : PyStr) (content : PyStr) : Checked Unit := do
  within host s "minLength" "maxLength" maxStructuredOutputBytes content.length
    (.field path "violates string bounds")
  match s.get (lit "pattern") with
  | .str pattern => ensure (host.search pattern content) (.field path "violates pattern")
  | _ => pure ()

/-- A bound of a keyword that is not `None`. -/
def bounded (key : String) (holds : ℚ → Bool) (error : Raised) : Checked Unit :=
  match s.get (lit key) with
  | .null => pure ()
  | limit => do ensure (holds (← compared host limit)) error

def checkNumber' (path : PyStr) (number : Json) (q : ℚ) : Checked Unit := do
  bounded host s "minimum" (· ≤ q) (.field path "violates minimum")
  bounded host s "maximum" (q ≤ ·) (.field path "violates maximum")
  bounded host s "exclusiveMinimum" (· < q) (.field path "violates exclusiveMinimum")
  bounded host s "exclusiveMaximum" (q < ·) (.field path "violates exclusiveMaximum")
  match s.get (lit "multipleOf") with
  | .null => pure ()
  | multiple =>
    match host.isMultiple number multiple with
    | none => .error .overflowError
    | some holds => ensure holds (.field path "violates multipleOf")

/-- `node[key]` -/
def subscript (key : String) : Checked Json :=
  match s.get? (lit key) with
  | some value => pure value
  | none => .error .keyError

/-- The keys of a mapping against a record. -/
def checkKeys (path : PyStr) (properties fields : Dict) : Checked Unit :=
  if isClosedConstantMap s properties then
    ensure (∀ field ∈ fields, Dict.has properties field.1)
      (.field path "contains an unsupported map key")
  else do
    let required : List PyStr :=
      match s.get (lit "required") with
      | .arr required => required.map fun name : Json => name.asStr.getD []
      | _ => properties.map (·.1)
    ensure ((∀ name ∈ required, Dict.has fields name) ∧
        ∀ field ∈ fields, Dict.has properties field.1)
      (.field path "does not match the closed record")

def checkChoices (path : PyStr) (item : Json) : Checked Unit := do
  ensure ((s.get? (lit "const")).all (instanceEqual host item)) (.field path "violates const")
  match s.get? (lit "enum") with
  | some (.arr choices) =>
    ensure (choices.any (instanceEqual host item)) (.field path "is not in enum")
  | some _ => .error .typeError
  | none => pure ()

/-! ### The values in a value -/

structure Handed where
  path : PyStr
  item : Json
  node : Json

def itemsHanded (path : PyStr) (items : List Json) : Checked (List Handed) := do
  within host s "minItems" "maxItems" maxOutputArrayItems items.length
    (.field path "violates array bounds")
  ensure (truthy host ((s.get? (lit "uniqueItems")).getD (.bool false)) →
      items.Pairwise fun left right => instanceEqual host left right = false)
    (.field path "violates uniqueItems")
  let child ← subscript s "items"
  pure (items.zipIdx.map fun (item, index) =>
    ⟨path ++ lit "[" ++ decimal index ++ lit "]", item, child⟩)

def fieldsHanded (path : PyStr) (fields : Dict) : Checked (List Handed) :=
  match s.get (lit "properties") with
  | .obj properties => do
    checkKeys s path properties fields
    fields.mapM fun (key, child) =>
      match Dict.get? properties key with
      | some node => pure ⟨path ++ lit "." ++ key, child, node⟩
      | none => .error Raised.keyError
  | _ => do
    let names ← subscript s "propertyNames"
    let values ← subscript s "additionalProperties"
    pure (fields.flatMap fun (key, child) =>
      [⟨path ++ lit " property name", .str key, names⟩, ⟨path ++ lit "." ++ key, child, values⟩])

def typedParts (path : PyStr) (type : PyStr) (item : Json) (seen : ℕ) :
    Checked (ℕ × List Handed) :=
  match item with
  | .null => pure (seen, [])
  | .str content => do
    if type = lit "string" then checkString' host s path content
    pure (seen, [])
  | .arr items =>
    if type = lit "array" then do pure (seen, ← itemsHanded host s path items)
    else pure (seen, [])
  | .obj fields =>
    if type = lit "object" then do
      within host s "minProperties" "maxProperties" maxOutputObjectProperties fields.length
        (.field path "violates object bounds")
      ensure (seen + fields.length ≤ maxOutputSchemaProperties)
        (.valueError "structured output exceeds the total property limit")
      pure (seen + fields.length, ← fieldsHanded s path fields)
    else pure (seen, [])
  | number => do
    if let some q := number? host number then
      if type = lit "number" ∨ type = lit "integer" then checkNumber' host s path number q
    pure (seen, [])

/-- The checks of a node that is no union, and the values that it hands on. -/
def valueParts (path : PyStr) (item : Json) (seen : ℕ) : Checked (ℕ × List Handed) :=
  match (valueTypes s).filter (matchesType host item) with
  | [] => .error (.field path "has the wrong JSON type")
  | type :: _ => do
    checkChoices host s path item
    typedParts host s path type item seen

/-! ### The validator -/

/-- The branches of a union that a value matches, and the properties that the last one saw. -/
def matchBranches (validate : Json → Checked ℕ) (matched : ℕ × ℕ) : List Json → Checked (ℕ × ℕ)
  | [] => pure matched
  | branch :: branches =>
    match validate branch with
    | .ok seen => matchBranches validate (matched.1 + 1, seen) branches
    | .error e =>
      if e.isValueError then matchBranches validate matched branches else .error e

/-- `validate`, with the depth that is left. -/
def validate : ℕ → PyStr → Json → Json → ℕ → Checked ℕ
  | depth, path, item, node, seen =>
    match depth, node with
    | 0, _ => .error (.valueError "structured output exceeds the depth limit")
    | depth + 1, .obj s =>
      match Dict.get s (lit "oneOf") with
      | .arr branches => do
        let (matched, seen') ←
          matchBranches (fun branch => validate depth path item branch seen) (0, seen) branches
        ensure (matched = 1) (.field path "must match exactly one oneOf branch")
        pure seen'
      | _ => do
        let (seen, parts) ← valueParts host s path item seen
        parts.foldlM (fun seen part => validate depth part.path part.item part.node seen) seen
    | _ + 1, _ => .error .attributeError

/-- `validate_structured_output` -/
def validateStructuredOutput (value : Json) (schema : Dict) : Checked Unit := do
  validateOutputSchema host schema
  ensure (printable value) (.valueError "structured output is not interoperable JSON")
  let size ← utf8Size (text value)
  ensure (size ≤ maxStructuredOutputBytes)
    (.valueError "structured output exceeds the byte limit")
  guarded "structured output does not match the accepted schema" do
    let _ ← validate host maxOutputSchemaDepth (lit "output") value (.obj schema) 0
    pure ()

end CodexFlow.Schema
