import CodexFlow.Schema.Draft

/-!
# Output schemas

`validate_output_schema`: the closed recursive schema contract that every boundary accepts. A node is
checked by itself, and what is left of it are the schemas in it, each behind the check that the
source makes right before it.
-/

namespace CodexFlow.Schema

open Hook (PyStr Json Dict lit isSurrogate)
open Capsule (byteLength)
open Git (nul)
open Checked

/-- What the validators raise; the first four are a `ValueError`. -/
inductive Raised where
  | valueError (text : String)
  | unsupportedKeys (keys : List PyStr)
  | inapplicable (type : PyStr)
  | field (path : PyStr) (problem : String)
  | keyError
  | typeError
  | overflowError
  | attributeError
deriving DecidableEq

abbrev Checked (α : Type) := Except Raised α

/-- `except ValueError` -/
def Raised.isValueError : Raised → Bool
  | .valueError _ | .unsupportedKeys _ | .inapplicable _ | .field .. => true
  | _ => false

/-! ### Limits -/

def maxOutputSchemaDepth : ℕ := 32

def maxOutputSchemaProperties : ℕ := 1024

def maxOutputObjectProperties : ℕ := 128

def maxOutputPropertyNameBytes : ℕ := 256

def maxOutputArrayItems : ℕ := 1024

def maxStructuredOutputBytes : ℕ := 1048576

/-- `len(text.encode("utf-8"))` -/
def utf8Size (text : PyStr) : Checked ℕ := do
  ensure (¬text.any isSurrogate) (.valueError "surrogates not allowed")
  pure (byteLength text)

variable (host : Host) (s : Dict)

/-! ### Parts of a node -/

/-- `set(node) <= keys` -/
def keysIn (keys : List PyStr) : Bool := s.all fun field => field.1 ∈ keys

def structuralKeys : List PyStr :=
  (s.map (·.1)).filter fun key => key ∉ metadataKeys ++ [lit "type", lit "const", lit "enum"]

def validateMetadata : Checked Unit := do
  metadataNames.forM fun key =>
    match s.get? (lit key) with
    | none => pure ()
    | some (.str text) => do
      ensure (text ≠ [] ∧ nul ∉ text)
        (.valueError s!"output schema {key} must be a bounded non-empty string")
      ensure ((← utf8Size text) ≤ 16384)
        (.valueError s!"output schema {key} must be a bounded non-empty string")
    | some _ => .error (.valueError s!"output schema {key} must be a bounded non-empty string")
  ensure ((s.get? (lit "$schema")).all
      (·.isStr (lit "https://json-schema.org/draft/2020-12/schema")))
    (.valueError "output schema $schema must identify Draft 2020-12")
  ensure (s.has (lit "description") →
      s.has (lit "$schema") ∧ s.has (lit "$id") ∧ s.has (lit "title"))
    (.valueError "output schema description is permitted only with canonical schema metadata")

def boundedInteger (value : Json) (label : String) (maximum : ℕ) : Checked ℤ :=
  match value with
  | .int n => do
    ensure (0 ≤ n ∧ n ≤ maximum)
      (.valueError s!"{label} must be a bounded non-negative integer")
    pure n
  | _ => .error (.valueError s!"{label} must be a bounded non-negative integer")

/-- The bounds that two keywords give, at most `maximum`. -/
def bounds (low high : String) (maximum : ℕ) : Checked (ℤ × ℤ) := do
  let least ← boundedInteger ((s.get? (lit low)).getD (.int 0)) low maximum
  let most ← boundedInteger ((s.get? (lit high)).getD (.int maximum)) high maximum
  pure (least, most)

def inferredType : Json → Option PyStr
  | .null => some (lit "null")
  | .bool _ => some (lit "boolean")
  | .int _ => some (lit "integer")
  | .float _ => some (lit "number")
  | .str _ => some (lit "string")
  | _ => none

/-- The types of a node without a proper `type`. -/
def constantTypes : List PyStr :=
  match s.get? (lit "const") with
  | some constant => (inferredType constant).toList
  | none => []

def schemaTypes : List PyStr :=
  match s.get (lit "type") with
  | .str type => [type]
  | .arr types =>
    if types.all fun type => type.asStr.isSome then types.filterMap (·.asStr) else constantTypes s
  | _ => constantTypes s

/-- `_SCHEMA_TYPES` -/
def knownTypes : List PyStr :=
  [lit "object", lit "array", lit "string", lit "boolean", lit "number", lit "integer", lit "null"]

def checkTypes (root : Bool) (types : List PyStr) : Checked Unit := do
  ensure (types ≠ [] ∧ types.Nodup ∧ ∀ type ∈ types, type ∈ knownTypes)
    (.valueError "output schema type must be one of the supported JSON types")
  ensure (root → types = [lit "object"])
    (.valueError "execution output schema must require an object")
  ensure (1 < types.length → lit "object" ∉ types ∧ lit "array" ∉ types)
    (.valueError "object and array schema types cannot be unions")

def checkConstant (types : List PyStr) : Checked Unit :=
  ensure ((s.get? (lit "const")).all fun constant => types.any (matchesType host constant))
    (.valueError "output schema const is incompatible with its declared type")

def checkEnum (types : List PyStr) : Checked Unit :=
  match s.get? (lit "enum") with
  | none => pure ()
  | some (.arr choices) => do
    ensure (choices ≠ []) (.valueError "output schema enum must be a non-empty array")
    ensure ((choices.Pairwise fun left right => instanceEqual host left right = false) ∧
        ∀ choice ∈ choices, types.any (matchesType host choice) = true)
      (.valueError "output schema enum must contain unique values compatible with its declared type")
  | some _ => .error (.valueError "output schema enum must be a non-empty array")

def checkString : Checked Unit := do
  let (least, most) ← bounds s "minLength" "maxLength" maxStructuredOutputBytes
  ensure (least ≤ most) (.valueError "output schema string bounds are inverted")
  match s.get? (lit "pattern") with
  | none => pure ()
  | some (.str pattern) => do
    ensure ((← utf8Size pattern) ≤ maxOutputPropertyNameBytes)
      (.valueError "output schema pattern must be a bounded string")
    match host.compiles pattern with
    | none => .error .overflowError
    | some compiles => ensure compiles (.valueError "output schema pattern is invalid")
  | some _ => .error (.valueError "output schema pattern must be a bounded string")

/-! ### The schemas in a node -/

/-- A schema in a node, with the check before it. -/
structure Child where
  check : Checked Unit := pure ()
  node : Json
  root : Bool := false

def unionChildren (root : Bool) (branches : Json) : Checked (List Child) := do
  ensure (keysIn s (metadataKeys ++ [lit "oneOf", lit "type", lit "properties", lit "required"]))
    (.valueError "output schema oneOf must be a single bounded branch authority")
  match branches with
  | .arr branches => do
    ensure (2 ≤ branches.length ∧ branches.length ≤ (if root then 4 else 16) ∧
        branches.all isObj)
      (.valueError "output schema oneOf must be a single bounded branch authority")
    pure (branches.map fun branch => { node := branch, root := root })
  | _ => .error (.valueError "output schema oneOf must be a single bounded branch authority")

/-- `_is_closed_constant_map` -/
def isClosedConstantMap (properties : Dict) : Bool :=
  !s.has (lit "required") && s.has (lit "minProperties") && s.has (lit "maxProperties") &&
    !properties.isEmpty && properties.all fun field =>
      match field.2 with
      | .obj child => Dict.has child (lit "const")
      | _ => false

/-- `version_property.get("const") in versions` -/
def versionIn (versions : List ℚ) (version : Dict) : Bool :=
  (number? host (version.get (lit "const"))).any (· ∈ versions)

/-- What a record may leave optional. -/
def optionalAllowed (properties : Dict) (optional : List PyStr) : Checked Bool := do
  let version := (properties.get (lit "schema_version")).asDict
  if optional = [lit "plugin_requirements"] ∧ version.any (fun version =>
      match version.get (lit "const") with
      | .arr _ | .obj _ => true
      | _ => false) then .error .typeError
  else
    let plugin := optional = [lit "plugin_requirements"] ∧ version.any (versionIn host [3, 4]) ∧
      Dict.has properties (lit "local_image_paths")
    let schema4 := (∀ name ∈ optional, name ∈ [lit "plugin_requirements", lit "local_image_paths"]) ∧
      version.any (versionIn host [4]) ∧ Dict.has properties (lit "local_image_paths") ∧
      Dict.has properties (lit "outcome_kind")
    pure (plugin ∨ schema4 ∨ optional = [lit "blocker"])

def checkRequired (properties : Dict) : Checked Unit :=
  match s.get (lit "required") with
  | .arr required => do
    ensure (required.all fun name => name.asStr.isSome)
      (.valueError "named object schema required must contain property names")
    let required := required.filterMap (·.asStr)
    ensure (∀ name ∈ required, Dict.has properties name)
      (.valueError "record schemas required names must be declared properties")
    let optional := (properties.map (·.1)).filter (· ∉ required)
    let allowed ← optionalAllowed host properties optional
    ensure (optional = [] ∨ allowed)
      (.valueError "record schemas must require every declared property")
    ensure required.Nodup (.valueError "record schema required names must be unique")
  | _ => .error (.valueError "named object schema required must contain property names")

def checkRecord (properties : Dict) (least most : ℤ) : Checked Unit :=
  if isClosedConstantMap s properties then
    ensure (least ≤ properties.length ∧ most ≤ properties.length)
      (.valueError "constant-map schema bounds exceed its supported keys")
  else do
    checkRequired host s properties
    ensure (least ≤ properties.length ∧ properties.length ≤ most)
      (.valueError "record schema properties violate declared bounds")

def checkPropertyName (name : PyStr) : Checked Unit := do
  ensure (name ≠ [])
    (.valueError "object schema property names must be bounded non-empty strings")
  ensure ((← utf8Size name) ≤ maxOutputPropertyNameBytes ∧ nul ∉ name)
    (.valueError "object schema property names must be bounded non-empty strings")

/-- The parts of an object schema: a closed record, or a bounded map. -/
def objectParts (seen : ℕ) : Checked (ℕ × List Child) := do
  let (least, most) ← bounds s "minProperties" "maxProperties" maxOutputObjectProperties
  ensure (least ≤ most) (.valueError "output schema object bounds are inverted")
  match s.get (lit "properties"), s.get (lit "required"), s.get (lit "propertyNames"),
      s.get (lit "additionalProperties") with
  | .obj properties, _, names, additional => do
    ensure ((additional matches .bool false) ∧ (names matches .null))
      (.valueError "named object schemas must be closed")
    checkRecord host s properties least most
    ensure (∀ key ∈ structuralKeys s, key ∈ [lit "properties", lit "required",
        lit "additionalProperties", lit "minProperties", lit "maxProperties"])
      (.valueError "object schema contains inapplicable constraints")
    ensure (seen + properties.length ≤ maxOutputSchemaProperties)
      (.valueError "output schema exceeds the total property limit")
    pure (seen + properties.length,
      properties.map fun field => { check := checkPropertyName field.1, node := field.2 })
  | .null, .null, .obj names, .obj values => do
    ensure (s.has (lit "minProperties") ∧ s.has (lit "maxProperties"))
      (.valueError "semantic map schemas require explicit property-count bounds")
    pure (seen, [{ node := .obj names },
      { check := ensure ((Dict.get names (lit "type")).isStr (lit "string"))
          (.valueError "semantic map propertyNames must declare a string schema")
        node := .obj values }])
  | _, _, _, _ => .error (.valueError "object schema must be a closed record or bounded semantic map")

def arrayParts (seen : ℕ) : Checked (ℕ × List Child) :=
  match s.get? (lit "items") with
  | none => .error (.valueError "array schemas require an explicit item schema")
  | some items => do
    let (least, most) ← bounds s "minItems" "maxItems" maxOutputArrayItems
    ensure (least ≤ most ∧ (s.get? (lit "uniqueItems")).all (· matches .bool _))
      (.valueError "output schema array bounds or uniqueness are invalid")
    ensure (∀ key ∈ structuralKeys s,
        key ∈ [lit "items", lit "minItems", lit "maxItems", lit "uniqueItems"])
      (.valueError "array schema contains inapplicable constraints")
    pure (seen, [{ node := items }])

/-- `float(value)` of a number. -/
def toFloat (value : Json) : Checked ℚ :=
  match value with
  | .int n =>
    match host.floats.ofInt n with
    | some literal => pure (host.value literal)
    | none => .error .overflowError
  | .float literal => pure (host.value literal)
  | _ => .error .typeError

def numericNames : List String :=
  ["multipleOf", "minimum", "maximum", "exclusiveMinimum", "exclusiveMaximum"]

def floatAt (key : String) : Checked (Option ℚ) :=
  match s.get? (lit key) with
  | none => pure none
  | some value => some <$> toFloat host value

def checkNumber (type : PyStr) : Checked Unit := do
  numericNames.forM fun key =>
    ensure ((s.get? (lit key)).all fun value => (number? host value).isSome)
      (.valueError s!"output schema {key} must be a finite JSON number")
  ensure ((← floatAt host s "multipleOf").all (0 < ·))
    (.valueError "output schema multipleOf must be positive")
  let low := if s.has (lit "exclusiveMinimum") then "exclusiveMinimum" else "minimum"
  let high := if s.has (lit "exclusiveMaximum") then "exclusiveMaximum" else "maximum"
  if s.has (lit low) ∧ s.has (lit high) then
    let lower ← floatAt host s low
    let upper ← floatAt host s high
    ensure (lower.all fun lower => upper.all (lower ≤ ·))
      (.valueError "output schema numeric bounds are inverted")
  ensure (∀ key ∈ structuralKeys s, key ∈ numericNames.map lit) (.inapplicable type)

/-- The node by itself: the properties seen up to it, and the schemas in it. -/
def nodeParts (root : Bool) (seen : ℕ) : Checked (ℕ × List Child) := do
  ensure (keysIn s schemaKeys)
    (.unsupportedKeys ((s.map (·.1)).filter (· ∉ schemaKeys)))
  validateMetadata s
  match s.get? (lit "oneOf") with
  | some branches => do pure (seen, ← unionChildren s root branches)
  | none => do
    let types := schemaTypes s
    checkTypes root types
    checkConstant host s types
    checkEnum host s types
    let ofString := lit "string" ∈ types
    if ofString then checkString host s
    let structural := (structuralKeys s).filter fun key =>
      ¬(ofString ∧ key ∈ [lit "minLength", lit "maxLength", lit "pattern"])
    match types with
    | [type] =>
      if type = lit "object" then objectParts host s seen
      else if type = lit "array" then arrayParts s seen
      else if type = lit "number" ∨ type = lit "integer" then do
        checkNumber host s type
        pure (seen, [])
      else do
        ensure (structural = []) (.inapplicable type)
        pure (seen, [])
    | _ => do
      ensure (structural = [])
        (.valueError "union schema constraints do not apply to a declared type")
      pure (seen, [])

/-- `validate_node`, with the depth that is left. -/
def validateNode : ℕ → Bool → Json → ℕ → Checked ℕ
  | depth, root, node, seen =>
    match node, depth with
    | .obj _, 0 => .error (.valueError "output schema exceeds the depth limit")
    | .obj s, depth + 1 => do
      let (seen, children) ← nodeParts host s root seen
      children.foldlM (fun seen child => do
        child.check
        validateNode depth child.root child.node seen) seen
    | _, _ => .error (.valueError "output schema nodes must be objects")

/-- The outermost handler: what it catches becomes a `ValueError` with the text. -/
def guarded {α : Type} (text : String) (x : Checked α) : Checked α :=
  match x with
  | .error .keyError | .error .typeError => .error (.valueError text)
  | x => x

/-- `validate_output_schema` -/
def validateOutputSchema (schema : Dict) : Checked Unit :=
  guarded "output schema is not a valid JSON schema mapping" do
    let _ ← validateNode host maxOutputSchemaDepth true (.obj schema) 0
    pure ()

end CodexFlow.Schema
