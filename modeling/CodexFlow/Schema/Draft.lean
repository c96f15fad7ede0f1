import CodexFlow.Schema.Instances

/-!
# The meaning of a schema

What each keyword of Draft 2020-12 asks of an instance, for the keywords of the schema language. An
integer is a number that is no float. A keyword whose value has not the shape that the Draft gives it
asks nothing, and what the keywords outside the language ask is a parameter.
-/

namespace CodexFlow.Schema

open Hook (PyStr Json Dict lit)

/-! ### Lists -/

/-- One entry of the list, and no other, has the property. -/
def ExactlyOne {α : Type} (p : α → Prop) : List α → Prop
  | [] => False
  | a :: l => (p a ∧ ∀ b ∈ l, ¬p b) ∨ (¬p a ∧ ExactlyOne p l)

theorem exactlyOne_congr {α : Type} {p q : α → Prop} {l : List α} (h : ∀ a ∈ l, (p a ↔ q a)) :
    ExactlyOne p l ↔ ExactlyOne q l := by
  induction l with
  | nil => exact Iff.rfl
  | cons a l ih =>
    obtain ⟨ha, hl⟩ := List.forall_mem_cons.1 h
    have hnone : (∀ b ∈ l, ¬p b) ↔ ∀ b ∈ l, ¬q b :=
      forall₂_congr fun b hb => not_congr (hl b hb)
    rw [ExactlyOne, ExactlyOne, ha, hnone, ih hl]

/-! ### Keywords -/

def metadataNames : List String := ["$schema", "$id", "title", "description"]

/-- `_SCHEMA_METADATA_KEYS` -/
def metadataKeys : List PyStr := metadataNames.map lit

/-- `_SCHEMA_KEYS` -/
def schemaKeys : List PyStr :=
  metadataKeys ++ [lit "type", lit "properties", lit "required", lit "additionalProperties",
    lit "propertyNames", lit "items", lit "const", lit "enum", lit "minLength", lit "maxLength",
    lit "pattern", lit "minItems", lit "maxItems", lit "uniqueItems", lit "minProperties",
    lit "maxProperties", lit "multipleOf", lit "minimum", lit "maximum", lit "exclusiveMinimum",
    lit "exclusiveMaximum", lit "oneOf"]

def HasType : Json → PyStr → Prop
  | .null, name => name = lit "null"
  | .bool _, name => name = lit "boolean"
  | .int _, name => name = lit "integer" ∨ name = lit "number"
  | .float _, name => name = lit "number"
  | .str _, name => name = lit "string"
  | .arr _, name => name = lit "array"
  | .obj _, name => name = lit "object"

/-- The type of the instance is among those that the keyword lists. -/
def TypeAllows (v : Json) : Json → Prop
  | .str name => HasType v name
  | .arr names => ∃ name, .str name ∈ names ∧ HasType v name
  | _ => True

/-- The `properties` of the schema name the property. -/
def declares (s : Dict) (name : PyStr) : Bool :=
  match s.get? (lit "properties") with
  | some (.obj properties) => Dict.has properties name
  | _ => false

/-- What a keyword outside the schema language asks: the keyword, its schema and the instance. -/
abbrev Vocabulary := PyStr × Json → Dict → Json → Prop

variable (host : Host) (others : Vocabulary)

def limit? (s : Dict) (key : String) : Option ℚ := (s.get? (lit key)).bind (number? host)

structure NumberKeywords (s : Dict) (q : ℚ) : Prop where
  multipleOf : ∀ m, limit? host s "multipleOf" = some m → ∃ k : ℤ, q = k * m
  minimum : ∀ m, limit? host s "minimum" = some m → m ≤ q
  maximum : ∀ m, limit? host s "maximum" = some m → q ≤ m
  exclusiveMinimum : ∀ m, limit? host s "exclusiveMinimum" = some m → m < q
  exclusiveMaximum : ∀ m, limit? host s "exclusiveMaximum" = some m → q < m

structure StringKeywords (s : Dict) (text : PyStr) : Prop where
  minLength : ∀ n, limit? host s "minLength" = some n → n ≤ text.length
  maxLength : ∀ n, limit? host s "maxLength" = some n → text.length ≤ n
  pattern : ∀ pattern, s.get? (lit "pattern") = some (.str pattern) →
    host.search pattern text = true

/-- What the keywords of arrays ask, where `sat` is the meaning of the schemas in them. -/
structure ArrayKeywords (sat : Json → Json → Prop) (s : Dict) (items : List Json) : Prop where
  minItems : ∀ n, limit? host s "minItems" = some n → n ≤ items.length
  maxItems : ∀ n, limit? host s "maxItems" = some n → items.length ≤ n
  uniqueItems : s.get? (lit "uniqueItems") = some (.bool true) →
    items.Pairwise fun left right => ¬SameInstance host left right
  items : ∀ child, s.get? (lit "items") = some child → ∀ item ∈ items, sat child item

structure ObjectKeywords (sat : Json → Json → Prop) (s fields : Dict) : Prop where
  minProperties : ∀ n, limit? host s "minProperties" = some n → n ≤ fields.length
  maxProperties : ∀ n, limit? host s "maxProperties" = some n → fields.length ≤ n
  required : ∀ names, s.get? (lit "required") = some (.arr names) →
    ∀ name, .str name ∈ names → fields.has name = true
  properties : ∀ properties, s.get? (lit "properties") = some (.obj properties) →
    ∀ field ∈ fields, ∀ child, Dict.get? properties field.1 = some child → sat child field.2
  additionalProperties : ∀ child, s.get? (lit "additionalProperties") = some child →
    ∀ field ∈ fields, declares s field.1 = false → sat child field.2
  propertyNames : ∀ child, s.get? (lit "propertyNames") = some child →
    ∀ field ∈ fields, sat child (.str field.1)

structure Keywords (sat : Json → Json → Prop) (s : Dict) (v : Json) : Prop where
  type : ∀ types, s.get? (lit "type") = some types → TypeAllows v types
  const : ∀ constant, s.get? (lit "const") = some constant → SameInstance host v constant
  enum : ∀ choices, s.get? (lit "enum") = some (.arr choices) →
    ∃ choice ∈ choices, SameInstance host v choice
  number : ∀ q, number? host v = some q → NumberKeywords host s q
  string : ∀ text, v = .str text → StringKeywords host s text
  array : ∀ items, v = .arr items → ArrayKeywords host sat s items
  object : ∀ fields, v = .obj fields → ObjectKeywords host sat s fields
  oneOf : ∀ branches, s.get? (lit "oneOf") = some (.arr branches) →
    ExactlyOne (fun branch => sat branch v) branches
  others : ∀ field ∈ s, field.1 ∉ schemaKeys → others field s v

def Satisfies : Json → Json → Prop
  | .bool b, _ => b = true
  | .obj s, v =>
    Keywords host others (fun child v' => ∀ _ : sizeOf child < 1 + sizeOf s, Satisfies child v') s v
  | _, _ => True
termination_by schema => sizeOf schema
decreasing_by rwa [Json.obj.sizeOf_spec]

/-! ### The schemas in a schema -/

theorem mem_of_get? {s : Dict} {key : PyStr} {child : Json} (h : s.get? key = some child) :
    ∃ field ∈ s, field.2 = child := by
  obtain ⟨field, hfield, hvalue⟩ := Option.map_eq_some_iff.1 h
  exact ⟨field, List.mem_of_find?_eq_some hfield, hvalue⟩

theorem sizeOf_get? {s : Dict} {key : PyStr} {child : Json} (h : s.get? key = some child) :
    sizeOf child < sizeOf (Json.obj s) := by
  obtain ⟨field, hfield, rfl⟩ := mem_of_get? h
  have hsize := List.sizeOf_lt_of_mem hfield
  have hfields : sizeOf field = 1 + sizeOf field.1 + sizeOf field.2 := rfl
  rw [Json.obj.sizeOf_spec]
  omega

theorem sizeOf_branch {s : Dict} {key : PyStr} {branches : List Json} {branch : Json}
    (h : s.get? key = some (.arr branches)) (hbranch : branch ∈ branches) :
    sizeOf branch < sizeOf (Json.obj s) := by
  have hsize := List.sizeOf_lt_of_mem hbranch
  have hget := sizeOf_get? h
  rw [Json.arr.sizeOf_spec] at hget
  omega

theorem sizeOf_property {s properties : Dict} {key name : PyStr} {child : Json}
    (h : s.get? key = some (.obj properties)) (hchild : properties.get? name = some child) :
    sizeOf child < sizeOf (Json.obj s) :=
  (sizeOf_get? hchild).trans (sizeOf_get? h)

variable {host others}

theorem Keywords.imp {sat sat' : Json → Json → Prop} {s : Dict} {v : Json}
    (same : ∀ child v', sizeOf child < sizeOf (Json.obj s) → (sat child v' ↔ sat' child v'))
    (h : Keywords host others sat s v) : Keywords host others sat' s v :=
  { h with
    array := fun items hv =>
      { h.array items hv with
        items := fun child hchild item hitem =>
          (same child item (sizeOf_get? hchild)).1 ((h.array items hv).items child hchild item hitem) }
    object := fun fields hv =>
      { h.object fields hv with
        properties := fun properties hs field hfield child hchild =>
          (same child field.2 (sizeOf_property hs hchild)).1
            ((h.object fields hv).properties properties hs field hfield child hchild)
        additionalProperties := fun child hchild field hfield hname =>
          (same child field.2 (sizeOf_get? hchild)).1
            ((h.object fields hv).additionalProperties child hchild field hfield hname)
        propertyNames := fun child hchild field hfield =>
          (same child (.str field.1) (sizeOf_get? hchild)).1
            ((h.object fields hv).propertyNames child hchild field hfield) }
    oneOf := fun branches hs =>
      (exactlyOne_congr fun branch hbranch => same branch v (sizeOf_branch hs hbranch)).1
        (h.oneOf branches hs) }

theorem satisfies_obj {s : Dict} {v : Json} :
    Satisfies host others (.obj s) v ↔ Keywords host others (Satisfies host others) s v := by
  have same : ∀ child v', sizeOf child < sizeOf (Json.obj s) →
      ((∀ _ : sizeOf child < 1 + sizeOf s, Satisfies host others child v') ↔
        Satisfies host others child v') := by
    intro child v' hchild
    rw [Json.obj.sizeOf_spec] at hchild
    exact ⟨fun h => h hchild, fun h _ => h⟩
  rw [Satisfies]
  exact ⟨Keywords.imp same, Keywords.imp fun child v' hchild => (same child v' hchild).symm⟩

end CodexFlow.Schema
