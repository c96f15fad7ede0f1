import CodexFlow.Schema.Soundness
import CodexFlow.Capsule.Persistence

/-!
# The contract of structured outputs

What acceptance says of a value and its schema. A schema without multiples, without constant integers
that have no type and without keywords beside a union is read as the Draft reads it.
-/

namespace CodexFlow.Schema

open Hook (PyStr Json Dict lit)
open Capsule (byteLength text)
open Checked

variable {host : Host} {others : Vocabulary} {s : Dict} {v node : Json}

theorem ok_of_guarded {α : Type} {x : Checked α} {text : String} {a : α}
    (h : guarded text x = .ok a) : x = .ok a := by
  unfold guarded at h
  split at h
  · cases h
  · cases h
  · exact h

theorem of_validateStructuredOutput {value : Json} {schema : Dict}
    (h : validateStructuredOutput host value schema = .ok ()) :
    Accepted host maxOutputSchemaDepth (.obj schema) ∧ Everywhere SmallString value ∧
      ∃ seen, validate host maxOutputSchemaDepth (lit "output") value (.obj schema) 0 = .ok seen := by
  simp only [validateStructuredOutput, checks_ok] at h
  obtain ⟨⟨⟩, hschema, -, size, hsize, hbytes, hvalue⟩ := h
  simp only [utf8Size, steps_ok] at hsize
  obtain ⟨-, rfl⟩ := hsize
  obtain ⟨seen, hnode, -⟩ := bind_eq_ok.1 (ok_of_guarded hschema)
  obtain ⟨seen', hrun, -⟩ := bind_eq_ok.1 (ok_of_guarded hvalue)
  exact ⟨⟨true, 0, seen, hnode⟩, smallStrings hbytes, seen', hrun⟩

/-! ### Schemas that are read alike -/

/-- The node has nothing that the validator reads in its own way. -/
def nodeAlike (s : Dict) : Bool :=
  !s.has (lit "multipleOf") && !(infersType s && isInt (s.get (lit "const"))) &&
    !(s.has (lit "oneOf") && (s.has (lit "type") || s.has (lit "required") ||
      s.has (lit "properties")))

mutual

def readsAlike : Json → Bool
  | .arr items => itemsAlike items
  | .obj s => nodeAlike s && fieldsAlike s
  | _ => true

def itemsAlike : List Json → Bool
  | [] => true
  | item :: items => readsAlike item && itemsAlike items

def fieldsAlike : List (PyStr × Json) → Bool
  | [] => true
  | (_, value) :: fields => readsAlike value && fieldsAlike fields

end

theorem itemsAlike_iff {items : List Json} :
    itemsAlike items = true ↔ ∀ item ∈ items, readsAlike item = true := by
  induction items with
  | nil => simp [itemsAlike]
  | cons item items ih => rw [itemsAlike, Bool.and_eq_true, ih, List.forall_mem_cons]

theorem fieldsAlike_iff {fields : Dict} :
    fieldsAlike fields = true ↔ ∀ field ∈ fields, readsAlike field.2 = true := by
  induction fields with
  | nil => simp [fieldsAlike]
  | cons field fields ih =>
    obtain ⟨name, value⟩ := field
    rw [fieldsAlike, Bool.and_eq_true, ih, List.forall_mem_cons]

theorem readsAlike_obj : readsAlike (.obj s) = true ↔
    nodeAlike s = true ∧ ∀ field ∈ s, readsAlike field.2 = true := by
  rw [readsAlike, Bool.and_eq_true, fieldsAlike_iff]

theorem readsAlike_get? (h : readsAlike (.obj s) = true) {key : PyStr} {child : Json}
    (hchild : s.get? key = some child) : readsAlike child = true := by
  obtain ⟨field, hfield, rfl⟩ := mem_of_get? hchild
  exact (readsAlike_obj.1 h).2 field hfield

theorem exactNode_of_alike (h : nodeAlike s = true) : ExactNode host others s v := by
  simp only [nodeAlike, Bool.and_eq_true, Bool.not_eq_true', Bool.and_eq_false_iff,
    Bool.or_eq_false_iff] at h
  obtain ⟨⟨hmultiple, hconstant⟩, hsiblings⟩ := h
  refine ⟨fun branches hget => ?_, fun _ q multiple m holds _ hget => ?_,
    fun _ hinfers n literal hget => ?_⟩
  · have hunion : s.has (lit "oneOf") = true := Option.isSome_iff_exists.2 ⟨_, hget⟩
    obtain hno | ⟨⟨htype, hrequired⟩, hproperties⟩ := hsiblings
    · rw [hunion] at hno
      cases hno
    · refine ⟨fun types htypes => ?_, fun _ names _ hnames => ?_, fun _ properties _ hnamed => ?_⟩
      · rw [get?_of_not_has htype] at htypes
        cases htypes
      · rw [get?_of_not_has hrequired] at hnames
        cases hnames
      · rw [get?_of_not_has hproperties] at hnamed
        cases hnamed
  · rw [get?_of_not_has hmultiple] at hget
    cases hget
  · rw [hinfers, get_of_get? hget] at hconstant
    obtain hno | hno := hconstant <;> cases hno

theorem Reached.alike {first pair : Json × Json} (h : Reached first pair)
    (hfirst : readsAlike first.1 = true) : readsAlike pair.1 = true := by
  induction h with
  | refl => exact hfirst
  | tail _ hstep ih =>
    obtain hstep | hstep := hstep
    · cases hstep with
      | item _ hs => exact readsAlike_get? ih hs
      | property _ hs _ hchild => exact readsAlike_get? (readsAlike_get? ih hs) hchild
      | name _ hs => exact readsAlike_get? ih hs
      | additional _ hs => exact readsAlike_get? ih hs
    · cases hstep with
      | mk hs hmem =>
        have hall := readsAlike_get? ih hs
        rw [readsAlike, itemsAlike_iff] at hall
        exact hall _ hmem

theorem Reached.exact {first pair : Json × Json} (h : Reached first pair)
    (hfirst : readsAlike first.1 = true) : Exact host others pair := by
  intro s hs
  have halike := h.alike hfirst
  rw [hs] at halike
  exact exactNode_of_alike (readsAlike_obj.1 halike).1

theorem Outside.reached {first pair : Json × Json} (h : Outside first pair) :
    Reached first pair := by
  induction h with
  | refl => exact .refl
  | tail _ hstep ih => exact Relation.ReflTransGen.tail ih (.inl hstep)

theorem branchesExact_of_alike {first : Json × Json} (hfirst : readsAlike first.1 = true) :
    BranchesExact host others first := by
  intro union branch pair hunion hbranch hpair
  exact Reached.exact ((hunion.reached.tail (.inr hbranch)).trans hpair) hfirst

/-! ### Acceptance -/

/-- Patterns and multiples that the schemas below do not have. -/
def Host.sample : Host where
  floats := Capsule.Host.sample.floats
  value := fun _ => 0
  isMultiple := fun _ _ => none
  compiles := fun _ => some false
  search := fun _ _ => false

def ofType (type : String) : Json := .obj [(lit "type", .str (lit type))]

def recordOf (property : Json) : Dict :=
  [(lit "additionalProperties", .bool false),
    (lit "properties", .obj [(lit "value", property)]),
    (lit "required", .arr [.str (lit "value")]),
    (lit "type", .str (lit "object"))]

def unionOf (siblings : Dict) : Json :=
  .obj ((lit "oneOf", .arr [ofType "integer", ofType "string"]) :: siblings)

def fiveRecord : Json := .obj [(lit "value", .int 5)]

def plainUnion : Dict := recordOf (unionOf [])

def typedUnion : Dict := recordOf (unionOf [(lit "type", .str (lit "string"))])

end CodexFlow.Schema
