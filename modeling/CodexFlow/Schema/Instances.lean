import CodexFlow.Capsule.Types

/-!
# Instances

What a schema asks about: the numbers, the types and the equality of JSON values. An integer and a
float are equal where they are the same number.
-/

namespace CodexFlow.Schema

open Hook (PyStr Json Dict lit)
open Capsule (Floats)

/-- Code of the interpreter: its floats, the numbers that they are, and its patterns. -/
structure Host where
  floats : Floats
  value : PyStr → ℚ
  /-- `math.isclose(float(q), round(float(q)), ...)` of `q = number / multiple`: `none` raises
  `OverflowError`. -/
  isMultiple : Json → Json → Option Bool
  /-- `re.compile(pattern)` returns, or raises `re.error`: `none` raises `OverflowError`. -/
  compiles : PyStr → Option Bool
  /-- `re.search(pattern, text)` finds a match. -/
  search : PyStr → PyStr → Bool

variable (host : Host)

def number? : Json → Option ℚ
  | .int n => some n
  | .float literal => some (host.value literal)
  | _ => none

/-- `isinstance(value, int) and not isinstance(value, bool)` -/
def isInt : Json → Bool
  | .int _ => true
  | _ => false

def isObj : Json → Bool
  | .obj _ => true
  | _ => false

/-- `value_matches_type` and `type_matches` -/
def matchesType (value : Json) (type : PyStr) : Bool :=
  if type = lit "null" then value matches .null
  else if type = lit "boolean" then value matches .bool _
  else if type = lit "integer" then isInt value
  else if type = lit "number" then (number? host value).isSome
  else if type = lit "string" then value matches .str _
  else if type = lit "array" then value matches .arr _
  else isObj value

/-! ### Equality -/

/-- `set(left) == set(right)` -/
def sameKeys (left right : Dict) : Bool :=
  left.all (fun field => right.has field.1) && right.all fun field => left.has field.1

mutual

/-- `_json_schema_instance_equal` -/
def instanceEqual : Json → Json → Bool
  | .null, .null => true
  | .bool a, .bool b => a = b
  | .int n, right => number? host right = some (n : ℚ)
  | .float literal, right => number? host right = some (host.value literal)
  | .str s, .str t => s = t
  | .arr items, .arr items' => items.length = items'.length && itemsEqual items items'
  | .obj fields, .obj fields' => sameKeys fields fields' && fieldsEqual fields fields'
  | _, _ => false

def itemsEqual : List Json → List Json → Bool
  | item :: items, item' :: items' => instanceEqual item item' && itemsEqual items items'
  | _, _ => true

def fieldsEqual : List (PyStr × Json) → Dict → Bool
  | [], _ => true
  | (key, value) :: fields, right =>
    (right.get? key).any (instanceEqual value) && fieldsEqual fields right

end

/-- Two values are one instance. -/
inductive SameInstance : Json → Json → Prop
  | null : SameInstance .null .null
  | bool (b : Bool) : SameInstance (.bool b) (.bool b)
  | number {left right : Json} {q : ℚ} (hleft : number? host left = some q)
      (hright : number? host right = some q) : SameInstance left right
  | str (s : PyStr) : SameInstance (.str s) (.str s)
  | arr {items items' : List Json} (h : List.Forall₂ SameInstance items items') :
      SameInstance (.arr items) (.arr items')
  | obj {fields fields' : Dict} (keys : sameKeys fields fields' = true)
      (h : ∀ field ∈ fields, ∀ value, fields'.get? field.1 = some value →
        SameInstance field.2 value) :
      SameInstance (.obj fields) (.obj fields')

variable {host}

theorem hasKeys {left right : Dict} (h : sameKeys left right = true) :
    ∀ field ∈ left, right.has field.1 = true :=
  List.all_eq_true.1 (Bool.and_eq_true_iff.1 h).1

mutual

theorem instanceEqual_iff : ∀ left right : Json,
    instanceEqual host left right = true ↔ SameInstance host left right
  | .null, right => by
    constructor
    · intro h
      cases right <;> first | exact .null | cases h
    · rintro (_ | _ | ⟨hleft, -⟩)
      · rfl
      · cases hleft
  | .bool a, right => by
    constructor
    · intro h
      cases right with
      | bool b =>
        obtain rfl := of_decide_eq_true h
        exact .bool a
      | _ => cases h
    · rintro (_ | _ | ⟨hleft, -⟩)
      · exact decide_eq_true rfl
      · cases hleft
  | .int n, right => by
    have heq : instanceEqual host (.int n) right = decide (number? host right = some (n : ℚ)) := by
      cases right <;> rfl
    rw [heq, decide_eq_true_iff]
    constructor
    · exact fun h => .number rfl h
    · rintro (_ | _ | ⟨hleft, hright⟩)
      cases hleft
      exact hright
  | .float literal, right => by
    have heq : instanceEqual host (.float literal) right =
        decide (number? host right = some (host.value literal)) := by
      cases right <;> rfl
    rw [heq, decide_eq_true_iff]
    constructor
    · exact fun h => .number rfl h
    · rintro (_ | _ | ⟨hleft, hright⟩)
      cases hleft
      exact hright
  | .str s, right => by
    constructor
    · intro h
      cases right with
      | str t =>
        obtain rfl := of_decide_eq_true h
        exact .str s
      | _ => cases h
    · rintro (_ | _ | ⟨hleft, -⟩ | _)
      · cases hleft
      · exact decide_eq_true rfl
  | .arr items, right => by
    constructor
    · intro h
      cases right with
      | arr items' =>
        rw [instanceEqual, Bool.and_eq_true, decide_eq_true_iff] at h
        exact .arr ((itemsEqual_iff items items' h.1).1 h.2)
      | _ => cases h
    · rintro (_ | _ | ⟨hleft, -⟩ | _ | h)
      · cases hleft
      · rw [instanceEqual, Bool.and_eq_true, decide_eq_true_iff]
        exact ⟨h.length_eq, (itemsEqual_iff items _ h.length_eq).2 h⟩
  | .obj fields, right => by
    constructor
    · intro h
      cases right with
      | obj fields' =>
        rw [instanceEqual, Bool.and_eq_true] at h
        exact .obj h.1 ((fieldsEqual_iff fields fields' (hasKeys h.1)).1 h.2)
      | _ => cases h
    · rintro (_ | _ | ⟨hleft, -⟩ | _ | _ | ⟨keys, h⟩)
      · cases hleft
      · rw [instanceEqual, Bool.and_eq_true]
        exact ⟨keys, (fieldsEqual_iff fields _ (hasKeys keys)).2 h⟩

theorem itemsEqual_iff : ∀ items items' : List Json, items.length = items'.length →
    (itemsEqual host items items' = true ↔ List.Forall₂ (SameInstance host) items items')
  | [], [], _ => ⟨fun _ => .nil, fun _ => rfl⟩
  | item :: items, item' :: items', h => by
    rw [itemsEqual, Bool.and_eq_true, List.forall₂_cons, instanceEqual_iff item item',
      itemsEqual_iff items items' (Nat.succ.inj h)]

theorem fieldsEqual_iff : ∀ fields fields' : Dict,
    (∀ field ∈ fields, fields'.has field.1 = true) →
    (fieldsEqual host fields fields' = true ↔
      ∀ field ∈ fields, ∀ value, fields'.get? field.1 = some value →
        SameInstance host field.2 value)
  | [], _, _ => ⟨fun _ => nofun, fun _ => rfl⟩
  | (key, value) :: fields, fields', keys => by
    obtain ⟨hkey, keys⟩ := List.forall_mem_cons.1 keys
    obtain ⟨other, hother⟩ := Option.isSome_iff_exists.1 hkey
    have hother : fields'.get? key = some other := hother
    rw [fieldsEqual, Bool.and_eq_true, fieldsEqual_iff fields fields' keys, List.forall_mem_cons,
      hother, Option.any_some, instanceEqual_iff value other]
    simp only [Option.some.injEq, forall_eq']

end

end CodexFlow.Schema
