import CodexFlow.Schema.Values

/-!
# What an accepted schema is like

The facts about a node that `validate_node` leaves behind, for the induction over the depth.
-/

namespace CodexFlow.Schema

open Hook (PyStr Json Dict lit)
open Checked

variable {host : Host} {s : Dict} {root : Bool} {depth seen seen' : ℕ} {children : List Child}

/-! ### Keys -/

theorem get_of_get? {key : PyStr} {value : Json} (h : s.get? key = some value) :
    s.get key = value := by
  unfold Dict.get
  rw [h]
  rfl

theorem get?_of_get {key : PyStr} {value : Json} (h : s.get key = value) (hvalue : value ≠ .null) :
    s.get? key = some value := by
  unfold Dict.get at h
  cases hs : s.get? key with
  | none =>
    rw [hs] at h
    exact absurd h.symm hvalue
  | some other =>
    rw [hs] at h
    exact congrArg some h

theorem get?_of_keysIn {keys : List PyStr} (h : keysIn s keys = true) {key : PyStr}
    (hkey : key ∉ keys) : s.get? key = none := by
  cases hs : s.get? key with
  | none => rfl
  | some value =>
    obtain ⟨field, hfield, -⟩ := Option.map_eq_some_iff.1 hs
    have hfound := List.find?_some hfield
    have hsame : field.1 = key := of_decide_eq_true hfound
    have hmem := of_decide_eq_true (List.all_eq_true.1 h field (List.mem_of_find?_eq_some hfield))
    exact absurd (hsame ▸ hmem) hkey

/-! ### Runs over lists -/

theorem of_foldlM_ok {α β : Type} {f : β → α → Checked β} {l : List α} {b b' : β}
    (h : l.foldlM f b = .ok b') : ∀ a ∈ l, ∃ c c', f c a = .ok c' := by
  induction l generalizing b with
  | nil => exact nofun
  | cons a l ih =>
    rw [List.foldlM_cons, bind_eq_ok] at h
    obtain ⟨c, hc, h⟩ := h
    exact List.forall_mem_cons.2 ⟨⟨b, c, hc⟩, ih h⟩

theorem forall₂_of_mapM_ok {α β : Type} {f : α → Checked β} {l : List α} {results : List β}
    (h : l.mapM f = .ok results) : List.Forall₂ (fun a b => f a = .ok b) l results := by
  induction l generalizing results with
  | nil =>
    cases h
    exact .nil
  | cons a l ih =>
    rw [List.mapM_cons] at h
    obtain ⟨first, hfirst, h⟩ := bind_eq_ok.1 h
    obtain ⟨rest, hrest, h⟩ := bind_eq_ok.1 h
    cases h
    exact .cons hfirst (ih hrest)

/-! ### Nodes -/

/-- The node passes `validate_node` with the depth that is left. -/
def Accepted (host : Host) (depth : ℕ) (node : Json) : Prop :=
  ∃ root seen seen', validateNode host depth root node seen = .ok seen'

def unionKeys : List PyStr :=
  metadataKeys ++ [lit "oneOf", lit "type", lit "properties", lit "required"]

structure UnionNode (host : Host) (depth : ℕ) (s : Dict) (branches : List Json) : Prop where
  oneOf : s.get? (lit "oneOf") = some (.arr branches)
  keys : keysIn s unionKeys = true
  accepted : ∀ branch ∈ branches, Accepted host depth branch

structure RecordNode (host : Host) (depth : ℕ) (s properties : Dict) : Prop where
  named : s.get? (lit "properties") = some (.obj properties)
  closed : s.get? (lit "additionalProperties") = some (.bool false)
  names : s.get (lit "propertyNames") = .null
  required : isClosedConstantMap s properties = false →
    ∃ required, s.get? (lit "required") = some (.arr required) ∧
      ∀ name ∈ required, name.asStr.isSome = true
  accepted : ∀ field ∈ properties, Accepted host depth field.2

structure MapNode (host : Host) (depth : ℕ) (s : Dict) (names values : Json) : Prop where
  properties : s.get (lit "properties") = .null
  required : s.get (lit "required") = .null
  propertyNames : s.get? (lit "propertyNames") = some names
  additionalProperties : s.get? (lit "additionalProperties") = some values
  namesAccepted : Accepted host depth names
  valuesAccepted : Accepted host depth values

/-- A keyword that bounds a size from above. -/
def BoundedBy (s : Dict) (key : String) (maximum : ℕ) : Prop :=
  ∀ value, s.get? (lit key) = some value → ∃ n : ℤ, value = .int n ∧ n ≤ maximum

def IsNumeric (host : Host) (s : Dict) (key : String) : Prop :=
  ∀ value, s.get? (lit key) = some value → ∃ q, number? host value = some q

structure ArrayNode (host : Host) (depth : ℕ) (s : Dict) : Prop where
  least : IsNumeric host s "minItems"
  most : BoundedBy s "maxItems" maxOutputArrayItems
  unique : (s.get? (lit "uniqueItems")).all (· matches .bool _) = true
  items : ∃ child, s.get? (lit "items") = some child ∧ Accepted host depth child

structure ObjectNode (host : Host) (depth : ℕ) (s : Dict) : Prop where
  least : IsNumeric host s "minProperties"
  most : BoundedBy s "maxProperties" maxOutputObjectProperties
  closed : (∃ properties, RecordNode host depth s properties) ∨
    ∃ names values, MapNode host depth s names values

structure PlainNode (host : Host) (depth : ℕ) (s : Dict) : Prop where
  noUnion : s.get? (lit "oneOf") = none
  types : schemaTypes s ≠ []
  known : ∀ type ∈ schemaTypes s, type ∈ knownTypes
  number : lit "number" ∈ schemaTypes s ∨ lit "integer" ∈ schemaTypes s →
    ∀ key ∈ numericNames, IsNumeric host s key
  string : lit "string" ∈ schemaTypes s → IsNumeric host s "minLength" ∧ IsNumeric host s "maxLength"
  object : lit "object" ∈ schemaTypes s → ObjectNode host depth s
  array : lit "array" ∈ schemaTypes s → ArrayNode host depth s

theorem BoundedBy.isNumeric {key : String} {maximum : ℕ} (h : BoundedBy s key maximum) :
    IsNumeric host s key := by
  intro value hvalue
  obtain ⟨n, rfl, -⟩ := h value hvalue
  exact ⟨n, rfl⟩

theorem int_of_boundedInteger {value : Json} {label : String} {maximum : ℕ} {limit : ℤ}
    (h : boundedInteger value label maximum = .ok limit) :
    ∃ n : ℤ, value = .int n ∧ n ≤ maximum := by
  cases value with
  | int n =>
    simp only [boundedInteger, bind_eq_ok, ensure_eq_ok] at h
    obtain ⟨⟨⟩, ⟨-, hle⟩, -⟩ := h
    exact ⟨n, rfl, hle⟩
  | _ => cases h

theorem boundedBy_of_bounds {low high : String} {maximum : ℕ} {limits : ℤ × ℤ}
    (h : bounds s low high maximum = .ok limits) :
    BoundedBy s low maximum ∧ BoundedBy s high maximum := by
  simp only [bounds, bind_eq_ok] at h
  obtain ⟨least, hleast, most, hmost, -⟩ := h
  constructor
  · intro value hvalue
    rw [hvalue, Option.getD_some] at hleast
    exact int_of_boundedInteger hleast
  · intro value hvalue
    rw [hvalue, Option.getD_some] at hmost
    exact int_of_boundedInteger hmost

/-- Every child of the node is accepted behind its check. -/
def ChildrenAccepted (host : Host) (depth : ℕ) (children : List Child) : Prop :=
  ∀ child ∈ children, Accepted host depth child.node

theorem recordNode_of_parts {least most : ℤ} {properties : Dict}
    (hproperties : s.get (lit "properties") = .obj properties)
    (hclosed : (s.get (lit "additionalProperties") matches .bool false) = true)
    (hnames : (s.get (lit "propertyNames") matches .null) = true)
    (hrecord : checkRecord host s properties least most = .ok ())
    (hchildren : ∀ field ∈ properties, Accepted host depth field.2) :
    RecordNode host depth s properties := by
  have hfalse : s.get (lit "additionalProperties") = .bool false := by
    cases hvalue : s.get (lit "additionalProperties") with
    | bool b => cases b <;> simp_all
    | _ => simp_all
  have hnull : s.get (lit "propertyNames") = .null := by
    cases hvalue : s.get (lit "propertyNames") <;> simp_all
  refine ⟨get?_of_get hproperties (by rintro ⟨⟩), get?_of_get hfalse (by rintro ⟨⟩), hnull, fun hmap => ?_, hchildren⟩
  simp only [checkRecord, hmap, Bool.false_eq_true, if_false, bind_eq_ok] at hrecord
  obtain ⟨⟨⟩, hrequired, -⟩ := hrecord
  unfold checkRequired at hrequired
  split at hrequired
  · rename_i required hget
    obtain ⟨⟨⟩, hall, -⟩ := bind_eq_ok.1 hrequired
    exact ⟨required, get?_of_get hget (by rintro ⟨⟩), List.all_eq_true.1 (ensure_eq_ok.1 hall)⟩
  · cases hrequired

theorem objectParts_ok (h : objectParts host s seen = .ok (seen', children))
    (haccepted : ChildrenAccepted host depth children) : ObjectNode host depth s := by
  unfold objectParts at h
  obtain ⟨⟨least, most⟩, hbounds, h⟩ := bind_eq_ok.1 h
  obtain ⟨⟨⟩, -, h⟩ := bind_eq_ok.1 h
  obtain ⟨hleast, hmost⟩ := boundedBy_of_bounds hbounds
  refine ⟨hleast.isNumeric, hmost, ?_⟩
  split at h
  · rename_i properties hproperties
    obtain ⟨⟨⟩, hclosed, h⟩ := bind_eq_ok.1 h
    obtain ⟨⟨⟩, hrecord, h⟩ := bind_eq_ok.1 h
    obtain ⟨⟨⟩, -, h⟩ := bind_eq_ok.1 h
    obtain ⟨⟨⟩, -, h⟩ := bind_eq_ok.1 h
    cases h
    obtain ⟨hclosed, hnull⟩ := ensure_eq_ok.1 hclosed
    refine .inl ⟨properties, recordNode_of_parts hproperties hclosed hnull hrecord ?_⟩
    exact fun field hfield => haccepted _ (List.mem_map.2 ⟨field, hfield, rfl⟩)
  · rename_i hproperties hrequired hnames hadditional
    obtain ⟨⟨⟩, -, h⟩ := bind_eq_ok.1 h
    cases h
    obtain ⟨hfirst, hsecond⟩ := List.forall_mem_cons.1 haccepted
    exact .inr ⟨_, _, hproperties, hrequired, get?_of_get hnames nofun, get?_of_get hadditional nofun,
      hfirst, hsecond _ List.mem_cons_self⟩
  · cases h

theorem arrayParts_ok (h : arrayParts s seen = .ok (seen', children))
    (haccepted : ChildrenAccepted host depth children) : ArrayNode host depth s := by
  unfold arrayParts at h
  split at h
  · cases h
  · rename_i items hitems
    obtain ⟨⟨least, most⟩, hbounds, h⟩ := bind_eq_ok.1 h
    obtain ⟨⟨⟩, hunique, h⟩ := bind_eq_ok.1 h
    obtain ⟨⟨⟩, -, h⟩ := bind_eq_ok.1 h
    cases h
    obtain ⟨hleast, hmost⟩ := boundedBy_of_bounds hbounds
    exact ⟨hleast.isNumeric, hmost, (ensure_eq_ok.1 hunique).2, items, hitems,
      haccepted _ List.mem_cons_self⟩

/-! ### Accepted nodes -/

theorem numeric_of_checkNumber {type : PyStr} (h : checkNumber host s type = .ok ()) :
    ∀ key ∈ numericNames, IsNumeric host s key := by
  obtain ⟨⟨⟩, h, -⟩ := bind_eq_ok.1 h
  intro key hkey value hvalue
  have hnumber := ensure_eq_ok.1 (forM_eq_ok.1 h key hkey)
  rw [hvalue, Option.all_some] at hnumber
  exact Option.isSome_iff_exists.1 hnumber

theorem numeric_of_checkString (h : checkString host s = .ok ()) :
    IsNumeric host s "minLength" ∧ IsNumeric host s "maxLength" := by
  obtain ⟨⟨least, most⟩, hbounds, -⟩ := bind_eq_ok.1 h
  obtain ⟨hleast, hmost⟩ := boundedBy_of_bounds hbounds
  exact ⟨hleast.isNumeric, hmost.isNumeric⟩

/-- The keys that the node has of those that are neither metadata, types nor values. -/
theorem get?_of_structural {key : PyStr} {p : PyStr → Bool}
    (h : (structuralKeys s).filter p = []) (hp : p key = true)
    (hkey : key ∉ metadataKeys ++ [lit "type", lit "const", lit "enum"]) : s.get? key = none := by
  cases hs : s.get? key with
  | none => rfl
  | some value =>
    obtain ⟨field, hfield, -⟩ := Option.map_eq_some_iff.1 hs
    have hfound := List.find?_some hfield
    have hsame : field.1 = key := of_decide_eq_true hfound
    have hmem : key ∈ (structuralKeys s).filter p := by
      refine List.mem_filter.2 ⟨List.mem_filter.2 ⟨?_, decide_eq_true hkey⟩, hp⟩
      exact hsame ▸ List.mem_map_of_mem (List.mem_of_find?_eq_some hfield)
    rw [h] at hmem
    exact absurd hmem List.not_mem_nil

/-- What is left of a node once its types and its text keywords are checked. -/
def typedChildren (host : Host) (s : Dict) (seen : ℕ) : Checked (ℕ × List Child) :=
  let structural := (structuralKeys s).filter fun key =>
    ¬(lit "string" ∈ schemaTypes s ∧ key ∈ [lit "minLength", lit "maxLength", lit "pattern"])
  match schemaTypes s with
  | [type] =>
    if type = lit "object" then objectParts host s seen
    else if type = lit "array" then arrayParts s seen
    else if type = lit "number" ∨ type = lit "integer" then do
      checkNumber host s type
      pure (seen, [])
    else do
      ensure (structural = []) (.inapplicable type)
      pure (seen, [])
  | _ => do
    ensure (structural = [])
      (.valueError "union schema constraints do not apply to a declared type")
    pure (seen, [])

/-- The last step of the check of a node that is no union, by its types. -/
theorem parts_by_type (hunion : s.get? (lit "oneOf") = none)
    (h : nodeParts host s root seen = .ok (seen', children)) :
    schemaTypes s ≠ [] ∧ (∀ type ∈ schemaTypes s, type ∈ knownTypes) ∧
      (1 < (schemaTypes s).length → lit "object" ∉ schemaTypes s ∧ lit "array" ∉ schemaTypes s) ∧
      (lit "string" ∈ schemaTypes s → checkString host s = .ok ()) ∧
      (∀ type, schemaTypes s = [type] →
        (type = lit "object" → objectParts host s seen = .ok (seen', children)) ∧
        (type = lit "array" → arrayParts s seen = .ok (seen', children)) ∧
        (type = lit "number" ∨ type = lit "integer" → checkNumber host s type = .ok ())) ∧
      (1 < (schemaTypes s).length → ∀ key ∈ numericNames, s.get? (lit key) = none) := by
  simp only [nodeParts, hunion] at h
  obtain ⟨⟨⟩, -, h⟩ := bind_eq_ok.1 h
  obtain ⟨⟨⟩, -, h⟩ := bind_eq_ok.1 h
  obtain ⟨⟨⟩, htypes, h⟩ := bind_eq_ok.1 h
  obtain ⟨⟨⟩, -, h⟩ := bind_eq_ok.1 h
  obtain ⟨⟨⟩, -, h⟩ := bind_eq_ok.1 h
  simp only [checkTypes, checks_ok] at htypes
  obtain ⟨⟨hne, -, hknown⟩, -, hsingle⟩ := htypes
  have hlast : (lit "string" ∈ schemaTypes s → checkString host s = .ok ()) ∧
      typedChildren host s seen = .ok (seen', children) := by
    split_ifs at h with hstring
    · obtain ⟨⟨⟩, hcheck, h⟩ := bind_eq_ok.1 h
      exact ⟨fun _ => hcheck, h⟩
    · exact ⟨fun hmem => absurd hmem hstring, h⟩
  obtain ⟨hstring, hlast⟩ := hlast
  unfold typedChildren at hlast
  refine ⟨hne, hknown, hsingle, hstring, fun type htype => ?_, fun hlong key hkey => ?_⟩
  · simp only [htype] at hlast
    refine ⟨?_, ?_, ?_⟩
    · rintro rfl
      rwa [if_pos rfl] at hlast
    · rintro rfl
      rwa [if_neg (by decide), if_pos rfl] at hlast
    · intro hnumber
      have hobject : type ≠ lit "object" := by
        obtain rfl | rfl := hnumber <;> decide
      have harray : type ≠ lit "array" := by
        obtain rfl | rfl := hnumber <;> decide
      rw [if_neg hobject, if_neg harray, if_pos hnumber] at hlast
      obtain ⟨⟨⟩, hcheck, -⟩ := bind_eq_ok.1 hlast
      exact hcheck
  · split at hlast
    · rename_i type htype
      rw [htype] at hlong
      exact absurd hlong (Nat.lt_irrefl 1)
    · obtain ⟨⟨⟩, hnone, -⟩ := bind_eq_ok.1 hlast
      refine get?_of_structural (ensure_eq_ok.1 hnone) ?_ ?_
      · have hnumeric : ∀ key ∈ numericNames,
            lit key ∉ [lit "minLength", lit "maxLength", lit "pattern"] := by
          decide
        exact decide_eq_true fun h => hnumeric key hkey h.2
      · simp only [numericNames, List.mem_cons, List.not_mem_nil, or_false] at hkey
        obtain rfl | rfl | rfl | rfl | rfl := hkey <;> decide

theorem plainNode_of_parts (hunion : s.get? (lit "oneOf") = none)
    (h : nodeParts host s root seen = .ok (seen', children))
    (haccepted : ChildrenAccepted host depth children) : PlainNode host depth s := by
  obtain ⟨hne, hknown, hsingle, hstring, hone, hmany⟩ := parts_by_type hunion h
  have honly : ∀ type ∈ schemaTypes s, 1 < (schemaTypes s).length ∨ schemaTypes s = [type] := by
    intro type hmem
    have hpos := List.length_pos_of_mem hmem
    by_cases hlong : 1 < (schemaTypes s).length
    · exact .inl hlong
    · obtain ⟨only, honly⟩ := List.length_eq_one_iff.1 (by omega : (schemaTypes s).length = 1)
      rw [honly, List.mem_singleton] at hmem
      exact .inr (by rw [honly, hmem])
  refine ⟨hunion, hne, hknown, fun hnumber => ?_, fun hmem => ?_, fun hmem => ?_, fun hmem => ?_⟩
  · have hnumeric : ∀ type ∈ schemaTypes s, type = lit "number" ∨ type = lit "integer" →
        ∀ key ∈ numericNames, IsNumeric host s key := by
      intro type hmem htype
      obtain hlong | honly := honly type hmem
      · intro key hkey value hvalue
        rw [hmany hlong key hkey] at hvalue
        cases hvalue
      · exact numeric_of_checkNumber ((hone type honly).2.2 htype)
    obtain hmem | hmem := hnumber
    · exact hnumeric _ hmem (.inl rfl)
    · exact hnumeric _ hmem (.inr rfl)
  · exact numeric_of_checkString (hstring hmem)
  · obtain hlong | honly := honly _ hmem
    · exact absurd hmem (hsingle hlong).1
    · exact objectParts_ok ((hone _ honly).1 rfl) haccepted
  · obtain hlong | honly := honly _ hmem
    · exact absurd hmem (hsingle hlong).2
    · exact arrayParts_ok ((hone _ honly).2.1 rfl) haccepted

/-- A node that passes `validate_node` is a union, or it is plain. -/
theorem Accepted.cases {node : Json} (h : Accepted host depth node) :
    ∃ s rest, node = .obj s ∧ depth = rest + 1 ∧ keysIn s schemaKeys = true ∧
      ((∃ branches, UnionNode host rest s branches) ∨ PlainNode host rest s) := by
  obtain ⟨root, seen, seen', h⟩ := h
  unfold validateNode at h
  split at h
  · cases h
  · rename_i s rest
    obtain ⟨⟨mid, children⟩, hparts, hchildren⟩ := bind_eq_ok.1 h
    have haccepted : ChildrenAccepted host rest children := by
      intro child hchild
      obtain ⟨c, c', hrun⟩ := of_foldlM_ok hchildren child hchild
      obtain ⟨⟨⟩, -, hrun⟩ := bind_eq_ok.1 hrun
      exact ⟨child.root, c, c', hrun⟩
    have hkeys : keysIn s schemaKeys = true := by
      obtain ⟨⟨⟩, hkeys, -⟩ := bind_eq_ok.1 hparts
      exact ensure_eq_ok.1 hkeys
    refine ⟨s, rest, rfl, rfl, hkeys, ?_⟩
    cases hunion : Dict.get? s (lit "oneOf") with
    | none => exact .inr (plainNode_of_parts hunion hparts haccepted)
    | some value =>
      simp only [nodeParts, hunion] at hparts
      obtain ⟨⟨⟩, -, hparts⟩ := bind_eq_ok.1 hparts
      obtain ⟨⟨⟩, -, hparts⟩ := bind_eq_ok.1 hparts
      obtain ⟨found, hfound, hparts⟩ := bind_eq_ok.1 hparts
      cases hparts
      obtain ⟨⟨⟩, hkeys', hfound⟩ := bind_eq_ok.1 hfound
      cases value with
      | arr branches =>
        obtain ⟨⟨⟩, -, hfound⟩ := bind_eq_ok.1 hfound
        cases hfound
        refine .inl ⟨branches, hunion, ensure_eq_ok.1 hkeys', fun branch hbranch => ?_⟩
        exact haccepted _ (List.mem_map.2 ⟨branch, hbranch, rfl⟩)
      | _ => cases hfound
  · cases h

end CodexFlow.Schema
