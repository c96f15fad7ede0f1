import CodexFlow.Schema.Measure

/-!
# Nodes that are no union

What the checks of one node say of its keywords: a value passes them exactly where every keyword of
the node holds, but for the multiples, and for what is handed on to the schemas in the node.
-/

namespace CodexFlow.Schema

open Hook (PyStr Json Dict lit)
open Checked

variable {host : Host} {others : Vocabulary} {s : Dict} {depth seen mid : ℕ} {v : Json}
  {path type : PyStr} {parts : List Handed}

/-! ### Types -/

theorem matchesType_of_hasType (h : HasType v type) : matchesType host v type = true := by
  cases v with
  | int n =>
    obtain rfl | rfl := h
    · rfl
    · rfl
  | _ =>
    cases h
    rfl

theorem hasType_of_matchesType (h : matchesType host v type = true)
    (hknown : isObj v = false ∨ type ∈ knownTypes) : HasType v type := by
  unfold matchesType at h
  split_ifs at h with hnull hbool hint hnumber hstring harray
  · cases v with
    | null => exact hnull
    | _ => cases h
  · cases v with
    | bool b => exact hbool
    | _ => cases h
  · cases v with
    | int n => exact .inl hint
    | _ => cases h
  · cases v with
    | int n => exact .inr hnumber
    | float literal => exact hnumber
    | _ => cases h
  · cases v with
    | str content => exact hstring
    | _ => cases h
  · cases v with
    | arr items => exact harray
    | _ => cases h
  · cases v with
    | obj fields =>
      obtain hobj | hknown := hknown
      · cases hobj
      · simp only [knownTypes, List.mem_cons, List.not_mem_nil, or_false] at hknown
        obtain rfl | rfl | rfl | rfl | rfl | rfl | rfl := hknown
        · rfl
        · exact absurd rfl harray
        · exact absurd rfl hstring
        · exact absurd rfl hbool
        · exact absurd rfl hnumber
        · exact absurd rfl hint
        · exact absurd rfl hnull
    | _ => cases h

/-- The values that a constant without a type may have are scalars. -/
def isScalar : Json → Bool
  | .arr _ | .obj _ => false
  | _ => true

theorem isScalar_of_same {constant : Json} (h : SameInstance host v constant)
    (htype : inferredType constant = some type) : isScalar v = true := by
  cases h with
  | arr => cases htype
  | obj => cases htype
  | number hleft _ => cases v <;> first | rfl | cases hleft
  | _ => rfl

/-- The types of the values are those of the schema, except for a constant's. -/
theorem valueTypes_cases (htypes : schemaTypes s ≠ []) :
    valueTypes s = schemaTypes s ∨
      ∃ constant type, s.get? (lit "const") = some constant ∧ inferredType constant = some type ∧
        schemaTypes s = [type] := by
  have hconstant : schemaTypes s = constantTypes s →
      ∃ constant type, s.get? (lit "const") = some constant ∧ inferredType constant = some type ∧
        schemaTypes s = [type] := by
    intro h
    rw [h] at htypes ⊢
    unfold constantTypes at htypes ⊢
    cases hget : s.get? (lit "const") with
    | none =>
      rw [hget] at htypes
      exact absurd rfl htypes
    | some constant =>
      rw [hget] at htypes
      cases hinferred : inferredType constant with
      | none =>
        dsimp only at htypes
        rw [hinferred] at htypes
        exact absurd rfl htypes
      | some type => exact ⟨constant, type, rfl, hinferred, by dsimp only; rw [hinferred]; rfl⟩
  unfold schemaTypes valueTypes at *
  cases hget : s.get (lit "type") with
  | str type => exact .inl rfl
  | arr types =>
    rw [hget] at hconstant
    by_cases hall : (types.all fun type => type.asStr.isSome) = true
    · left
      dsimp only
      rw [if_pos hall]
      rw [List.all_eq_true] at hall
      clear hconstant hget htypes
      induction types with
      | nil => rfl
      | cons type types ih =>
        obtain ⟨htype, hall⟩ := List.forall_mem_cons.1 hall
        obtain ⟨name, hname⟩ := Option.isSome_iff_exists.1 htype
        rw [List.map_cons, List.filterMap_cons, hname, ih hall]
        rfl
    · right
      refine hconstant ?_
      dsimp only
      rw [if_neg hall]
  | _ =>
    rw [hget] at hconstant
    exact .inr (hconstant rfl)

/-- What the first check of a node leaves: a type of the node that the value has. -/
structure Typed (host : Host) (s : Dict) (v : Json) (type : PyStr) : Prop where
  mem : type ∈ valueTypes s
  isType : matchesType host v type = true
  const : ∀ constant, s.get? (lit "const") = some constant → SameInstance host v constant

namespace Typed

variable (h : Typed host s v type) (hnode : PlainNode host depth s)
include h hnode

theorem mem_types (hv : isScalar v = false) : type ∈ schemaTypes s := by
  obtain heq | ⟨constant, name, hget, htype, -⟩ := valueTypes_cases hnode.types
  · exact heq ▸ h.mem
  · have hscalar := isScalar_of_same (h.const constant hget) htype
    rw [hv] at hscalar
    cases hscalar

theorem hasType : HasType v type := by
  refine hasType_of_matchesType h.isType ?_
  cases v with
  | obj fields => exact .inr (hnode.known _ (h.mem_types hnode rfl))
  | _ => exact .inl rfl

theorem string_mem {content : PyStr} (hv : v = .str content) : lit "string" ∈ schemaTypes s := by
  subst hv
  obtain heq | ⟨constant, name, hget, htype, honly⟩ := valueTypes_cases hnode.types
  · have hstring : type = lit "string" := h.hasType hnode
    exact hstring ▸ heq ▸ h.mem
  · rw [honly, List.mem_singleton]
    cases h.const constant hget with
    | str => exact Option.some.inj htype
    | number hleft _ => cases hleft

theorem number_mem {q : ℚ} (hq : number? host v = some q) :
    lit "number" ∈ schemaTypes s ∨ lit "integer" ∈ schemaTypes s := by
  obtain heq | ⟨constant, name, hget, htype, honly⟩ := valueTypes_cases hnode.types
  · have hmem := h.mem
    have hnumber := h.hasType hnode
    rw [heq] at hmem
    cases v with
    | int n =>
      obtain rfl | rfl := hnumber
      · exact .inr hmem
      · exact .inl hmem
    | float literal =>
      obtain rfl : type = lit "number" := hnumber
      exact .inl hmem
    | _ => cases hq
  · rw [honly, List.mem_singleton, List.mem_singleton]
    cases h.const constant hget with
    | number _ hright =>
      cases constant with
      | int n => exact .inr (Option.some.inj htype)
      | float literal => exact .inl (Option.some.inj htype)
      | _ => cases hright
    | _ => cases hq

theorem typeAllows : ∀ types, s.get? (lit "type") = some types → TypeAllows v types := by
  intro types htypes
  have htype := h.hasType hnode
  have hmem := h.mem
  unfold valueTypes at hmem
  rw [get_of_get? htypes] at hmem
  cases types with
  | str name =>
    obtain rfl := List.mem_singleton.1 hmem
    exact htype
  | arr names =>
    obtain ⟨entry, hentry, hname⟩ := List.mem_map.1 hmem
    cases entry with
    | str name =>
      obtain rfl : name = type := hname
      exact ⟨name, hentry, htype⟩
    | _ =>
      obtain rfl : [] = type := hname
      cases v <;> (obtain h | h := htype <;> cases h)
  | _ => trivial

end Typed

/-! ### Limits -/

theorem limit?_eq_some {key : String} {q : ℚ} :
    limit? host s key = some q ↔
      ∃ value, s.get? (lit key) = some value ∧ number? host value = some q :=
  Option.bind_eq_some_iff

theorem compared_of_number {value : Json} {q : ℚ} (h : number? host value = some q) :
    compared host value = .ok q := by
  cases value <;> cases h <;> rfl

theorem within_ok {low high : String} {maximum size : ℕ} {error : Raised}
    (h : within host s low high maximum size error = .ok ()) :
    (∀ n, limit? host s low = some n → n ≤ size) ∧ ∀ n, limit? host s high = some n → size ≤ n := by
  simp only [within, bind_eq_ok, ensure_eq_ok] at h
  obtain ⟨least, hleast, ⟨⟩, hlow, most, hmost, hhigh⟩ := h
  constructor
  · intro n hn
    obtain ⟨value, hvalue, hnumber⟩ := limit?_eq_some.1 hn
    rw [hvalue, Option.getD_some, compared_of_number hnumber] at hleast
    cases hleast
    exact hlow
  · intro n hn
    obtain ⟨value, hvalue, hnumber⟩ := limit?_eq_some.1 hn
    rw [hvalue, Option.getD_some, compared_of_number hnumber] at hmost
    cases hmost
    exact hhigh

theorem size_le_of_within {low high : String} {maximum size : ℕ} {error : Raised}
    (h : within host s low high maximum size error = .ok ()) (hmost : BoundedBy s high maximum) :
    size ≤ maximum := by
  cases hget : s.get? (lit high) with
  | none =>
    simp only [within, bind_eq_ok, ensure_eq_ok, hget, Option.getD_none] at h
    obtain ⟨-, -, ⟨⟩, -, most, hvalue, hle⟩ := h
    cases hvalue
    exact_mod_cast hle
  | some value =>
    obtain ⟨n, rfl, hn⟩ := hmost value hget
    have hle := (within_ok h).2 n (limit?_eq_some.2 ⟨_, hget, rfl⟩)
    have hle : (size : ℤ) ≤ n := by exact_mod_cast hle
    omega

theorem not_refused_compared {value : Json} : ¬Refused (compared host value) := by
  cases value with
  | int n => exact not_refused_ok
  | float literal => exact not_refused_ok
  | bool b => exact not_refused_ok
  | _ => exact not_refused_error rfl

theorem not_refused_within {low high : String} {maximum size : ℕ} {error : Raised}
    (hleast : IsNumeric host s low) (hmost : IsNumeric host s high)
    (hlow : ∀ n, limit? host s low = some n → n ≤ size)
    (hhigh : ∀ n, limit? host s high = some n → size ≤ n) (hsize : size ≤ maximum) :
    ¬Refused (within host s low high maximum size error) := by
  refine not_refused_bind not_refused_compared fun least hvalue => ?_
  refine not_refused_bind (not_refused_ensure ?_) fun _ _ => ?_
  · cases hget : s.get? (lit low) with
    | none =>
      rw [hget] at hvalue
      cases hvalue
      simp
    | some value =>
      obtain ⟨q, hq⟩ := hleast value hget
      rw [hget, Option.getD_some, compared_of_number hq] at hvalue
      cases hvalue
      exact hlow least (limit?_eq_some.2 ⟨value, hget, hq⟩)
  · refine not_refused_bind not_refused_compared fun most hvalue => not_refused_ensure ?_
    cases hget : s.get? (lit high) with
    | none =>
      rw [hget] at hvalue
      cases hvalue
      exact_mod_cast hsize
    | some value =>
      obtain ⟨q, hq⟩ := hmost value hget
      rw [hget, Option.getD_some, compared_of_number hq] at hvalue
      cases hvalue
      exact hhigh most (limit?_eq_some.2 ⟨value, hget, hq⟩)

theorem bounded_of_number {key : String} {value : Json} {q : ℚ} {holds : ℚ → Bool} {error : Raised}
    (hvalue : s.get? (lit key) = some value) (hnumber : number? host value = some q) :
    bounded host s key holds error = ensure (holds q = true) error := by
  have hcompared := compared_of_number hnumber
  unfold bounded
  rw [get_of_get? hvalue]
  cases value with
  | null => cases hnumber
  | _ =>
    dsimp only
    rw [hcompared, ok_bind]

theorem bounded_ok {key : String} {holds : ℚ → Bool} {error : Raised}
    (h : bounded host s key holds error = .ok ()) :
    ∀ n, limit? host s key = some n → holds n = true := by
  intro n hn
  obtain ⟨value, hvalue, hnumber⟩ := limit?_eq_some.1 hn
  rw [bounded_of_number hvalue hnumber] at h
  exact ensure_eq_ok.1 h

theorem not_refused_bounded {key : String} {holds : ℚ → Bool} {error : Raised}
    (hnumeric : IsNumeric host s key) (h : ∀ n, limit? host s key = some n → holds n = true) :
    ¬Refused (bounded host s key holds error) := by
  cases hget : s.get? (lit key) with
  | none =>
    unfold bounded
    have hnull : s.get (lit key) = .null := by
      unfold Dict.get
      rw [hget]
      rfl
    rw [hnull]
    exact not_refused_ok
  | some value =>
    obtain ⟨q, hq⟩ := hnumeric value hget
    rw [bounded_of_number hget hq]
    exact not_refused_ensure (h q (limit?_eq_some.2 ⟨value, hget, hq⟩))

/-! ### Numbers -/

/-- The number is a multiple of what the node asks for. -/
def MultipleHolds (host : Host) (s : Dict) (q : ℚ) : Prop :=
  ∀ m, limit? host s "multipleOf" = some m → ∃ k : ℤ, q = k * m

/-- The test of the interpreter tells a multiple from another number. -/
def MultipleExact (host : Host) (s : Dict) (v : Json) : Prop :=
  ∀ q multiple m holds, number? host v = some q → s.get? (lit "multipleOf") = some multiple →
    number? host multiple = some m → host.isMultiple v multiple = some holds →
    (holds = true ↔ ∃ k : ℤ, q = k * m)

theorem checkNumber'_ok {q : ℚ} (h : checkNumber' host s path v q = .ok ()) :
    (NumberKeywords host s q ↔ MultipleHolds host s q) ∧
      ∀ multiple, s.get? (lit "multipleOf") = some multiple → multiple = .null ∨
        host.isMultiple v multiple = some true := by
  obtain ⟨⟨⟩, hminimum, h⟩ := bind_eq_ok.1 h
  obtain ⟨⟨⟩, hmaximum, h⟩ := bind_eq_ok.1 h
  obtain ⟨⟨⟩, hlower, h⟩ := bind_eq_ok.1 h
  obtain ⟨⟨⟩, hupper, h⟩ := bind_eq_ok.1 h
  refine ⟨⟨NumberKeywords.multipleOf, fun hmultiple => ?_⟩, fun multiple hget => ?_⟩
  · exact ⟨hmultiple, fun m hm => of_decide_eq_true (bounded_ok hminimum m hm),
      fun m hm => of_decide_eq_true (bounded_ok hmaximum m hm),
      fun m hm => of_decide_eq_true (bounded_ok hlower m hm),
      fun m hm => of_decide_eq_true (bounded_ok hupper m hm)⟩
  · rw [get_of_get? hget] at h
    split at h
    · exact .inl rfl
    · split at h
      · cases h
      · rename_i holds hholds
        rw [ensure_eq_ok] at h
        exact .inr (h ▸ hholds)

theorem not_refused_checkNumber' {q : ℚ} (hq : number? host v = some q)
    (hnumeric : ∀ key ∈ numericNames, IsNumeric host s key) (hexact : MultipleExact host s v)
    (h : NumberKeywords host s q) : ¬Refused (checkNumber' host s path v q) := by
  refine not_refused_bind (not_refused_bounded (hnumeric _ (by decide)) fun m hm =>
    decide_eq_true (h.minimum m hm)) fun _ _ => ?_
  refine not_refused_bind (not_refused_bounded (hnumeric _ (by decide)) fun m hm =>
    decide_eq_true (h.maximum m hm)) fun _ _ => ?_
  refine not_refused_bind (not_refused_bounded (hnumeric _ (by decide)) fun m hm =>
    decide_eq_true (h.exclusiveMinimum m hm)) fun _ _ => ?_
  refine not_refused_bind (not_refused_bounded (hnumeric _ (by decide)) fun m hm =>
    decide_eq_true (h.exclusiveMaximum m hm)) fun _ _ => ?_
  split
  · exact not_refused_ok
  · rename_i multiple hnull
    split
    · exact not_refused_error rfl
    · rename_i holds hholds
      have hget : s.get? (lit "multipleOf") = some (s.get (lit "multipleOf")) :=
        get?_of_get rfl hnull
      obtain ⟨m, hm⟩ := hnumeric "multipleOf" (by decide) _ hget
      refine not_refused_ensure ((hexact q _ m holds hq hget hm hholds).2 ?_)
      exact h.multipleOf m (limit?_eq_some.2 ⟨_, hget, hm⟩)

/-! ### Strings -/

theorem stringKeywords_of_ok {content : PyStr} (h : checkString' host s path content = .ok ()) :
    StringKeywords host s content := by
  obtain ⟨⟨⟩, hwithin, h⟩ := bind_eq_ok.1 h
  obtain ⟨hleast, hmost⟩ := within_ok hwithin
  refine ⟨hleast, hmost, fun pattern hpattern => ?_⟩
  rw [get_of_get? hpattern] at h
  exact ensure_eq_ok.1 h

theorem not_refused_checkString' {content : PyStr}
    (hnumeric : IsNumeric host s "minLength" ∧ IsNumeric host s "maxLength")
    (hsmall : content.length ≤ maxStructuredOutputBytes) (h : StringKeywords host s content) :
    ¬Refused (checkString' host s path content) := by
  refine not_refused_bind (not_refused_within hnumeric.1 hnumeric.2 h.minLength h.maxLength hsmall)
    fun _ _ => ?_
  split
  · rename_i pattern hpattern
    exact not_refused_ensure (h.pattern pattern (get?_of_get hpattern nofun))
  · exact not_refused_ok

/-! ### Comparisons -/

/-- What a node hands on of a value: the schemas in the node, each with a part of the value. -/
inductive Compared : Json × Json → Json × Json → Prop
  | item {s : Dict} {items : List Json} {child item : Json} (noUnion : s.get? (lit "oneOf") = none)
      (hs : s.get? (lit "items") = some child) (h : item ∈ items) :
      Compared (.obj s, .arr items) (child, item)
  | property {s properties fields : Dict} {child : Json} {field : PyStr × Json}
      (noUnion : s.get? (lit "oneOf") = none)
      (hs : s.get? (lit "properties") = some (.obj properties)) (h : field ∈ fields)
      (hchild : properties.get? field.1 = some child) :
      Compared (.obj s, .obj fields) (child, field.2)
  | name {s fields : Dict} {child : Json} {field : PyStr × Json}
      (noUnion : s.get? (lit "oneOf") = none) (hs : s.get? (lit "propertyNames") = some child)
      (h : field ∈ fields) : Compared (.obj s, .obj fields) (child, .str field.1)
  | additional {s fields : Dict} {child : Json} {field : PyStr × Json}
      (noUnion : s.get? (lit "oneOf") = none)
      (hs : s.get? (lit "additionalProperties") = some child) (h : field ∈ fields)
      (hother : declares s field.1 = false) : Compared (.obj s, .obj fields) (child, field.2)

/-- What is handed on, for a value of one of the two structured types. -/
structure HandsOn (host : Host) (depth : ℕ) (s : Dict) (v : Json) (parts : List Handed) : Prop where
  accepted : ∀ part ∈ parts, Accepted host depth part.node
  compared : ∀ part ∈ parts, Compared (.obj s, v) (part.node, part.item)
  inside : ∀ part ∈ parts, Part v part.item
  all : ∀ item, Part v item → (∃ content, item = .str content) ∨ ∃ part ∈ parts, part.item = item
  handed : ∀ pair, Compared (.obj s, v) pair → isObj pair.1 = false ∨
    ∃ part ∈ parts, pair = (part.node, part.item)

def weight (parts : List Handed) : ℕ := (parts.map fun part => members part.item).sum

/-! ### Arrays -/

section Arrays

variable {items : List Json}

theorem truthy_unique (hunique : (s.get? (lit "uniqueItems")).all (· matches .bool _) = true) :
    truthy host ((s.get? (lit "uniqueItems")).getD (.bool false)) = true ↔
      s.get? (lit "uniqueItems") = some (.bool true) := by
  cases hget : s.get? (lit "uniqueItems") with
  | none => simp [truthy]
  | some value =>
    rw [hget] at hunique
    cases value with
    | bool b => simp [truthy]
    | _ => cases hunique

theorem pairwise_unique :
    (items.Pairwise fun left right => instanceEqual host left right = false) ↔
      items.Pairwise fun left right => ¬SameInstance host left right := by
  have hiff : ∀ left right, instanceEqual host left right = false ↔ ¬SameInstance host left right := by
    intro left right
    rw [← instanceEqual_iff, Bool.not_eq_true]
  simp only [hiff]

theorem itemsHanded_ok (hnode : ArrayNode host depth s) (hunion : s.get? (lit "oneOf") = none)
    (h : itemsHanded host s path items = .ok parts) :
    HandsOn host depth s (.arr items) parts ∧ weight parts = (items.map members).sum ∧
      items.length ≤ maxOutputArrayItems ∧
      ∀ sat, ArrayKeywords host sat s items ↔ ∀ part ∈ parts, sat part.node part.item := by
  obtain ⟨child, hchild, haccepted⟩ := hnode.items
  obtain ⟨⟨⟩, hwithin, h⟩ := bind_eq_ok.1 h
  obtain ⟨⟨⟩, hunique, h⟩ := bind_eq_ok.1 h
  obtain ⟨found, hfound, h⟩ := bind_eq_ok.1 h
  have hsame : subscript s "items" = .ok child := by
    unfold subscript
    rw [hchild]
    rfl
  obtain rfl := Except.ok.inj (hfound.symm.trans hsame)
  cases h
  obtain ⟨hleast, hmost⟩ := within_ok hwithin
  have hmem : ∀ part ∈ items.zipIdx.map (fun entry : Json × ℕ =>
      (⟨path ++ lit "[" ++ Capsule.decimal entry.2 ++ lit "]", entry.1, found⟩ : Handed)),
      part.node = found ∧ part.item ∈ items := by
    intro part hpart
    obtain ⟨⟨item, index⟩, hentry, rfl⟩ := List.mem_map.1 hpart
    exact ⟨rfl, (List.mem_zipIdx' hentry).2 ▸ List.getElem_mem _⟩
  have hitem : ∀ item ∈ items, ∃ part ∈ items.zipIdx.map (fun entry : Json × ℕ =>
      (⟨path ++ lit "[" ++ Capsule.decimal entry.2 ++ lit "]", entry.1, found⟩ : Handed)),
      part.item = item ∧ part.node = found := by
    intro item hitem
    obtain ⟨index, hindex, rfl⟩ := List.getElem_of_mem hitem
    exact ⟨_, List.mem_map.2 ⟨(items[index], index),
      List.mem_zipIdx_iff_getElem?.2 (List.getElem?_eq_getElem hindex), rfl⟩, rfl, rfl⟩
  refine ⟨⟨?_, ?_, ?_, ?_, ?_⟩, ?_, size_le_of_within hwithin hnode.most, fun sat => ⟨?_, ?_⟩⟩
  · exact fun part hpart => (hmem part hpart).1 ▸ haccepted
  · intro part hpart
    rw [(hmem part hpart).1]
    exact .item hunion hchild (hmem part hpart).2
  · exact fun part hpart => .item (hmem part hpart).2
  · intro item hpart
    cases hpart with
    | item hin =>
      obtain ⟨part, hpart, hsame, -⟩ := hitem item hin
      exact .inr ⟨part, hpart, hsame⟩
  · intro pair hpair
    cases hpair with
    | item _ hs hin =>
      obtain rfl := Option.some.inj (hs.symm.trans hchild)
      obtain ⟨part, hpart, rfl, rfl⟩ := hitem _ hin
      exact .inr ⟨part, hpart, rfl⟩
  · unfold weight
    rw [List.map_map]
    show (items.zipIdx.map (members ∘ Prod.fst)).sum = _
    rw [← List.map_map, List.zipIdx_map_fst]
  · intro hkeywords part hpart
    rw [(hmem part hpart).1]
    exact hkeywords.items found hchild _ (hmem part hpart).2
  · intro hall
    refine ⟨hleast, hmost, fun hget => ?_, fun other hother item hin => ?_⟩
    · exact pairwise_unique.1 (ensure_eq_ok.1 hunique ((truthy_unique hnode.unique).2 hget))
    · obtain rfl := Option.some.inj (hother.symm.trans hchild)
      obtain ⟨part, hpart, rfl, rfl⟩ := hitem item hin
      exact hall part hpart

theorem not_refused_itemsHanded (hnode : ArrayNode host depth s)
    {sat : Json → Json → Prop} (h : ArrayKeywords host sat s items)
    (hsize : items.length ≤ maxOutputArrayItems) : ¬Refused (itemsHanded host s path items) := by
  obtain ⟨child, hchild, -⟩ := hnode.items
  refine not_refused_bind (not_refused_within hnode.least hnode.most.isNumeric h.minItems h.maxItems
    hsize) fun _ _ => ?_
  refine not_refused_bind (not_refused_ensure fun htrue => pairwise_unique.2 (h.uniqueItems
    ((truthy_unique hnode.unique).1 htrue))) fun _ _ => ?_
  unfold subscript
  rw [hchild]
  exact not_refused_ok

end Arrays

end CodexFlow.Schema
