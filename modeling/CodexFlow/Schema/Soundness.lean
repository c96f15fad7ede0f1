import CodexFlow.Schema.Objects

/-!
# Soundness of structured outputs

A value that the validator accepts satisfies its schema exactly where the validator's own readings
are those of the Draft: of the keywords beside a union, of multiples, and of a constant without a
type.
-/

namespace CodexFlow.Schema

open Hook (PyStr Json Dict lit)
open Checked

variable {host : Host} {others : Vocabulary} {s : Dict} {depth seen seen' mid : ℕ} {v node : Json}
  {path type : PyStr} {parts : List Handed} {branches : List Json}

/-! ### A node that is no union -/

theorem checkChoices_ok (h : checkChoices host s path v = .ok ()) :
    (∀ constant, s.get? (lit "const") = some constant → SameInstance host v constant) ∧
      ∀ choices, s.get? (lit "enum") = some (.arr choices) →
        ∃ choice ∈ choices, SameInstance host v choice := by
  obtain ⟨⟨⟩, hconst, h⟩ := bind_eq_ok.1 h
  rw [ensure_eq_ok] at hconst
  constructor
  · intro constant hget
    rw [hget, Option.all_some] at hconst
    exact (instanceEqual_iff v constant).1 hconst
  · intro choices hget
    rw [hget] at h
    obtain ⟨choice, hmem, hsame⟩ := List.any_eq_true.1 (ensure_eq_ok.1 h)
    exact ⟨choice, hmem, (instanceEqual_iff v choice).1 hsame⟩

theorem not_refused_checkChoices
    (hconst : ∀ constant, s.get? (lit "const") = some constant → SameInstance host v constant)
    (henum : ∀ choices, s.get? (lit "enum") = some (.arr choices) →
      ∃ choice ∈ choices, SameInstance host v choice) : ¬Refused (checkChoices host s path v) := by
  refine not_refused_bind (not_refused_ensure ?_) fun _ _ => ?_
  · cases hget : s.get? (lit "const") with
    | none => rfl
    | some constant => exact (instanceEqual_iff v constant).2 (hconst constant hget)
  · split
    · rename_i choices hget
      obtain ⟨choice, hmem, hsame⟩ := henum choices hget
      exact not_refused_ensure
        (List.any_eq_true.2 ⟨choice, hmem, (instanceEqual_iff v choice).2 hsame⟩)
    · exact not_refused_error rfl
    · exact not_refused_ok

/-- What the keywords for values of one type ask. -/
structure TypedKeywords (host : Host) (others : Vocabulary) (s : Dict) (v : Json) : Prop where
  number : ∀ q, number? host v = some q → NumberKeywords host s q
  string : ∀ text, v = .str text → StringKeywords host s text
  array : ∀ items, v = .arr items → ArrayKeywords host (Satisfies host others) s items
  object : ∀ fields, v = .obj fields → ObjectKeywords host (Satisfies host others) s fields

def MultiplesHold (host : Host) (s : Dict) (v : Json) : Prop :=
  ∀ q, number? host v = some q → MultipleHolds host s q

/-- What a node that is no union leaves of a value that passes its checks. -/
structure Passed (host : Host) (others : Vocabulary) (depth : ℕ) (s : Dict) (v : Json)
    (seen mid : ℕ) (parts : List Handed) : Prop where
  hands : HandsOn host depth s v parts
  weight : mid + weight parts = seen + members v
  counted : seen ≤ maxOutputSchemaProperties → mid ≤ maxOutputSchemaProperties
  sized : Sized v
  keywords : TypedKeywords host others s v ↔
    MultiplesHold host s v ∧ ∀ part ∈ parts, Satisfies host others part.node part.item
  multiple : ∀ q multiple, number? host v = some q → s.get? (lit "multipleOf") = some multiple →
    multiple = .null ∨ host.isMultiple v multiple = some true

/-- A value that is neither an array nor an object hands nothing on. -/
theorem handsOn_nil (hv : isScalar v = true) : HandsOn host depth s v [] where
  accepted := nofun
  compared := nofun
  inside := nofun
  all item hitem := by cases hitem <;> cases hv
  handed pair hpair := by cases hpair <;> cases hv

theorem members_scalar (hv : isScalar v = true) : members v = 0 := by
  cases v <;> first | rfl | cases hv

theorem sized_scalar (hv : isScalar v = true) : Sized v where
  items := fun items h => by subst h; cases hv
  fields := fun fields h => by subst h; cases hv

theorem passed_scalar (hv : isScalar v = true)
    (hnumber : MultiplesHold host s v → ∀ q, number? host v = some q → NumberKeywords host s q)
    (hstring : ∀ text, v = .str text → StringKeywords host s text)
    (hmultiple : ∀ q multiple, number? host v = some q →
      s.get? (lit "multipleOf") = some multiple →
        multiple = .null ∨ host.isMultiple v multiple = some true) :
    Passed host others depth s v seen seen [] where
  hands := handsOn_nil hv
  weight := by rw [members_scalar hv]; rfl
  counted := id
  sized := sized_scalar hv
  keywords := by
    constructor
    · exact fun h => ⟨fun q hq => (h.number q hq).multipleOf, nofun⟩
    · rintro ⟨hmultiples, -⟩
      refine ⟨hnumber hmultiples, hstring, fun items h => ?_, fun fields h => ?_⟩
      · subst h
        cases hv
      · subst h
        cases hv
  multiple := hmultiple

theorem passed_of_typedParts (hnode : PlainNode host depth s) (htyped : Typed host s v type)
    (h : typedParts host s path type v seen = .ok (mid, parts)) :
    Passed host others depth s v seen mid parts := by
  have htype := htyped.hasType hnode
  have hnumber : ∀ q, number? host v = some q → type = lit "number" ∨ type = lit "integer" →
      checkNumber' host s path v q = .ok () → Passed host others depth s v seen seen [] := by
    intro q hq _ hcheck
    obtain ⟨hiff, hmultiple⟩ := checkNumber'_ok hcheck
    have hv : isScalar v = true := by cases v <;> first | rfl | cases hq
    refine passed_scalar hv (fun hmultiples q' hq' => ?_) (fun text hv => ?_)
      fun q' multiple _ => hmultiple multiple
    · obtain rfl := Option.some.inj (hq.symm.trans hq')
      exact hiff.2 (hmultiples q hq)
    · subst hv
      cases hq
  cases v with
  | null =>
    cases h
    exact passed_scalar rfl nofun nofun nofun
  | bool b =>
    cases h
    exact passed_scalar rfl nofun nofun nofun
  | int n =>
    simp only [typedParts, number?, if_pos (htype.symm)] at h
    obtain ⟨⟨⟩, hcheck, h⟩ := bind_eq_ok.1 h
    cases h
    exact hnumber n rfl htype.symm hcheck
  | float literal =>
    simp only [typedParts, number?, if_pos (show type = lit "number" ∨ _ from .inl htype)] at h
    obtain ⟨⟨⟩, hcheck, h⟩ := bind_eq_ok.1 h
    cases h
    exact hnumber _ rfl (.inl htype) hcheck
  | str content =>
    simp only [typedParts, if_pos (show type = lit "string" from htype)] at h
    obtain ⟨⟨⟩, hcheck, h⟩ := bind_eq_ok.1 h
    cases h
    refine passed_scalar rfl (fun _ => nofun) (fun text htext => ?_) nofun
    cases htext
    exact stringKeywords_of_ok hcheck
  | arr items =>
    simp only [typedParts, if_pos (show type = lit "array" from htype)] at h
    obtain ⟨handed, hhanded, h⟩ := bind_eq_ok.1 h
    cases h
    have harray : lit "array" ∈ schemaTypes s := by
      have hmem := htyped.mem_types hnode rfl
      rwa [show type = lit "array" from htype] at hmem
    obtain ⟨hhands, hweight, hsize, hkeywords⟩ :=
      itemsHanded_ok (hnode.array harray) hnode.noUnion hhanded
    refine ⟨hhands, ?_, id, ⟨fun _ hitems => ?_, nofun⟩, ⟨fun hall => ?_, fun hall => ?_⟩, nofun⟩
    · rw [hweight, members_arr]
    · cases hitems
      exact hsize
    · exact ⟨nofun, (hkeywords _).1 (hall.array items rfl)⟩
    · refine ⟨nofun, nofun, fun other hother => ?_, nofun⟩
      cases hother
      exact (hkeywords _).2 hall.2
  | obj fields =>
    simp only [typedParts, if_pos (show type = lit "object" from htype)] at h
    obtain ⟨⟨⟩, hwithin, h⟩ := bind_eq_ok.1 h
    obtain ⟨⟨⟩, hcounted, h⟩ := bind_eq_ok.1 h
    obtain ⟨handed, hhanded, h⟩ := bind_eq_ok.1 h
    cases h
    have hobject : lit "object" ∈ schemaTypes s := by
      have hmem := htyped.mem_types hnode rfl
      rwa [show type = lit "object" from htype] at hmem
    have hobjectNode := hnode.object hobject
    obtain ⟨hhands, hweight, hkeywords⟩ :=
      @fieldsHanded_ok _ others _ _ _ _ _ hobjectNode hnode.noUnion hhanded
    obtain ⟨hleast, hmost⟩ := within_ok hwithin
    have hkeywords := hkeywords ⟨hleast, hmost⟩
    refine ⟨hhands, ?_, fun _ => ensure_eq_ok.1 hcounted, ⟨nofun, fun _ hfields => ?_⟩,
      ⟨fun hall => ?_, fun hall => ?_⟩, nofun⟩
    · rw [hweight, members_obj, Nat.add_assoc]
    · cases hfields
      exact size_le_of_within hwithin hobjectNode.most
    · exact ⟨nofun, hkeywords.1 (hall.object fields rfl)⟩
    · refine ⟨nofun, nofun, nofun, fun other hother => ?_⟩
      cases hother
      exact hkeywords.2 hall.2

theorem not_refused_typedParts (hnode : PlainNode host depth s) (htyped : Typed host s v type)
    (hexact : MultipleExact host s v) (hsmall : SmallString v) (hsized : Sized v)
    (hseen : seen + members v ≤ maxOutputSchemaProperties)
    (h : TypedKeywords host others s v) : ¬Refused (typedParts host s path type v seen) := by
  have htype := htyped.hasType hnode
  cases v with
  | null => exact not_refused_ok
  | bool b => exact not_refused_ok
  | int n =>
    simp only [typedParts, number?, if_pos (htype.symm)]
    refine not_refused_bind ?_ fun _ _ => not_refused_ok
    exact not_refused_checkNumber' rfl (hnode.number (htyped.number_mem hnode rfl)) hexact
      (h.number n rfl)
  | float literal =>
    simp only [typedParts, number?, if_pos (show type = lit "number" ∨ _ from .inl htype)]
    refine not_refused_bind ?_ fun _ _ => not_refused_ok
    exact not_refused_checkNumber' rfl (hnode.number (htyped.number_mem hnode rfl)) hexact
      (h.number _ rfl)
  | str content =>
    simp only [typedParts, if_pos (show type = lit "string" from htype)]
    refine not_refused_bind ?_ fun _ _ => not_refused_ok
    exact not_refused_checkString' (hnode.string (htyped.string_mem hnode rfl)) (hsmall _ rfl)
      (h.string _ rfl)
  | arr items =>
    simp only [typedParts, if_pos (show type = lit "array" from htype)]
    have harray : lit "array" ∈ schemaTypes s := by
      have hmem := htyped.mem_types hnode rfl
      rwa [show type = lit "array" from htype] at hmem
    refine not_refused_bind ?_ fun _ _ => not_refused_ok
    exact not_refused_itemsHanded (hnode.array harray) (h.array items rfl) (hsized.items _ rfl)
  | obj fields =>
    simp only [typedParts, if_pos (show type = lit "object" from htype)]
    have hobject : lit "object" ∈ schemaTypes s := by
      have hmem := htyped.mem_types hnode rfl
      rwa [show type = lit "object" from htype] at hmem
    have hobjectNode := hnode.object hobject
    have hkeywords := h.object fields rfl
    rw [members_obj] at hseen
    refine not_refused_bind (not_refused_within hobjectNode.least hobjectNode.most.isNumeric
      hkeywords.minProperties hkeywords.maxProperties (hsized.fields _ rfl)) fun _ _ => ?_
    refine not_refused_bind (not_refused_ensure (by omega)) fun _ _ => ?_
    exact not_refused_bind (not_refused_fieldsHanded hobjectNode hkeywords)
      fun _ _ => not_refused_ok

theorem satisfies_iff_typed (hnode : PlainNode host depth s) (hkeys : keysIn s schemaKeys = true)
    (htype : ∀ types, s.get? (lit "type") = some types → TypeAllows v types)
    (hconst : ∀ constant, s.get? (lit "const") = some constant → SameInstance host v constant)
    (henum : ∀ choices, s.get? (lit "enum") = some (.arr choices) →
      ∃ choice ∈ choices, SameInstance host v choice) :
    Satisfies host others (.obj s) v ↔ TypedKeywords host others s v := by
  rw [satisfies_obj]
  refine ⟨fun h => ⟨h.number, h.string, h.array, h.object⟩, fun h => ?_⟩
  refine ⟨htype, hconst, henum, h.number, h.string, h.array, h.object, ?_, ?_⟩
  · intro branches hget
    rw [hnode.noUnion] at hget
    cases hget
  · intro field hfield hkey
    exact absurd (of_decide_eq_true (List.all_eq_true.1 hkeys field hfield)) hkey

theorem valueParts_ok (hnode : PlainNode host depth s) (hkeys : keysIn s schemaKeys = true)
    (h : valueParts host s path v seen = .ok (mid, parts)) :
    (∃ type, Typed host s v type) ∧ Passed host others depth s v seen mid parts ∧
      (Satisfies host others (.obj s) v ↔
        MultiplesHold host s v ∧ ∀ part ∈ parts, Satisfies host others part.node part.item) := by
  unfold valueParts at h
  split at h
  · cases h
  · rename_i type types hfilter
    obtain ⟨⟨⟩, hchoices, h⟩ := bind_eq_ok.1 h
    obtain ⟨hconst, henum⟩ := checkChoices_ok hchoices
    have hmem : type ∈ (valueTypes s).filter (matchesType host v) := by
      rw [hfilter]
      exact List.mem_cons_self
    obtain ⟨hmem, htype⟩ := List.mem_filter.1 hmem
    have htyped : Typed host s v type := ⟨hmem, htype, hconst⟩
    have hpassed := @passed_of_typedParts _ others _ _ _ _ _ _ _ _ hnode htyped h
    have hsatisfies :=
      @satisfies_iff_typed _ others _ _ _ hnode hkeys (htyped.typeAllows hnode) hconst henum
    exact ⟨⟨type, htyped⟩, hpassed, hsatisfies.trans hpassed.keywords⟩

/-! ### The validator's own readings -/

/-- The node takes its type from its constant. -/
def infersType (s : Dict) : Bool :=
  match s.get (lit "type") with
  | .str _ | .arr _ => false
  | _ => true

/-- A constant integer whose type is inferred is no float of the same number. -/
def ConstantExact (host : Host) (s : Dict) (v : Json) : Prop :=
  infersType s = true → ∀ n literal, s.get? (lit "const") = some (.int n) → v = .float literal →
    host.value literal ≠ n

/-- The keywords that stand beside a union hold. -/
structure SiblingsHold (host : Host) (others : Vocabulary) (s : Dict) (v : Json) : Prop where
  type : ∀ types, s.get? (lit "type") = some types → TypeAllows v types
  required : ∀ fields names, v = .obj fields → s.get? (lit "required") = some (.arr names) →
    ∀ name, .str name ∈ names → Dict.has fields name = true
  properties : ∀ fields properties, v = .obj fields →
    s.get? (lit "properties") = some (.obj properties) → ∀ field ∈ fields, ∀ child,
      Dict.get? properties field.1 = some child → Satisfies host others child field.2

/-- The validator reads the node and the value as the Draft does. -/
structure ExactNode (host : Host) (others : Vocabulary) (s : Dict) (v : Json) : Prop where
  siblings : ∀ branches, s.get? (lit "oneOf") = some (.arr branches) → SiblingsHold host others s v
  multiple : s.get? (lit "oneOf") = none → MultipleExact host s v
  constant : s.get? (lit "oneOf") = none → ConstantExact host s v

/-- The same of a schema and the value that it is compared with. -/
def Exact (host : Host) (others : Vocabulary) (pair : Json × Json) : Prop :=
  ∀ s, pair.1 = .obj s → ExactNode host others s pair.2

theorem exact_of_not_obj {pair : Json × Json} (h : isObj pair.1 = false) : Exact host others pair := by
  intro s hs
  rw [hs] at h
  cases h

/-- The branches of a union, each with the value. -/
inductive Branch : Json × Json → Json × Json → Prop
  | mk {s : Dict} {branches : List Json} {branch v : Json}
      (hs : s.get? (lit "oneOf") = some (.arr branches)) (h : branch ∈ branches) :
      Branch (.obj s, v) (branch, v)

/-- Every schema and value that are compared, from a first pair on, those in branches included. -/
def Reached (first : Json × Json) : Json × Json → Prop :=
  Relation.ReflTransGen (fun pair next => Compared pair next ∨ Branch pair next) first

/-- A type of a value that satisfies the node is among those that the value is tried against. -/
theorem exists_matchesType (hnode : PlainNode host depth s) (hexact : ConstantExact host s v)
    (h : Keywords host others (Satisfies host others) s v) :
    ∃ type ∈ valueTypes s, matchesType host v type = true := by
  cases hget : s.get (lit "type") with
  | str name =>
    refine ⟨name, ?_, matchesType_of_hasType (h.type _ (get?_of_get hget nofun))⟩
    unfold valueTypes
    rw [hget]
    exact List.mem_singleton_self _
  | arr names =>
    obtain ⟨name, hname, htype⟩ := h.type _ (get?_of_get hget nofun)
    refine ⟨name, ?_, matchesType_of_hasType htype⟩
    unfold valueTypes
    rw [hget]
    exact List.mem_map.2 ⟨.str name, hname, rfl⟩
  | _ =>
    have hinfers : infersType s = true := by
      unfold infersType
      rw [hget]
    have hconstant : schemaTypes s = constantTypes s := by
      unfold schemaTypes
      rw [hget]
    have htypes := hnode.types
    rw [hconstant] at htypes
    unfold constantTypes at htypes
    split at htypes
    · rename_i constant hconst
      have hvalue : valueTypes s = [(inferredType constant).getD []] := by
        unfold valueTypes
        rw [hget, get_of_get? hconst]
      have hsame := h.const constant hconst
      rw [hvalue]
      refine ⟨_, List.mem_singleton_self _, matchesType_of_hasType ?_⟩
      cases hsame with
      | number hleft hright =>
        cases constant with
        | int n =>
          cases v with
          | int m => exact .inl rfl
          | float literal =>
            refine absurd ?_ (hexact hinfers n literal hconst rfl)
            exact Option.some.inj (hleft.trans hright.symm)
          | _ => cases hleft
        | float literal =>
          cases v with
          | int m => exact .inr rfl
          | float literal => exact rfl
          | _ => cases hleft
        | _ => cases hright
      | arr => exact absurd rfl htypes
      | obj => exact absurd rfl htypes
      | _ => exact rfl
    · exact absurd rfl htypes

theorem not_refused_valueParts (hnode : PlainNode host depth s) (hkeys : keysIn s schemaKeys = true)
    (hmultiple : MultipleExact host s v) (hconstant : ConstantExact host s v)
    (hsmall : SmallString v) (hsized : Sized v)
    (hseen : seen + members v ≤ maxOutputSchemaProperties)
    (h : Satisfies host others (.obj s) v) : ¬Refused (valueParts host s path v seen) := by
  have hkeywords := satisfies_obj.1 h
  obtain ⟨type, hmem, htype⟩ := exists_matchesType hnode hconstant hkeywords
  unfold valueParts
  split
  · rename_i hfilter
    have hin : type ∈ (valueTypes s).filter (matchesType host v) := List.mem_filter.2 ⟨hmem, htype⟩
    rw [hfilter] at hin
    exact absurd hin List.not_mem_nil
  · rename_i first types hfilter
    have hin : first ∈ (valueTypes s).filter (matchesType host v) := by
      rw [hfilter]
      exact List.mem_cons_self
    obtain ⟨hin, hfirst⟩ := List.mem_filter.1 hin
    have htyped : Typed host s v first := ⟨hin, hfirst, hkeywords.const⟩
    refine not_refused_bind (not_refused_checkChoices hkeywords.const hkeywords.enum) fun _ _ => ?_
    exact not_refused_typedParts hnode htyped hmultiple hsmall hsized hseen
      ((satisfies_iff_typed hnode hkeys hkeywords.type hkeywords.const hkeywords.enum).1 h)

/-! ### Unions -/

section Unions

variable (hnode : UnionNode host depth s branches)
include hnode

theorem UnionNode.absent {key : String} (h : lit key ∉ unionKeys) : s.get? (lit key) = none :=
  get?_of_keysIn hnode.keys h

theorem UnionNode.limit?_eq_none {key : String} (h : lit key ∉ unionKeys) :
    limit? host s key = none := by
  unfold limit?
  rw [hnode.absent h]
  rfl

theorem UnionNode.satisfies_iff :
    Satisfies host others (.obj s) v ↔
      SiblingsHold host others s v ∧
        ExactlyOne (fun branch => Satisfies host others branch v) branches := by
  have limitless : ∀ {key : String} {q : ℚ} {p : Prop}, lit key ∉ unionKeys →
      limit? host s key = some q → p := by
    intro key q p hkey hlimit
    rw [hnode.limit?_eq_none hkey] at hlimit
    cases hlimit
  have absent : ∀ {key : String} {value : Json} {p : Prop}, lit key ∉ unionKeys →
      s.get? (lit key) = some value → p := by
    intro key value p hkey hvalue
    rw [hnode.absent hkey] at hvalue
    cases hvalue
  rw [satisfies_obj]
  constructor
  · intro h
    exact ⟨⟨h.type, fun fields names hv => (h.object fields hv).required names,
      fun fields properties hv => (h.object fields hv).properties properties⟩,
      h.oneOf branches hnode.oneOf⟩
  · rintro ⟨hsiblings, hone⟩
    refine ⟨hsiblings.type, fun _ => absent (by decide), fun _ => absent (by decide),
      fun _ _ => ?_, fun _ _ => ?_, fun _ _ => ?_, fun fields hv => ?_, fun other hother => ?_,
      fun field hfield hkey => ?_⟩
    · exact ⟨fun _ => limitless (by decide), fun _ => limitless (by decide),
        fun _ => limitless (by decide), fun _ => limitless (by decide),
        fun _ => limitless (by decide)⟩
    · exact ⟨fun _ => limitless (by decide), fun _ => limitless (by decide),
        fun _ => absent (by decide)⟩
    · exact ⟨fun _ => limitless (by decide), fun _ => limitless (by decide), absent (by decide),
        fun _ => absent (by decide)⟩
    · exact ⟨fun _ => limitless (by decide), fun _ => limitless (by decide),
        fun names => hsiblings.required fields names hv,
        fun properties => hsiblings.properties fields properties hv, fun _ => absent (by decide),
        fun _ => absent (by decide)⟩
    · obtain rfl : branches = other := by simpa using hnode.oneOf.symm.trans hother
      exact hone
    · have hmem := of_decide_eq_true (List.all_eq_true.1 hnode.keys field hfield)
      have hsub : ∀ key ∈ unionKeys, key ∈ schemaKeys := by decide
      exact absurd (hsub _ hmem) hkey

end Unions

/-! ### One level of the validator -/

theorem validate_union (hnode : UnionNode host depth s branches) (path : PyStr) (v : Json)
    (seen : ℕ) : validate host (depth + 1) path v (.obj s) seen = (do
      let (matched, seen') ←
        matchBranches (fun branch => validate host depth path v branch seen) (0, seen) branches
      ensure (matched = 1) (.field path "must match exactly one oneOf branch")
      pure seen') := by
  rw [validate]
  simp only [get_of_get? hnode.oneOf]

theorem validate_plain (hnode : PlainNode host depth s) (path : PyStr) (v : Json) (seen : ℕ) :
    validate host (depth + 1) path v (.obj s) seen = (do
      let (seen, parts) ← valueParts host s path v seen
      parts.foldlM (fun seen part => validate host depth part.path part.item part.node seen) seen) := by
  have hnull : s.get (lit "oneOf") = .null := by
    unfold Dict.get
    rw [hnode.noUnion]
    rfl
  rw [validate]
  simp only [hnull]

/-- A run of the validator on a schema and a value says what the Draft says: it accepts only what
satisfies the schema, and within its limits it refuses only what does not. -/
structure Agrees (host : Host) (others : Vocabulary) (run : Checked ℕ) (node v : Json) (seen : ℕ) :
    Prop where
  accepts : ∀ seen', run = .ok seen' → Satisfies host others node v ∧ Everywhere Sized v ∧
    seen' = seen + members v ∧ seen' ≤ maxOutputSchemaProperties
  refuses : Everywhere Sized v → seen + members v ≤ maxOutputSchemaProperties →
    Satisfies host others node v → ¬Refused run

/-- Every part is read as the Draft reads it, whatever was counted before it. -/
def PartsAgree (host : Host) (others : Vocabulary) (depth : ℕ) (parts : List Handed) : Prop :=
  ∀ part ∈ parts, ∀ seen, seen ≤ maxOutputSchemaProperties →
    Agrees host others (validate host depth part.path part.item part.node seen) part.node part.item
      seen

theorem weight_cons (part : Handed) : weight (part :: parts) = members part.item + weight parts :=
  List.sum_cons

theorem parts_accepted (hparts : PartsAgree host others depth parts)
    (hseen : seen ≤ maxOutputSchemaProperties)
    (h : parts.foldlM (fun seen part => validate host depth part.path part.item part.node seen)
      seen = .ok seen') :
    seen' = seen + weight parts ∧ seen' ≤ maxOutputSchemaProperties ∧
      ∀ part ∈ parts, Satisfies host others part.node part.item ∧ Everywhere Sized part.item := by
  induction parts generalizing seen with
  | nil =>
    cases h
    exact ⟨rfl, hseen, nofun⟩
  | cons part parts ih =>
    rw [List.foldlM_cons, bind_eq_ok] at h
    obtain ⟨mid, hmid, h⟩ := h
    obtain ⟨hfirst, hrest⟩ := List.forall_mem_cons.1 hparts
    obtain ⟨hsatisfies, hsized, hcount, hle⟩ := (hfirst seen hseen).accepts mid hmid
    obtain ⟨hcount', hle', hall⟩ := ih hrest hle h
    refine ⟨?_, hle', List.forall_mem_cons.2 ⟨⟨hsatisfies, hsized⟩, hall⟩⟩
    rw [hcount', hcount, weight_cons, Nat.add_assoc]

theorem not_refused_parts (hparts : PartsAgree host others depth parts)
    (hseen : seen + weight parts ≤ maxOutputSchemaProperties)
    (hall : ∀ part ∈ parts, Satisfies host others part.node part.item ∧ Everywhere Sized part.item) :
    ¬Refused (parts.foldlM (fun seen part => validate host depth part.path part.item part.node seen)
      seen) := by
  induction parts generalizing seen with
  | nil => exact not_refused_ok
  | cons part parts ih =>
    obtain ⟨hfirst, hrest⟩ := List.forall_mem_cons.1 hparts
    obtain ⟨⟨hsatisfies, hsized⟩, hall⟩ := List.forall_mem_cons.1 hall
    rw [weight_cons] at hseen
    have hagrees := hfirst seen (by omega)
    rw [List.foldlM_cons]
    refine not_refused_bind (hagrees.refuses hsized (by omega) hsatisfies) fun mid hmid => ?_
    obtain ⟨-, -, hcount, -⟩ := hagrees.accepts mid hmid
    exact ih hrest (by omega) hall

/-- The sizes of a value, from those of what a node hands on. -/
theorem Passed.everywhere (h : Passed host others depth s v seen mid parts)
    (hparts : ∀ part ∈ parts, Everywhere Sized part.item) : Everywhere Sized v := by
  refine everywhere_of_parts h.sized fun item hitem => ?_
  obtain ⟨content, rfl⟩ | ⟨part, hmem, rfl⟩ := h.hands.all item hitem
  · exact sized_str content
  · exact hparts part hmem

theorem agrees_plain (hnode : PlainNode host depth s) (hkeys : keysIn s schemaKeys = true)
    (hexact : ExactNode host others s v) (hsmall : Everywhere SmallString v)
    (hseen : seen ≤ maxOutputSchemaProperties)
    (hparts : ∀ mid parts, valueParts host s path v seen = .ok (mid, parts) →
      PartsAgree host others depth parts) :
    Agrees host others (validate host (depth + 1) path v (.obj s) seen) (.obj s) v seen := by
  rw [validate_plain hnode]
  constructor
  · intro seen' h
    obtain ⟨⟨mid, parts⟩, hvalue, h⟩ := bind_eq_ok.1 h
    obtain ⟨-, hpassed, hiff⟩ := @valueParts_ok _ others _ _ _ _ _ _ _ hnode hkeys hvalue
    obtain ⟨hcount, hle, hall⟩ :=
      parts_accepted (hparts mid parts hvalue) (hpassed.counted hseen) h
    have hmultiples : MultiplesHold host s v := by
      intro q hq m hm
      obtain ⟨multiple, hget, hnumber⟩ := limit?_eq_some.1 hm
      obtain rfl | htrue := hpassed.multiple q multiple hq hget
      · cases hnumber
      · exact (hexact.multiple hnode.noUnion q multiple m true hq hget hnumber htrue).1 rfl
    refine ⟨hiff.2 ⟨hmultiples, fun part hmem => (hall part hmem).1⟩,
      hpassed.everywhere fun part hmem => (hall part hmem).2, ?_, hle⟩
    rw [hcount, hpassed.weight]
  · intro hsized hlimit hsatisfies
    refine not_refused_bind (not_refused_valueParts hnode hkeys (hexact.multiple hnode.noUnion)
      (hexact.constant hnode.noUnion) (hsmall v .refl) (hsized v .refl) hlimit hsatisfies) ?_
    rintro ⟨mid, parts⟩ hvalue
    obtain ⟨-, hpassed, hiff⟩ := @valueParts_ok _ others _ _ _ _ _ _ _ hnode hkeys hvalue
    refine not_refused_parts (hparts mid parts hvalue) (hpassed.weight ▸ hlimit) fun part hmem => ?_
    exact ⟨(hiff.1 hsatisfies).2 part hmem, hsized.of_part (hpassed.hands.inside part hmem)⟩

theorem union_accepted (hnode : UnionNode host depth s branches)
    (hbranches : ∀ branch ∈ branches,
      Agrees host others (validate host depth path v branch seen) branch v seen)
    (h : validate host (depth + 1) path v (.obj s) seen = .ok seen') :
    ExactlyOne (fun branch => Satisfies host others branch v) branches ∧ Everywhere Sized v ∧
      seen' = seen + members v ∧ seen' ≤ maxOutputSchemaProperties := by
  rw [validate_union hnode] at h
  obtain ⟨⟨matched, last⟩, hmatch, h⟩ := bind_eq_ok.1 h
  obtain ⟨⟨⟩, hone, h⟩ := bind_eq_ok.1 h
  cases h
  obtain rfl := ensure_eq_ok.1 hone
  obtain ⟨branch, hmem, hbranch⟩ := (matchBranches_seen hmatch).resolve_left (by simp)
  obtain ⟨-, hsized, hcount, hle⟩ := (hbranches branch hmem).accepts _ hbranch
  have hlimit : seen + members v ≤ maxOutputSchemaProperties := hcount ▸ hle
  refine ⟨?_, hsized, hcount, hle⟩
  refine (exactlyOne_congr fun other hother => ⟨?_, fun hsatisfies => ?_⟩).1
    ((matchBranches_count hmatch).2.2.1 rfl)
  · rintro ⟨seen', hseen'⟩
    exact ((hbranches other hother).accepts seen' hseen').1
  · refine (matchBranches_decided hmatch other hother).resolve_right ?_
    exact (hbranches other hother).refuses hsized hlimit hsatisfies

theorem agrees_union (hnode : UnionNode host depth s branches) (hexact : ExactNode host others s v)
    (hbranches : ∀ branch ∈ branches,
      Agrees host others (validate host depth path v branch seen) branch v seen) :
    Agrees host others (validate host (depth + 1) path v (.obj s) seen) (.obj s) v seen := by
  constructor
  · intro seen' h
    obtain ⟨hone, hrest⟩ := union_accepted hnode hbranches h
    exact ⟨hnode.satisfies_iff.2 ⟨hexact.siblings branches hnode.oneOf, hone⟩, hrest⟩
  · intro hsized hlimit hsatisfies
    obtain ⟨-, hone⟩ := hnode.satisfies_iff.1 hsatisfies
    rw [validate_union hnode]
    refine not_refused_bind not_refused_matchBranches ?_
    rintro ⟨matched, last⟩ hmatch
    refine not_refused_bind (not_refused_ensure ?_) fun _ _ => not_refused_ok
    have hsame : ∀ branch ∈ branches, (Satisfies host others branch v ↔
        Matches (fun branch => validate host depth path v branch seen) branch) := by
      intro branch hmem
      constructor
      · intro hsatisfies
        refine (matchBranches_decided hmatch branch hmem).resolve_right ?_
        exact (hbranches branch hmem).refuses hsized hlimit hsatisfies
      · rintro ⟨seen', hseen'⟩
        exact ((hbranches branch hmem).accepts seen' hseen').1
    exact (matchBranches_count hmatch).2.2.2 ((exactlyOne_congr hsame).1 hone)

/-! ### The whole validator -/

/-- Where every comparison is exact, the validator and the Draft agree: by induction on the depth that
is left. -/
theorem agrees (haccepted : Accepted host depth node) (hsmall : Everywhere SmallString v)
    (hexact : ∀ pair, Reached (node, v) pair → Exact host others pair)
    (hseen : seen ≤ maxOutputSchemaProperties) :
    Agrees host others (validate host depth path v node seen) node v seen := by
  induction depth generalizing node v path seen with
  | zero =>
    obtain ⟨s, rest, -, hdepth, -⟩ := haccepted.cases
    cases hdepth
  | succ depth ih =>
    obtain ⟨s, rest, rfl, hdepth, hkeys, hshape⟩ := haccepted.cases
    obtain rfl := Nat.succ.inj hdepth
    have hhere : ExactNode host others s v := hexact (.obj s, v) .refl s rfl
    obtain ⟨branches, hnode⟩ | hnode := hshape
    · refine agrees_union hnode hhere fun branch hmem => ?_
      refine ih (hnode.accepted branch hmem) hsmall (fun pair hpair => ?_) hseen
      exact hexact pair (.head (.inr (.mk hnode.oneOf hmem)) hpair)
    · refine agrees_plain hnode hkeys hhere hsmall hseen fun mid parts hvalue part hmem seen hle => ?_
      obtain ⟨-, hpassed, -⟩ := @valueParts_ok _ others _ _ _ _ _ _ _ hnode hkeys hvalue
      refine ih (hpassed.hands.accepted part hmem)
        (hsmall.of_part (hpassed.hands.inside part hmem)) (fun pair hpair => ?_) hle
      exact hexact pair (.head (.inl (hpassed.hands.compared part hmem)) hpair)

/-- Every schema and value that are compared outside of the branches, from a first pair on. -/
def Outside (first : Json × Json) : Json × Json → Prop := Relation.ReflTransGen Compared first

/-- All that is compared inside of a branch is read as the Draft reads it. -/
def BranchesExact (host : Host) (others : Vocabulary) (first : Json × Json) : Prop :=
  ∀ union branch pair, Outside first union → Branch union branch → Reached branch pair →
    Exact host others pair

theorem BranchesExact.next {first next : Json × Json} (h : BranchesExact host others first)
    (hnext : Compared first next) : BranchesExact host others next :=
  fun union branch pair hunion => h union branch pair (.head hnext hunion)

theorem Compared.noUnion {pair : Json × Json} (h : Compared (.obj s, v) pair) :
    s.get? (lit "oneOf") = none := by
  cases h <;> assumption

/-- Nothing is compared from a schema that is no object. -/
theorem Outside.eq_of_not_obj {first pair : Json × Json} (h : Outside first pair)
    (hfirst : isObj first.1 = false) : pair = first := by
  obtain rfl | ⟨next, hnext, -⟩ := Relation.ReflTransGen.cases_head h
  · rfl
  · cases hnext <;> cases hfirst

theorem of_parts_accepted {p : Handed → Prop} (hseen : seen ≤ maxOutputSchemaProperties)
    (hparts : ∀ part ∈ parts, ∀ seen seen', seen ≤ maxOutputSchemaProperties →
      validate host depth part.path part.item part.node seen = .ok seen' →
      seen' ≤ maxOutputSchemaProperties ∧ p part)
    (h : parts.foldlM (fun seen part => validate host depth part.path part.item part.node seen)
      seen = .ok seen') :
    seen' ≤ maxOutputSchemaProperties ∧ ∀ part ∈ parts, p part := by
  induction parts generalizing seen with
  | nil =>
    cases h
    exact ⟨hseen, nofun⟩
  | cons part parts ih =>
    rw [List.foldlM_cons, bind_eq_ok] at h
    obtain ⟨mid, hmid, h⟩ := h
    obtain ⟨hfirst, hrest⟩ := List.forall_mem_cons.1 hparts
    obtain ⟨hle, hpart⟩ := hfirst seen mid hseen hmid
    obtain ⟨hle', hall⟩ := ih hle hrest h
    exact ⟨hle', List.forall_mem_cons.2 ⟨hpart, hall⟩⟩

/-- A value that passes the checks of a node is read exactly there, if it satisfies the node. -/
theorem exactNode_of_passed (hnode : PlainNode host depth s) (htyped : Typed host s v type)
    (hpassed : Passed host others depth s v seen mid parts) (hmultiples : MultiplesHold host s v) :
    ExactNode host others s v := by
  refine ⟨fun branches hget => ?_, fun _ q multiple m holds hq hget hm hholds => ?_,
    fun _ hinfers n literal hget hv hvalue => ?_⟩
  · rw [hnode.noUnion] at hget
    cases hget
  · obtain rfl | htrue := hpassed.multiple q multiple hq hget
    · cases hm
    · obtain rfl := Option.some.inj (htrue.symm.trans hholds)
      exact ⟨fun _ => hmultiples q hq m (limit?_eq_some.2 ⟨multiple, hget, hm⟩), fun _ => rfl⟩
  · subst hv
    have hmem := htyped.mem
    have hfloat := htyped.isType
    have htypes : valueTypes s = [lit "integer"] := by
      unfold infersType at hinfers
      unfold valueTypes
      cases hother : s.get (lit "type") with
      | str name =>
        rw [hother] at hinfers
        cases hinfers
      | arr names =>
        rw [hother] at hinfers
        cases hinfers
      | _ =>
        dsimp only
        rw [get_of_get? hget]
        rfl
    rw [htypes, List.mem_singleton] at hmem
    subst hmem
    cases hfloat

/-- Of what the validator accepts, the Draft says the same exactly where it reads all that is compared
outside of branches as the validator does, if it reads the branches so. -/
theorem satisfies_iff_exact (haccepted : Accepted host depth node)
    (hsmall : Everywhere SmallString v) (hbranches : BranchesExact host others (node, v))
    (hseen : seen ≤ maxOutputSchemaProperties)
    (h : validate host depth path v node seen = .ok seen') :
    seen' ≤ maxOutputSchemaProperties ∧
      (Satisfies host others node v ↔ ∀ pair, Outside (node, v) pair → Exact host others pair) := by
  induction depth generalizing node v path seen seen' with
  | zero =>
    obtain ⟨s, rest, -, hdepth, -⟩ := haccepted.cases
    cases hdepth
  | succ depth ih =>
    obtain ⟨s, rest, rfl, hdepth, hkeys, hshape⟩ := haccepted.cases
    obtain rfl := Nat.succ.inj hdepth
    obtain ⟨branches, hnode⟩ | hnode := hshape
    · obtain ⟨hone, -, -, hle⟩ := union_accepted hnode (fun branch hmem =>
        agrees (hnode.accepted branch hmem) hsmall
          (fun pair hpair => hbranches _ _ pair .refl (.mk hnode.oneOf hmem) hpair) hseen) h
      refine ⟨hle, hnode.satisfies_iff.trans ⟨fun hall pair hpair => ?_, fun hall => ?_⟩⟩
      · obtain rfl | ⟨next, hnext, -⟩ := Relation.ReflTransGen.cases_head hpair
        · intro s' hs
          cases hs
          refine ⟨fun _ _ => hall.1, fun hnone => ?_, fun hnone => ?_⟩
          · rw [hnode.oneOf] at hnone
            cases hnone
          · rw [hnode.oneOf] at hnone
            cases hnone
        · have hnone := hnext.noUnion
          rw [hnode.oneOf] at hnone
          cases hnone
      · exact ⟨(hall _ .refl s rfl).siblings branches hnode.oneOf, hone⟩
    · rw [validate_plain hnode] at h
      obtain ⟨⟨mid, parts⟩, hvalue, h⟩ := bind_eq_ok.1 h
      obtain ⟨⟨type, htyped⟩, hpassed, hiff⟩ := @valueParts_ok _ others _ _ _ _ _ _ _ hnode hkeys hvalue
      have hpart : ∀ part ∈ parts, ∀ seen seen', seen ≤ maxOutputSchemaProperties →
          validate host depth part.path part.item part.node seen = .ok seen' →
          seen' ≤ maxOutputSchemaProperties ∧ (Satisfies host others part.node part.item ↔
            ∀ pair, Outside (part.node, part.item) pair → Exact host others pair) :=
        fun part hmem seen seen' hle hrun => ih (hpassed.hands.accepted part hmem)
          (hsmall.of_part (hpassed.hands.inside part hmem))
          (hbranches.next (hpassed.hands.compared part hmem)) hle hrun
      obtain ⟨hle, hparts⟩ := of_parts_accepted (hpassed.counted hseen) hpart h
      refine ⟨hle, hiff.trans ⟨?_, fun hall => ⟨?_, fun part hmem => ?_⟩⟩⟩
      · rintro ⟨hmultiples, hall⟩ pair hpair
        obtain rfl | ⟨next, hnext, hrest⟩ := Relation.ReflTransGen.cases_head hpair
        · intro s' hs
          cases hs
          exact exactNode_of_passed hnode htyped hpassed hmultiples
        · obtain hplain | ⟨part, hmem, rfl⟩ := hpassed.hands.handed next hnext
          · rw [Outside.eq_of_not_obj hrest hplain]
            exact exact_of_not_obj hplain
          · exact (hparts part hmem).1 (hall part hmem) pair hrest
      · intro q hq m hm
        obtain ⟨multiple, hget, hnumber⟩ := limit?_eq_some.1 hm
        obtain rfl | htrue := hpassed.multiple q multiple hq hget
        · cases hnumber
        · exact ((hall _ .refl s rfl).multiple hnode.noUnion q multiple m true hq hget hnumber
            htrue).1 rfl
      · exact (hparts part hmem).2 fun pair hpair =>
          hall pair (.head (hpassed.hands.compared part hmem) hpair)

end CodexFlow.Schema
