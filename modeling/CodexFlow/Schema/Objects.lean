import CodexFlow.Schema.Plain

/-!
# Objects

A closed record and a bounded map against their keywords.
-/

namespace CodexFlow.Schema

open Hook (PyStr Json Dict lit)
open Checked

variable {host : Host} {others : Vocabulary} {s fields properties : Dict} {depth : ℕ}
  {path : PyStr} {parts : List Handed} {names values : Json}

@[simp] theorem satisfies_null (v : Json) : Satisfies host others .null v := by
  rw [Satisfies] <;> first | trivial | (intro _ heq; cases heq)

structure CountHolds (host : Host) (s fields : Dict) : Prop where
  least : ∀ n, limit? host s "minProperties" = some n → n ≤ fields.length
  most : ∀ n, limit? host s "maxProperties" = some n → fields.length ≤ n

/-! ### Records -/

/-- The keys that a record asks for, and those that it lets through. -/
structure KeysHold (s properties fields : Dict) : Prop where
  required : ∀ names, s.get? (lit "required") = some (.arr names) →
    ∀ name, .str name ∈ names → fields.has name = true
  declared : ∀ field ∈ fields, properties.has field.1 = true

theorem get?_of_not_has {key : PyStr} (h : s.has key = false) : s.get? key = none :=
  Option.not_isSome_iff_eq_none.1 (by rw [show (s.get? key).isSome = false from h]; decide)

theorem not_required_of_constantMap (h : isClosedConstantMap s properties = true) :
    s.get? (lit "required") = none := by
  simp only [isClosedConstantMap, Bool.and_eq_true, Bool.not_eq_true'] at h
  exact get?_of_not_has h.1.1.1.1

theorem keysHold_of_ok (h : checkKeys s path properties fields = .ok ()) :
    KeysHold s properties fields := by
  unfold checkKeys at h
  split_ifs at h with hmap
  · refine ⟨fun names hnames => ?_, ensure_eq_ok.1 h⟩
    rw [not_required_of_constantMap hmap] at hnames
    cases hnames
  · obtain ⟨hrequired, hdeclared⟩ := ensure_eq_ok.1 h
    refine ⟨fun names hnames name hname => ?_, hdeclared⟩
    rw [get_of_get? hnames] at hrequired
    exact hrequired name (List.mem_map.2 ⟨.str name, hname, rfl⟩)

theorem not_refused_checkKeys (hnode : RecordNode host depth s properties)
    (h : KeysHold s properties fields) : ¬Refused (checkKeys s path properties fields) := by
  unfold checkKeys
  split_ifs with hmap
  · exact not_refused_ensure h.declared
  · obtain ⟨required, hget, hstrings⟩ := hnode.required (Bool.eq_false_iff.2 hmap)
    refine not_refused_ensure ⟨?_, h.declared⟩
    rw [get_of_get? hget]
    intro name hname
    obtain ⟨entry, hentry, hsame⟩ := List.mem_map.1 hname
    have hstring := hstrings entry hentry
    cases entry with
    | str content =>
      obtain rfl : content = name := hsame
      exact h.required required hget content hentry
    | _ => cases hstring

theorem recordParts (hnode : RecordNode host depth s properties)
    (h : fieldsHanded s path fields = .ok parts) :
    KeysHold s properties fields ∧
      List.Forall₂ (fun field part => properties.get? field.1 = some part.node ∧
        part.item = field.2) fields parts := by
  simp only [fieldsHanded, get_of_get? hnode.named] at h
  obtain ⟨⟨⟩, hkeys, h⟩ := bind_eq_ok.1 h
  refine ⟨keysHold_of_ok hkeys, (forall₂_of_mapM_ok h).imp fun field part hpart => ?_⟩
  obtain ⟨key, child⟩ := field
  dsimp only at hpart
  split at hpart
  · rename_i node hnode
    cases hpart
    exact ⟨hnode, rfl⟩
  · cases hpart

theorem declares_record (hnode : RecordNode host depth s properties) (name : PyStr) :
    declares s name = properties.has name := by
  unfold declares
  rw [hnode.named]

theorem recordHanded_ok (hnode : RecordNode host depth s properties)
    (hunion : s.get? (lit "oneOf") = none) (h : fieldsHanded s path fields = .ok parts) :
    HandsOn host depth s (.obj fields) parts ∧
      weight parts = (fields.map fun field => members field.2).sum ∧
      (CountHolds host s fields → (ObjectKeywords host (Satisfies host others) s fields ↔
        ∀ part ∈ parts, Satisfies host others part.node part.item)) := by
  obtain ⟨hkeys, hparts⟩ := recordParts hnode h
  have hpart : ∀ part ∈ parts, ∃ field ∈ fields, properties.get? field.1 = some part.node ∧
      part.item = field.2 := by
    intro part hmem
    obtain ⟨index, hindex, rfl⟩ := List.getElem_of_mem hmem
    have hlength := hparts.length_eq
    exact ⟨fields[index], List.getElem_mem _, hparts.get (by omega) hindex⟩
  have hfield : ∀ field ∈ fields, ∃ part ∈ parts, properties.get? field.1 = some part.node ∧
      part.item = field.2 := by
    intro field hmem
    obtain ⟨index, hindex, rfl⟩ := List.getElem_of_mem hmem
    have hlength := hparts.length_eq
    exact ⟨parts[index], List.getElem_mem _, hparts.get hindex (by omega)⟩
  have hdeclared : ∀ field ∈ fields, declares s field.1 = true :=
    fun field hmem => (declares_record hnode _).trans (hkeys.declared field hmem)
  refine ⟨⟨?_, ?_, ?_, ?_, ?_⟩, ?_, fun hcount => ⟨?_, ?_⟩⟩
  · intro part hmem
    obtain ⟨field, -, hget, -⟩ := hpart part hmem
    obtain ⟨property, hproperty, hsame⟩ := mem_of_get? hget
    exact hsame ▸ hnode.accepted property hproperty
  · intro part hmem
    obtain ⟨field, hfield, hget, hitem⟩ := hpart part hmem
    rw [hitem]
    exact .property hunion hnode.named hfield hget
  · intro part hmem
    obtain ⟨field, hfield, -, hitem⟩ := hpart part hmem
    rw [hitem]
    exact .value hfield
  · intro item hitem
    cases hitem with
    | value hmem =>
      obtain ⟨part, hpart, -, hsame⟩ := hfield _ hmem
      exact .inr ⟨part, hpart, hsame⟩
    | name hmem => exact .inl ⟨_, rfl⟩
  · intro pair hpair
    cases hpair with
    | property _ hs hmem hchild =>
      obtain ⟨part, hpart, hget, hsame⟩ := hfield _ hmem
      obtain rfl : properties = _ := by simpa using hnode.named.symm.trans hs
      obtain rfl := Option.some.inj (hchild.symm.trans hget)
      exact .inr ⟨part, hpart, by rw [hsame]⟩
    | name _ hs hmem =>
      have hnull := hnode.names
      rw [get_of_get? hs] at hnull
      subst hnull
      exact .inl rfl
    | additional _ hs hmem hother => exact absurd hother (by rw [hdeclared _ hmem]; decide)
  · unfold weight
    congr 1
    clear hpart hfield hdeclared hkeys h
    induction hparts with
    | nil => rfl
    | cons hhead _ ih => rw [List.map_cons, List.map_cons, hhead.2, ih]
  · intro hkeywords part hmem
    obtain ⟨field, hfield, hget, hitem⟩ := hpart part hmem
    rw [hitem]
    exact hkeywords.properties properties hnode.named field hfield _ hget
  · intro hall
    refine ⟨hcount.least, hcount.most, hkeys.required, ?_, ?_, ?_⟩
    · intro other hother field hmem child hchild
      obtain rfl : properties = other := by simpa using hnode.named.symm.trans hother
      obtain ⟨part, hpart, hget, hitem⟩ := hfield field hmem
      obtain rfl := Option.some.inj (hchild.symm.trans hget)
      rw [← hitem]
      exact hall part hpart
    · intro child hchild field hmem hother
      exact absurd hother (by rw [hdeclared field hmem]; decide)
    · intro child hchild field hmem
      have hnull := hnode.names
      rw [get_of_get? hchild] at hnull
      rw [hnull]
      exact satisfies_null _

theorem not_refused_recordHanded (hnode : RecordNode host depth s properties)
    (h : ObjectKeywords host (Satisfies host others) s fields) :
    ¬Refused (fieldsHanded s path fields) := by
  have hkeys : KeysHold s properties fields := by
    refine ⟨h.required, fun field hmem => ?_⟩
    by_contra hno
    have hother : declares s field.1 = false :=
      (declares_record hnode _).trans (Bool.eq_false_iff.2 hno)
    have hfalse := h.additionalProperties _ hnode.closed field hmem hother
    rw [Satisfies] at hfalse
    cases hfalse
  simp only [fieldsHanded, get_of_get? hnode.named]
  refine not_refused_bind (not_refused_checkKeys hnode hkeys) fun _ hchecked => ?_
  clear hkeys h hchecked
  induction fields with
  | nil => exact not_refused_ok
  | cons field fields ih =>
    obtain ⟨key, child⟩ := field
    rw [List.mapM_cons]
    refine not_refused_bind ?_ fun part _ => not_refused_bind ih fun _ _ => not_refused_ok
    dsimp only
    split
    · exact not_refused_ok
    · exact not_refused_error rfl

/-! ### Maps -/

/-- What a map hands on: every name and every value. -/
def mapHanded (path : PyStr) (names values : Json) (fields : Dict) : List Handed :=
  fields.flatMap fun field =>
    [⟨path ++ lit " property name", .str field.1, names⟩,
      ⟨path ++ lit "." ++ field.1, field.2, values⟩]

theorem mem_mapHanded {part : Handed} :
    part ∈ mapHanded path names values fields ↔ ∃ field ∈ fields,
      part = ⟨path ++ lit " property name", .str field.1, names⟩ ∨
        part = ⟨path ++ lit "." ++ field.1, field.2, values⟩ := by
  simp [mapHanded, List.mem_flatMap]

theorem mapParts (hnode : MapNode host depth s names values)
    (h : fieldsHanded s path fields = .ok parts) : parts = mapHanded path names values fields := by
  simp only [fieldsHanded, hnode.properties] at h
  obtain ⟨found, hfound, h⟩ := bind_eq_ok.1 h
  obtain ⟨found', hfound', h⟩ := bind_eq_ok.1 h
  unfold subscript at hfound hfound'
  rw [hnode.propertyNames] at hfound
  rw [hnode.additionalProperties] at hfound'
  cases hfound
  cases hfound'
  cases h
  rfl

theorem weight_mapHanded :
    weight (mapHanded path names values fields) = (fields.map fun field => members field.2).sum := by
  unfold weight mapHanded
  induction fields with
  | nil => rfl
  | cons field fields ih =>
    rw [List.flatMap_cons, List.map_append, List.sum_append, ih, List.map_cons, List.sum_cons]
    congr 1
    exact Nat.zero_add _

theorem declares_map (hnode : MapNode host depth s names values) (name : PyStr) :
    declares s name = false := by
  unfold declares
  cases hget : s.get? (lit "properties") with
  | none => rfl
  | some value =>
    have hnull := hnode.properties
    rw [get_of_get? hget] at hnull
    subst hnull
    rfl

theorem mapHanded_ok (hnode : MapNode host depth s names values)
    (hunion : s.get? (lit "oneOf") = none) (h : fieldsHanded s path fields = .ok parts) :
    HandsOn host depth s (.obj fields) parts ∧
      weight parts = (fields.map fun field => members field.2).sum ∧
      (CountHolds host s fields → (ObjectKeywords host (Satisfies host others) s fields ↔
        ∀ part ∈ parts, Satisfies host others part.node part.item)) := by
  obtain rfl := mapParts hnode h
  refine ⟨⟨?_, ?_, ?_, ?_, ?_⟩, weight_mapHanded, fun hcount => ⟨?_, ?_⟩⟩
  · intro part hmem
    obtain ⟨field, -, rfl | rfl⟩ := mem_mapHanded.1 hmem
    · exact hnode.namesAccepted
    · exact hnode.valuesAccepted
  · intro part hmem
    obtain ⟨field, hfield, rfl | rfl⟩ := mem_mapHanded.1 hmem
    · exact .name hunion hnode.propertyNames hfield
    · exact .additional hunion hnode.additionalProperties hfield (declares_map hnode _)
  · intro part hmem
    obtain ⟨field, hfield, rfl | rfl⟩ := mem_mapHanded.1 hmem
    · exact .name hfield
    · exact .value hfield
  · intro item hitem
    cases hitem with
    | value hmem => exact .inr ⟨_, mem_mapHanded.2 ⟨_, hmem, .inr rfl⟩, rfl⟩
    | name hmem => exact .inl ⟨_, rfl⟩
  · intro pair hpair
    cases hpair with
    | property _ hs =>
      have hnull := hnode.properties
      rw [get_of_get? hs] at hnull
      cases hnull
    | name _ hs hmem =>
      obtain rfl := Option.some.inj (hs.symm.trans hnode.propertyNames)
      exact .inr ⟨_, mem_mapHanded.2 ⟨_, hmem, .inl rfl⟩, rfl⟩
    | additional _ hs hmem =>
      obtain rfl := Option.some.inj (hs.symm.trans hnode.additionalProperties)
      exact .inr ⟨_, mem_mapHanded.2 ⟨_, hmem, .inr rfl⟩, rfl⟩
  · intro hkeywords part hmem
    obtain ⟨field, hfield, rfl | rfl⟩ := mem_mapHanded.1 hmem
    · exact hkeywords.propertyNames names hnode.propertyNames field hfield
    · exact hkeywords.additionalProperties values hnode.additionalProperties field hfield
        (declares_map hnode _)
  · intro hall
    refine ⟨hcount.least, hcount.most, fun required hget => ?_, fun properties hget => ?_, ?_, ?_⟩
    · have hnull := hnode.required
      rw [get_of_get? hget] at hnull
      cases hnull
    · have hnull := hnode.properties
      rw [get_of_get? hget] at hnull
      cases hnull
    · intro child hchild field hfield _
      obtain rfl := Option.some.inj (hchild.symm.trans hnode.additionalProperties)
      exact hall _ (mem_mapHanded.2 ⟨field, hfield, .inr rfl⟩)
    · intro child hchild field hfield
      obtain rfl := Option.some.inj (hchild.symm.trans hnode.propertyNames)
      exact hall _ (mem_mapHanded.2 ⟨field, hfield, .inl rfl⟩)

theorem not_refused_mapHanded (hnode : MapNode host depth s names values) :
    ¬Refused (fieldsHanded s path fields) := by
  simp only [fieldsHanded, hnode.properties, subscript, hnode.propertyNames,
    hnode.additionalProperties]
  exact not_refused_ok

/-! ### Objects -/

theorem fieldsHanded_ok (hnode : ObjectNode host depth s) (hunion : s.get? (lit "oneOf") = none)
    (h : fieldsHanded s path fields = .ok parts) :
    HandsOn host depth s (.obj fields) parts ∧
      weight parts = (fields.map fun field => members field.2).sum ∧
      (CountHolds host s fields → (ObjectKeywords host (Satisfies host others) s fields ↔
        ∀ part ∈ parts, Satisfies host others part.node part.item)) := by
  obtain ⟨properties, hrecord⟩ | ⟨names, values, hmap⟩ := hnode.closed
  · exact recordHanded_ok hrecord hunion h
  · exact mapHanded_ok hmap hunion h

theorem not_refused_fieldsHanded (hnode : ObjectNode host depth s)
    (h : ObjectKeywords host (Satisfies host others) s fields) :
    ¬Refused (fieldsHanded s path fields) := by
  obtain ⟨properties, hrecord⟩ | ⟨names, values, hmap⟩ := hnode.closed
  · exact not_refused_recordHanded hrecord h
  · exact not_refused_mapHanded hmap

end CodexFlow.Schema
