import CodexFlow.Lib.Raises
import CodexFlow.Schema.Soundness

/-!
# What the validators raise

Both validators answer or raise a `ValueError`, except where a number or a repetition in a pattern is
too large for the interpreter. The places where that happens are told from the schema and the value.
-/

namespace CodexFlow.Schema

open Hook (PyStr Json Dict lit isSurrogate)
open Capsule (byteLength printable text)
open Checked

variable {host : Host} {s : Dict} {root : Bool} {depth seen : ℕ} {e : Raised}

/-! ### Floats -/

/-- From here on a number is rounded to infinity. -/
def floatLimit : ℚ := 2 ^ 1024 - 2 ^ 970

/-- The quotient of two numbers has no float. -/
def quotientOverflows (host : Host) (number multiple : Json) : Bool :=
  match number, multiple with
  | .int n, .int m => floatLimit ≤ |(n : ℚ) / m|
  | number, multiple =>
    match toFloat host number, toFloat host multiple with
    | .ok x, .ok y => floatLimit ≤ |x / y|
    | _, _ => true

structure Host.Binary64 (host : Host) : Prop where
  ofInt : ∀ n : ℤ, host.floats.ofInt n = none ↔ floatLimit ≤ |(n : ℚ)|
  zero : ∀ literal, host.floats.ofInt 0 = some literal → host.value literal = 0
  isMultiple : ∀ number multiple, number? host multiple ≠ some 0 →
    (host.isMultiple number multiple = none ↔ quotientOverflows host number multiple = true)

/-! ### Caught errors -/

/-- The error is a `ValueError`, or the outermost handler makes it one. -/
def Raised.IsCaught (e : Raised) : Prop := e.isValueError = true ∨ e = .keyError ∨ e = .typeError

theorem caught_text (content : String) : (Raised.valueError content).IsCaught := .inl rfl

theorem caught_field (path : PyStr) (problem : String) : (Raised.field path problem).IsCaught :=
  .inl rfl

theorem raises_utf8Size (content : PyStr) : OnlyRaises Raised.IsCaught (utf8Size content) :=
  .bind (.ensure (caught_text _)) fun _ _ => .ok _

theorem raises_validateMetadata : OnlyRaises Raised.IsCaught (validateMetadata s) := by
  refine .bind (.forM fun key _ => ?_) fun _ _ =>
    .bind (.ensure (caught_text _)) fun _ _ => .ensure (caught_text _)
  split
  · exact .ok ()
  · exact .bind (.ensure (caught_text _)) fun _ _ =>
      .bind (raises_utf8Size _) fun _ _ => .ensure (caught_text _)
  · exact .error (caught_text _)

theorem raises_boundedInteger (value : Json) (label : String) (maximum : ℕ) :
    OnlyRaises Raised.IsCaught (boundedInteger value label maximum) := by
  unfold boundedInteger
  split
  · exact .bind (.ensure (caught_text _)) fun _ _ => .ok _
  · exact .error (caught_text _)

theorem raises_bounds (low high : String) (maximum : ℕ) :
    OnlyRaises Raised.IsCaught (bounds s low high maximum) :=
  .bind (raises_boundedInteger _ _ _) fun _ _ => .bind (raises_boundedInteger _ _ _) fun _ _ => .ok _

theorem raises_checkTypes (types : List PyStr) : OnlyRaises Raised.IsCaught (checkTypes root types) :=
  .bind (.ensure (caught_text _)) fun _ _ =>
    .bind (.ensure (caught_text _)) fun _ _ => .ensure (caught_text _)

theorem raises_checkConstant (types : List PyStr) :
    OnlyRaises Raised.IsCaught (checkConstant host s types) := .ensure (caught_text _)

theorem raises_checkEnum (types : List PyStr) : OnlyRaises Raised.IsCaught (checkEnum host s types) := by
  unfold checkEnum
  split
  · exact .ok ()
  · exact .bind (.ensure (caught_text _)) fun _ _ => .ensure (caught_text _)
  · exact .error (caught_text _)

theorem raises_unionChildren (branches : Json) :
    OnlyRaises Raised.IsCaught (unionChildren s root branches) := by
  refine .bind (.ensure (caught_text _)) fun _ _ => ?_
  split
  · exact .bind (.ensure (caught_text _)) fun _ _ => .ok _
  · exact .error (caught_text _)

/-! ### Object and array schemas -/

theorem raises_optionalAllowed (properties : Dict) (optional : List PyStr) :
    OnlyRaises Raised.IsCaught (optionalAllowed host properties optional) := by
  unfold optionalAllowed
  dsimp only
  split_ifs
  · exact .error (.inr (.inr rfl))
  · exact .ok _

theorem raises_checkRequired (properties : Dict) :
    OnlyRaises Raised.IsCaught (checkRequired host s properties) := by
  unfold checkRequired
  split
  · exact .bind (.ensure (caught_text _)) fun _ _ => .bind (.ensure (caught_text _)) fun _ _ =>
      .bind (raises_optionalAllowed _ _) fun _ _ => .bind (.ensure (caught_text _)) fun _ _ =>
      .ensure (caught_text _)
  · exact .error (caught_text _)

theorem raises_checkRecord (properties : Dict) (least most : ℤ) :
    OnlyRaises Raised.IsCaught (checkRecord host s properties least most) := by
  unfold checkRecord
  split_ifs
  · exact .ensure (caught_text _)
  · exact .bind (raises_checkRequired _) fun _ _ => .ensure (caught_text _)

theorem raises_checkPropertyName (name : PyStr) :
    OnlyRaises Raised.IsCaught (checkPropertyName name) :=
  .bind (.ensure (caught_text _)) fun _ _ =>
    .bind (raises_utf8Size _) fun _ _ => .ensure (caught_text _)

theorem raises_objectParts : OnlyRaises Raised.IsCaught (objectParts host s seen) := by
  refine .bind (raises_bounds _ _ _) fun _ _ => .bind (.ensure (caught_text _)) fun _ _ => ?_
  split
  · exact .bind (.ensure (caught_text _)) fun _ _ => .bind (raises_checkRecord _ _ _) fun _ _ =>
      .bind (.ensure (caught_text _)) fun _ _ => .bind (.ensure (caught_text _)) fun _ _ => .ok _
  · exact .bind (.ensure (caught_text _)) fun _ _ => .ok _
  · exact .error (caught_text _)

theorem raises_arrayParts : OnlyRaises Raised.IsCaught (arrayParts s seen) := by
  unfold arrayParts
  split
  · exact .error (caught_text _)
  · exact .bind (raises_bounds _ _ _) fun _ _ => .bind (.ensure (caught_text _)) fun _ _ =>
      .bind (.ensure (caught_text _)) fun _ _ => .ok _

/-! ### Numbers and patterns of a node -/

def TooLarge (host : Host) (s : Dict) (key : String) : Prop :=
  ∃ n, s.get? (lit key) = some (.int n) ∧ host.floats.ofInt n = none

theorem floatAt_of_numeric {key : String} (h : IsNumeric host s key) :
    (TooLarge host s key ∧ floatAt host s key = .error .overflowError) ∨
      ¬TooLarge host s key ∧ ∃ q, floatAt host s key = .ok q := by
  unfold floatAt TooLarge
  cases hget : s.get? (lit key) with
  | none => exact .inr ⟨nofun, none, rfl⟩
  | some value =>
    obtain ⟨q, hq⟩ := h value hget
    cases value with
    | int n =>
      cases hfloat : host.floats.ofInt n with
      | none => exact .inl ⟨⟨n, rfl, hfloat⟩, by simp [toFloat, hfloat]⟩
      | some literal =>
        refine .inr ⟨?_, some (host.value literal), by simp [toFloat, hfloat]⟩
        rintro ⟨n', hn, hnone⟩
        cases hn
        rw [hfloat] at hnone
        cases hnone
    | float literal =>
      refine .inr ⟨?_, some (host.value literal), rfl⟩
      rintro ⟨n, hn, -⟩
      cases hn
    | _ => cases hq

/-- The keyword that bounds from below, and the one from above. -/
def lowerKey (s : Dict) : String := if s.has (lit "exclusiveMinimum") then "exclusiveMinimum" else "minimum"

def upperKey (s : Dict) : String := if s.has (lit "exclusiveMaximum") then "exclusiveMaximum" else "maximum"

/-- A keyword of a number schema is too large where the check makes it a float. -/
structure NumberStops (host : Host) (s : Dict) : Prop where
  numbers : ∀ key ∈ numericNames, IsNumeric host s key
  tooLarge : TooLarge host s "multipleOf" ∨
    (∃ multiple, floatAt host s "multipleOf" = .ok multiple ∧ multiple.all (0 < ·) = true) ∧
      s.has (lit (lowerKey s)) = true ∧ s.has (lit (upperKey s)) = true ∧
      (TooLarge host s (lowerKey s) ∨ TooLarge host s (upperKey s))

/-- The pattern of a string schema has too large a repetition. -/
structure PatternStops (host : Host) (s : Dict) : Prop where
  bounded : ∃ least most, bounds s "minLength" "maxLength" maxStructuredOutputBytes =
    .ok (least, most) ∧ least ≤ most
  pattern : ∃ pattern, s.get? (lit "pattern") = some (.str pattern) ∧
    (∃ size ≤ maxOutputPropertyNameBytes, utf8Size pattern = .ok size) ∧
    host.compiles pattern = none

theorem lowerKey_mem : lowerKey s ∈ numericNames := by
  unfold lowerKey
  split_ifs <;> decide

theorem upperKey_mem : upperKey s ∈ numericNames := by
  unfold upperKey
  split_ifs <;> decide

theorem checkNumber_eq (type : PyStr) : checkNumber host s type = (do
    numericNames.forM fun key =>
      ensure ((s.get? (lit key)).all fun value => (number? host value).isSome)
        (.valueError s!"output schema {key} must be a finite JSON number")
    ensure ((← floatAt host s "multipleOf").all (0 < ·))
      (.valueError "output schema multipleOf must be positive")
    if s.has (lit (lowerKey s)) ∧ s.has (lit (upperKey s)) then
      let lower ← floatAt host s (lowerKey s)
      let upper ← floatAt host s (upperKey s)
      ensure (lower.all fun lower => upper.all (lower ≤ ·))
        (.valueError "output schema numeric bounds are inverted")
    ensure (∀ key ∈ structuralKeys s, key ∈ numericNames.map lit) (.inapplicable type)) := rfl

theorem isNumeric_of_forM (h : (numericNames.forM fun key =>
      ensure ((s.get? (lit key)).all fun value => (number? host value).isSome)
        (Raised.valueError s!"output schema {key} must be a finite JSON number")) = .ok ()) :
    ∀ key ∈ numericNames, IsNumeric host s key := by
  intro key hkey value hvalue
  have hnumber := ensure_eq_ok.1 (forM_eq_ok.1 h key hkey)
  rw [hvalue, Option.all_some] at hnumber
  exact Option.isSome_iff_exists.1 hnumber

theorem checkNumber_error {type : PyStr} (h : checkNumber host s type = .error e) :
    e.IsCaught ∨ e = .overflowError ∧ NumberStops host s := by
  rw [checkNumber_eq] at h
  obtain h | ⟨⟨⟩, hnumbers, h⟩ := bind_eq_error.1 h
  · exact .inl (OnlyRaises.forM (fun _ _ => .ensure (caught_text _)) e h)
  have hnumeric := isNumeric_of_forM hnumbers
  have hmultiple := floatAt_of_numeric (hnumeric "multipleOf" (by decide))
  obtain h | ⟨multiple, hfound, h⟩ := bind_eq_error.1 h
  · obtain ⟨hlarge, herror⟩ | ⟨-, q, hq⟩ := hmultiple
    · cases h.symm.trans herror
      exact .inr ⟨rfl, hnumeric, .inl hlarge⟩
    · cases h.symm.trans hq
  obtain h | ⟨⟨⟩, hpositive, h⟩ := bind_eq_error.1 h
  · exact .inl (OnlyRaises.ensure (caught_text _) e h)
  have hlast : OnlyRaises Raised.IsCaught
      (ensure (∀ key ∈ structuralKeys s, key ∈ numericNames.map lit) (.inapplicable type)) :=
    .ensure (.inl rfl)
  split_ifs at h with hboth
  · have hstops : TooLarge host s (lowerKey s) ∨ TooLarge host s (upperKey s) →
        NumberStops host s := fun hlarge =>
      ⟨hnumeric, .inr ⟨⟨multiple, hfound, ensure_eq_ok.1 hpositive⟩, hboth.1, hboth.2, hlarge⟩⟩
    have hlower := floatAt_of_numeric (hnumeric (lowerKey s) lowerKey_mem)
    have hupper := floatAt_of_numeric (hnumeric (upperKey s) upperKey_mem)
    obtain h | ⟨lower, -, h⟩ := bind_eq_error.1 h
    · obtain ⟨hlarge, herror⟩ | ⟨-, q, hq⟩ := hlower
      · cases h.symm.trans herror
        exact .inr ⟨rfl, hstops (.inl hlarge)⟩
      · cases h.symm.trans hq
    obtain h | ⟨upper, -, h⟩ := bind_eq_error.1 h
    · obtain ⟨hlarge, herror⟩ | ⟨-, q, hq⟩ := hupper
      · cases h.symm.trans herror
        exact .inr ⟨rfl, hstops (.inr hlarge)⟩
      · cases h.symm.trans hq
    obtain h | ⟨⟨⟩, -, h⟩ := bind_eq_error.1 h
    · exact .inl (OnlyRaises.ensure (caught_text _) e h)
    · exact .inl (hlast e h)
  · exact .inl (hlast e h)

theorem checkString_error (h : checkString host s = .error e) :
    e.IsCaught ∨ e = .overflowError ∧ PatternStops host s := by
  obtain h | ⟨⟨least, most⟩, hbounds, h⟩ := bind_eq_error.1 h
  · exact .inl (raises_bounds _ _ _ e h)
  obtain h | ⟨⟨⟩, hle, h⟩ := bind_eq_error.1 h
  · exact .inl (OnlyRaises.ensure (caught_text _) e h)
  split at h
  · cases h
  · rename_i pattern hpattern
    obtain h | ⟨size, hsize, h⟩ := bind_eq_error.1 h
    · exact .inl (raises_utf8Size _ e h)
    obtain h | ⟨⟨⟩, hshort, h⟩ := bind_eq_error.1 h
    · exact .inl (OnlyRaises.ensure (caught_text _) e h)
    split at h
    · rename_i hcompiles
      cases h
      exact .inr ⟨rfl, ⟨least, most, hbounds, ensure_eq_ok.1 hle⟩, pattern, hpattern,
        ⟨size, ensure_eq_ok.1 hshort, hsize⟩, hcompiles⟩
    · exact .inl (OnlyRaises.ensure (caught_text _) e h)
  · cases h
    exact .inl (caught_text _)

theorem floatAt_of_tooLarge {key : String} (h : TooLarge host s key) :
    floatAt host s key = .error .overflowError := by
  obtain ⟨n, hget, hnone⟩ := h
  unfold floatAt
  rw [hget]
  simp [toFloat, hnone]

theorem NumberStops.checkNumber (h : NumberStops host s) (type : PyStr) :
    checkNumber host s type = .error .overflowError := by
  have hnumbers : (numericNames.forM fun key =>
      ensure ((s.get? (lit key)).all fun value => (number? host value).isSome)
        (Raised.valueError s!"output schema {key} must be a finite JSON number")) = .ok () := by
    refine forM_eq_ok.2 fun key hkey => ensure_eq_ok.2 ((Option.all_eq_true _ _).2 fun value hvalue => ?_)
    exact Option.isSome_iff_exists.2 (h.numbers key hkey value hvalue)
  rw [checkNumber_eq]
  refine bind_eq_error.2 (.inr ⟨(), hnumbers, bind_eq_error.2 ?_⟩)
  obtain hlarge | ⟨⟨multiple, hfound, hpositive⟩, hlow, hhigh, hlarge⟩ := h.tooLarge
  · exact .inl (floatAt_of_tooLarge hlarge)
  · refine .inr ⟨multiple, hfound, bind_eq_error.2 (.inr ⟨(), ensure_eq_ok.2 hpositive, ?_⟩)⟩
    rw [if_pos ⟨hlow, hhigh⟩]
    obtain ⟨-, hlower⟩ | ⟨hnot, lower, hlower⟩ :=
      floatAt_of_numeric (h.numbers (lowerKey s) lowerKey_mem)
    · exact bind_eq_error.2 (.inl hlower)
    · refine bind_eq_error.2 (.inr ⟨lower, hlower, bind_eq_error.2 (.inl ?_)⟩)
      exact floatAt_of_tooLarge (hlarge.resolve_left hnot)

theorem PatternStops.checkString (h : PatternStops host s) :
    checkString host s = .error .overflowError := by
  obtain ⟨⟨least, most, hbounds, hle⟩, pattern, hpattern, ⟨size, hshort, hsize⟩, hcompiles⟩ := h
  refine bind_eq_error.2 (.inr ⟨(least, most), hbounds, ?_⟩)
  refine bind_eq_error.2 (.inr ⟨(), ensure_eq_ok.2 hle, ?_⟩)
  simp only [hpattern]
  refine bind_eq_error.2 (.inr ⟨size, hsize, ?_⟩)
  refine bind_eq_error.2 (.inr ⟨(), ensure_eq_ok.2 hshort, ?_⟩)
  rw [hcompiles]

/-! ### Nodes -/

/-- The checks of a node before its type is looked at. -/
structure Begun (host : Host) (s : Dict) (root : Bool) : Prop where
  keys : keysIn s schemaKeys = true
  metadata : validateMetadata s = .ok ()
  noUnion : s.get? (lit "oneOf") = none
  types : checkTypes root (schemaTypes s) = .ok ()
  constant : checkConstant host s (schemaTypes s) = .ok ()
  enum : checkEnum host s (schemaTypes s) = .ok ()

/-- The parts of a node by its types, where `structural` are the keys that are left. -/
def partsOfTypes (host : Host) (s : Dict) (seen : ℕ) (structural types : List PyStr) :
    Checked (ℕ × List Child) :=
  match types with
  | [type] =>
    if type = lit "object" then objectParts host s seen
    else if type = lit "array" then arrayParts s seen
    else if type = lit "number" ∨ type = lit "integer" then do
      checkNumber host s type
      pure (seen, [])
    else do
      ensure (structural = []) (.inapplicable type)
      pure (seen, [])
  | _ => do
    ensure (structural = [])
      (.valueError "union schema constraints do not apply to a declared type")
    pure (seen, [])

theorem partsOfTypes_error {structural types : List PyStr}
    (h : partsOfTypes host s seen structural types = .error e) :
    e.IsCaught ∨ e = .overflowError ∧ ∃ type, types = [type] ∧
      (type = lit "number" ∨ type = lit "integer") ∧ NumberStops host s := by
  unfold partsOfTypes at h
  split at h
  · rename_i type
    split_ifs at h with hobject harray hnumber
    · exact .inl (raises_objectParts e h)
    · exact .inl (raises_arrayParts e h)
    · obtain h | ⟨⟨⟩, -, h⟩ := bind_eq_error.1 h
      · obtain hcaught | ⟨hover, hstops⟩ := checkNumber_error h
        · exact .inl hcaught
        · exact .inr ⟨hover, type, rfl, hnumber, hstops⟩
      · cases h
    · obtain h | ⟨⟨⟩, -, h⟩ := bind_eq_error.1 h
      · exact .inl (OnlyRaises.ensure (.inl rfl) e h)
      · cases h
  · obtain h | ⟨⟨⟩, -, h⟩ := bind_eq_error.1 h
    · exact .inl (OnlyRaises.ensure (caught_text _) e h)
    · cases h

theorem nodeParts_plain (h : Begun host s root) (seen : ℕ) : ∃ structural,
    nodeParts host s root seen =
      if lit "string" ∈ schemaTypes s then do
        checkString host s
        partsOfTypes host s seen structural (schemaTypes s)
      else partsOfTypes host s seen structural (schemaTypes s) := by
  refine ⟨(structuralKeys s).filter fun key =>
    ¬(lit "string" ∈ schemaTypes s ∧ key ∈ [lit "minLength", lit "maxLength", lit "pattern"]), ?_⟩
  unfold nodeParts
  rw [ensure_of h.keys, h.metadata, h.noUnion]
  show (do
    checkTypes root (schemaTypes s)
    checkConstant host s (schemaTypes s)
    checkEnum host s (schemaTypes s)
    _) = _
  rw [h.types, h.constant, h.enum]
  rfl

/-- The check of a node by itself stops at what is too large. -/
inductive NodeStops (host : Host) (s : Dict) (root : Bool) : Prop
  | pattern (begun : Begun host s root) (string : lit "string" ∈ schemaTypes s)
      (h : PatternStops host s)
  | number (begun : Begun host s root) {type : PyStr} (types : schemaTypes s = [type])
      (number : type = lit "number" ∨ type = lit "integer") (h : NumberStops host s)

theorem nodeParts_error (h : nodeParts host s root seen = .error e) :
    e.IsCaught ∨ e = .overflowError ∧ NodeStops host s root := by
  have hnode := h
  obtain h | ⟨⟨⟩, hkeys, h⟩ := bind_eq_error.1 h
  · exact .inl (OnlyRaises.ensure (.inl rfl) e h)
  obtain h | ⟨⟨⟩, hmetadata, h⟩ := bind_eq_error.1 h
  · exact .inl (raises_validateMetadata e h)
  split at h
  · obtain h | ⟨children, -, h⟩ := bind_eq_error.1 h
    · exact .inl (raises_unionChildren _ e h)
    · cases h
  rename_i hunion
  obtain h | ⟨⟨⟩, htypes, h⟩ := bind_eq_error.1 h
  · exact .inl (raises_checkTypes _ e h)
  obtain h | ⟨⟨⟩, hconstant, h⟩ := bind_eq_error.1 h
  · exact .inl (raises_checkConstant _ e h)
  obtain h | ⟨⟨⟩, henum, h⟩ := bind_eq_error.1 h
  · exact .inl (raises_checkEnum _ e h)
  have hbegun : Begun host s root :=
    ⟨ensure_eq_ok.1 hkeys, hmetadata, hunion, htypes, hconstant, henum⟩
  obtain ⟨structural, hparts⟩ := nodeParts_plain hbegun seen
  have hlast : partsOfTypes host s seen structural (schemaTypes s) = .error e →
      e.IsCaught ∨ e = .overflowError ∧ NodeStops host s root := by
    intro h
    obtain hcaught | ⟨hover, type, htype, hnumber, hstops⟩ := partsOfTypes_error h
    · exact .inl hcaught
    · exact .inr ⟨hover, .number hbegun htype hnumber hstops⟩
  rw [hparts] at hnode
  split_ifs at hnode with hstring
  · obtain hnode | ⟨⟨⟩, -, hnode⟩ := bind_eq_error.1 hnode
    · obtain hcaught | ⟨hover, hstops⟩ := checkString_error hnode
      · exact .inl hcaught
      · exact .inr ⟨hover, .pattern hbegun hstring hstops⟩
    · exact hlast hnode
  · exact hlast hnode

theorem NodeStops.nodeParts (h : NodeStops host s root) :
    nodeParts host s root seen = .error .overflowError := by
  cases h with
  | pattern begun string h =>
    obtain ⟨structural, hparts⟩ := nodeParts_plain begun seen
    rw [hparts, if_pos string]
    exact bind_eq_error.2 (.inl h.checkString)
  | @number begun type types number h =>
    obtain ⟨structural, hparts⟩ := nodeParts_plain begun seen
    have hstring : lit "string" ∉ schemaTypes s := by
      rw [types, List.mem_singleton]
      obtain rfl | rfl := number <;> decide
    have hobject : type ≠ lit "object" := by obtain rfl | rfl := number <;> decide
    have harray : type ≠ lit "array" := by obtain rfl | rfl := number <;> decide
    rw [hparts, if_neg hstring, types]
    unfold partsOfTypes
    dsimp only
    rw [if_neg hobject, if_neg harray, if_pos number]
    exact bind_eq_error.2 (.inl (h.checkNumber type))

/-! ### Schemas -/

/-- The checks in front of the schemas in a node raise only what is caught. -/
def ChecksCaught (children : List Child) : Prop :=
  ∀ child ∈ children, OnlyRaises Raised.IsCaught child.check

variable {parts : ℕ × List Child}

theorem checksCaught_union {branches : Json} {children : List Child}
    (h : unionChildren s root branches = .ok children) : ChecksCaught children := by
  obtain ⟨⟨⟩, -, h⟩ := bind_eq_ok.1 h
  split at h
  · obtain ⟨⟨⟩, -, h⟩ := bind_eq_ok.1 h
    cases h
    intro child hchild
    obtain ⟨branch, -, rfl⟩ := List.mem_map.1 hchild
    exact .ok ()
  · cases h

theorem checksCaught_object (h : objectParts host s seen = .ok parts) : ChecksCaught parts.2 := by
  obtain ⟨limits, -, h⟩ := bind_eq_ok.1 h
  obtain ⟨⟨⟩, -, h⟩ := bind_eq_ok.1 h
  split at h
  · obtain ⟨⟨⟩, -, h⟩ := bind_eq_ok.1 h
    obtain ⟨⟨⟩, -, h⟩ := bind_eq_ok.1 h
    obtain ⟨⟨⟩, -, h⟩ := bind_eq_ok.1 h
    obtain ⟨⟨⟩, -, h⟩ := bind_eq_ok.1 h
    cases h
    intro child hchild
    obtain ⟨field, -, rfl⟩ := List.mem_map.1 hchild
    exact raises_checkPropertyName field.1
  · obtain ⟨⟨⟩, -, h⟩ := bind_eq_ok.1 h
    cases h
    intro child hchild
    obtain rfl | hchild := List.mem_cons.1 hchild
    · exact .ok ()
    · obtain rfl := List.mem_singleton.1 hchild
      exact .ensure (caught_text _)
  · cases h

theorem checksCaught_array (h : arrayParts s seen = .ok parts) : ChecksCaught parts.2 := by
  unfold arrayParts at h
  split at h
  · cases h
  · obtain ⟨limits, -, h⟩ := bind_eq_ok.1 h
    obtain ⟨⟨⟩, -, h⟩ := bind_eq_ok.1 h
    obtain ⟨⟨⟩, -, h⟩ := bind_eq_ok.1 h
    cases h
    intro child hchild
    obtain rfl := List.mem_singleton.1 hchild
    exact .ok ()

theorem checksCaught_types {structural types : List PyStr}
    (h : partsOfTypes host s seen structural types = .ok parts) : ChecksCaught parts.2 := by
  unfold partsOfTypes at h
  split at h
  · split_ifs at h
    · exact checksCaught_object h
    · exact checksCaught_array h
    · obtain ⟨⟨⟩, -, h⟩ := bind_eq_ok.1 h
      cases h
      exact nofun
    · obtain ⟨⟨⟩, -, h⟩ := bind_eq_ok.1 h
      cases h
      exact nofun
  · obtain ⟨⟨⟩, -, h⟩ := bind_eq_ok.1 h
    cases h
    exact nofun

theorem checksCaught_node (h : nodeParts host s root seen = .ok parts) : ChecksCaught parts.2 := by
  have hnode := h
  obtain ⟨⟨⟩, hkeys, h⟩ := bind_eq_ok.1 h
  obtain ⟨⟨⟩, hmetadata, h⟩ := bind_eq_ok.1 h
  split at h
  · obtain ⟨children, hchildren, h⟩ := bind_eq_ok.1 h
    cases h
    exact checksCaught_union hchildren
  · rename_i hunion
    obtain ⟨⟨⟩, htypes, h⟩ := bind_eq_ok.1 h
    obtain ⟨⟨⟩, hconstant, h⟩ := bind_eq_ok.1 h
    obtain ⟨⟨⟩, henum, -⟩ := bind_eq_ok.1 h
    have hbegun : Begun host s root :=
      ⟨ensure_eq_ok.1 hkeys, hmetadata, hunion, htypes, hconstant, henum⟩
    obtain ⟨structural, hparts⟩ := nodeParts_plain hbegun seen
    rw [hparts] at hnode
    split_ifs at hnode
    · obtain ⟨⟨⟩, -, hnode⟩ := bind_eq_ok.1 hnode
      exact checksCaught_types hnode
    · exact checksCaught_types hnode

/-- One step of the loop over the schemas in a node. -/
def visitChild (host : Host) (depth seen : ℕ) (child : Child) : Checked ℕ := do
  child.check
  validateNode host depth child.root child.node seen

theorem validateNode_obj (host : Host) (depth : ℕ) (root : Bool) (s : Dict) (seen : ℕ) :
    validateNode host (depth + 1) root (.obj s) seen = (do
      let (seen, children) ← nodeParts host s root seen
      children.foldlM (visitChild host depth) seen) := by
  rw [validateNode]
  rfl

/-- The check of a schema comes to a node that stops it, with all before the node accepted. -/
inductive SchemaStops (host : Host) : ℕ → Bool → Json → ℕ → Prop
  | node {depth : ℕ} {root : Bool} {s : Dict} {seen : ℕ} (h : NodeStops host s root) :
      SchemaStops host (depth + 1) root (.obj s) seen
  | child {depth : ℕ} {root : Bool} {s : Dict} {seen mid last : ℕ} {before after : List Child}
      {child : Child} (parts : nodeParts host s root seen = .ok (mid, before ++ child :: after))
      (accepted : before.foldlM (visitChild host depth) mid = .ok last)
      (check : child.check = .ok ()) (h : SchemaStops host depth child.root child.node last) :
      SchemaStops host (depth + 1) root (.obj s) seen

theorem SchemaStops.validateNode {node : Json} (h : SchemaStops host depth root node seen) :
    validateNode host depth root node seen = .error .overflowError := by
  induction h with
  | node h =>
    rw [validateNode_obj]
    exact bind_eq_error.2 (.inl h.nodeParts)
  | @child depth root s seen mid last before after child parts accepted check h ih =>
    rw [validateNode_obj]
    refine bind_eq_error.2 (.inr ⟨(mid, before ++ child :: after), parts, ?_⟩)
    exact foldlM_eq_error.2 ⟨before, child, after, last, rfl, accepted,
      bind_eq_error.2 (.inr ⟨(), check, ih⟩)⟩

/-- The check of a schema raises a `ValueError`, unless it comes to a node that stops it. -/
theorem validateNode_error {node : Json} (h : validateNode host depth root node seen = .error e) :
    e.IsCaught ∨ e = .overflowError ∧ SchemaStops host depth root node seen := by
  induction depth generalizing root node seen with
  | zero =>
    unfold Schema.validateNode at h
    split at h
    · cases h
      exact .inl (caught_text _)
    · rename_i hdepth
      exact absurd hdepth (Nat.succ_ne_zero _).symm
    · cases h
      exact .inl (caught_text _)
  | succ depth ih =>
    cases node with
    | obj s =>
      rw [validateNode_obj] at h
      obtain h | ⟨⟨mid, children⟩, hparts, h⟩ := bind_eq_error.1 h
      · obtain hcaught | ⟨hover, hstops⟩ := nodeParts_error h
        · exact .inl hcaught
        · exact .inr ⟨hover, .node hstops⟩
      · obtain ⟨before, child, after, last, hsplit, hbefore, hstep⟩ := foldlM_eq_error.1 h
        obtain rfl : children = before ++ child :: after := hsplit
        have hmem : child ∈ before ++ child :: after := List.mem_append_cons_self
        obtain hstep | ⟨⟨⟩, hcheck, hstep⟩ := bind_eq_error.1 hstep
        · exact .inl (checksCaught_node hparts child hmem e hstep)
        · obtain hcaught | ⟨hover, hstops⟩ := ih hstep
          · exact .inl hcaught
          · exact .inr ⟨hover, .child hparts hbefore hcheck hstops⟩
    | _ =>
      cases h
      exact .inl (caught_text _)

end CodexFlow.Schema
