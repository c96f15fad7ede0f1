import CodexFlow.Schema.Escapes
import CodexFlow.Schema.Multiples

/-!
# Structured outputs are answered or refused

What the validation of a value raises: a `ValueError`, unless it comes to a quotient that has no float.
-/

namespace CodexFlow.Schema

open Hook (PyStr Json Dict lit isSurrogate)
open Capsule (byteLength printable text)
open Checked

variable {host : Host} {s : Dict} {depth seen : ℕ} {path : PyStr} {v : Json} {q : ℚ} {e : Raised}

/-! ### Checks of one value -/

theorem raises_compared (value : Json) : OnlyRaises Raised.IsCaught (compared host value) := by
  unfold compared
  split
  · exact .ok _
  · split
    · exact .ok _
    · exact .error (.inr (.inr rfl))

theorem raises_within {low high : String} {maximum size : ℕ} {error : Raised}
    (h : error.IsCaught) : OnlyRaises Raised.IsCaught (within host s low high maximum size error) :=
  .bind (raises_compared _) fun _ _ => .bind (.ensure h) fun _ _ =>
    .bind (raises_compared _) fun _ _ => .ensure h

theorem raises_checkString' (content : PyStr) :
    OnlyRaises Raised.IsCaught (checkString' host s path content) := by
  refine .bind (raises_within (caught_field _ _)) fun _ _ => ?_
  split
  · exact .ensure (caught_field _ _)
  · exact .ok ()

theorem raises_bounded (key : String) (holds : ℚ → Bool) (problem : String) :
    OnlyRaises Raised.IsCaught (bounded host s key holds (.field path problem)) := by
  unfold bounded
  split
  · exact .ok ()
  · exact .bind (raises_compared _) fun _ _ => .ensure (caught_field _ _)

theorem raises_subscript (key : String) : OnlyRaises Raised.IsCaught (subscript s key) := by
  unfold subscript
  split
  · exact .ok _
  · exact .error (.inr (.inl rfl))

theorem raises_checkKeys (properties fields : Dict) :
    OnlyRaises Raised.IsCaught (checkKeys s path properties fields) := by
  unfold checkKeys
  split_ifs
  · exact .ensure (caught_field _ _)
  · exact .ensure (caught_field _ _)

theorem raises_checkChoices : OnlyRaises Raised.IsCaught (checkChoices host s path v) := by
  refine .bind (.ensure (caught_field _ _)) fun _ _ => ?_
  split
  · exact .ensure (caught_field _ _)
  · exact .error (.inr (.inr rfl))
  · exact .ok ()

theorem raises_itemsHanded (items : List Json) :
    OnlyRaises Raised.IsCaught (itemsHanded host s path items) :=
  .bind (raises_within (caught_field _ _)) fun _ _ => .bind (.ensure (caught_field _ _)) fun _ _ =>
    .bind (raises_subscript _) fun _ _ => .ok _

theorem raises_fieldsHanded (fields : Dict) :
    OnlyRaises Raised.IsCaught (fieldsHanded s path fields) := by
  unfold fieldsHanded
  split
  · refine .bind (raises_checkKeys _ _) fun _ _ => .mapM fun field _ => ?_
    obtain ⟨key, child⟩ := field
    dsimp only
    split
    · exact .ok _
    · exact .error (.inr (.inl rfl))
  · exact .bind (raises_subscript _) fun _ _ => .bind (raises_subscript _) fun _ _ => .ok _

/-! ### Quotients -/

/-- A number is within the bounds of its schema, and its quotient by the multiple has no float. -/
structure QuotientStops (host : Host) (s : Dict) (path : PyStr) (v : Json) (q : ℚ) : Prop where
  minimum : bounded host s "minimum" (· ≤ q) (.field path "violates minimum") = .ok ()
  maximum : bounded host s "maximum" (q ≤ ·) (.field path "violates maximum") = .ok ()
  exclusiveMinimum :
    bounded host s "exclusiveMinimum" (· < q) (.field path "violates exclusiveMinimum") = .ok ()
  exclusiveMaximum :
    bounded host s "exclusiveMaximum" (q < ·) (.field path "violates exclusiveMaximum") = .ok ()
  multiple : ∃ multiple, s.get (lit "multipleOf") = multiple ∧ multiple ≠ .null ∧
    number? host multiple ≠ some 0 ∧ quotientOverflows host v multiple = true

theorem checkNumber'_error (hfloats : host.Binary64)
    (hzero : number? host (s.get (lit "multipleOf")) ≠ some 0)
    (h : checkNumber' host s path v q = .error e) :
    e.IsCaught ∨ e = .overflowError ∧ QuotientStops host s path v q := by
  obtain h | ⟨⟨⟩, hminimum, h⟩ := bind_eq_error.1 h
  · exact .inl (raises_bounded _ _ _ e h)
  obtain h | ⟨⟨⟩, hmaximum, h⟩ := bind_eq_error.1 h
  · exact .inl (raises_bounded _ _ _ e h)
  obtain h | ⟨⟨⟩, hlower, h⟩ := bind_eq_error.1 h
  · exact .inl (raises_bounded _ _ _ e h)
  obtain h | ⟨⟨⟩, hupper, h⟩ := bind_eq_error.1 h
  · exact .inl (raises_bounded _ _ _ e h)
  split at h
  · cases h
  · rename_i hnull
    split at h
    · rename_i hoverflows
      cases h
      have hquotient := (hfloats.isMultiple v _ hzero).1 hoverflows
      exact .inr ⟨rfl, hminimum, hmaximum, hlower, hupper, _, rfl, hnull, hzero, hquotient⟩
    · exact .inl (OnlyRaises.ensure (caught_field _ _) e h)

theorem QuotientStops.checkNumber' (hfloats : host.Binary64) (h : QuotientStops host s path v q) :
    checkNumber' host s path v q = .error .overflowError := by
  refine bind_eq_error.2 (.inr ⟨(), h.minimum, bind_eq_error.2 (.inr ⟨(), h.maximum, ?_⟩)⟩)
  refine bind_eq_error.2 (.inr ⟨(), h.exclusiveMinimum, ?_⟩)
  refine bind_eq_error.2 (.inr ⟨(), h.exclusiveMaximum, ?_⟩)
  obtain ⟨multiple, hget, hnull, hzero, hquotient⟩ := h.multiple
  have hnone := (hfloats.isMultiple v multiple hzero).2 hquotient
  rw [hget]
  split
  · exact absurd rfl hnull
  · rw [hnone]

/-- The check of a value by itself stops at a quotient. -/
structure ValueStops (host : Host) (s : Dict) (path : PyStr) (v : Json) : Prop where
  type : ∃ type types, (valueTypes s).filter (matchesType host v) = type :: types ∧
    (type = lit "number" ∨ type = lit "integer")
  choices : checkChoices host s path v = .ok ()
  quotient : ∃ q, number? host v = some q ∧ QuotientStops host s path v q

theorem typedParts_error (hfloats : host.Binary64) {type : PyStr}
    (hzero : ∀ q, number? host v = some q → number? host (s.get (lit "multipleOf")) ≠ some 0)
    (h : typedParts host s path type v seen = .error e) :
    e.IsCaught ∨ e = .overflowError ∧ (type = lit "number" ∨ type = lit "integer") ∧
      ∃ q, number? host v = some q ∧ QuotientStops host s path v q := by
  have hnumber : ∀ q, number? host v = some q → (do
      if type = lit "number" ∨ type = lit "integer" then checkNumber' host s path v q
      pure (seen, []) : Checked (ℕ × List Handed)) = .error e →
      e.IsCaught ∨ e = .overflowError ∧ (type = lit "number" ∨ type = lit "integer") ∧
        ∃ q, number? host v = some q ∧ QuotientStops host s path v q := by
    intro q hq h
    split_ifs at h with htype
    · obtain h | ⟨⟨⟩, -, h⟩ := bind_eq_error.1 h
      · obtain hcaught | ⟨hover, hstops⟩ := checkNumber'_error hfloats (hzero q hq) h
        · exact .inl hcaught
        · exact .inr ⟨hover, htype, q, hq, hstops⟩
      · cases h
    · cases h
  cases v with
  | null => cases h
  | bool b => cases h
  | int n => exact hnumber n rfl h
  | float literal => exact hnumber _ rfl h
  | str content =>
    simp only [typedParts] at h
    split_ifs at h
    · obtain h | ⟨⟨⟩, -, h⟩ := bind_eq_error.1 h
      · exact .inl (raises_checkString' content e h)
      · cases h
    · cases h
  | arr items =>
    simp only [typedParts] at h
    split_ifs at h
    · obtain h | ⟨handed, -, h⟩ := bind_eq_error.1 h
      · exact .inl (raises_itemsHanded items e h)
      · cases h
    · cases h
  | obj fields =>
    simp only [typedParts] at h
    split_ifs at h
    · obtain h | ⟨⟨⟩, -, h⟩ := bind_eq_error.1 h
      · exact .inl (raises_within (caught_field _ _) e h)
      obtain h | ⟨⟨⟩, -, h⟩ := bind_eq_error.1 h
      · exact .inl (OnlyRaises.ensure (caught_text _) e h)
      obtain h | ⟨parts, -, h⟩ := bind_eq_error.1 h
      · exact .inl (raises_fieldsHanded fields e h)
      · cases h
    · cases h

theorem valueParts_error (hfloats : host.Binary64)
    (hzero : ∀ type, Typed host s v type → ∀ q, number? host v = some q →
      number? host (s.get (lit "multipleOf")) ≠ some 0)
    (h : valueParts host s path v seen = .error e) :
    e.IsCaught ∨ e = .overflowError ∧ ValueStops host s path v := by
  unfold valueParts at h
  split at h
  · cases h
    exact .inl (caught_field _ _)
  · rename_i type types hfilter
    obtain h | ⟨⟨⟩, hchoices, h⟩ := bind_eq_error.1 h
    · exact .inl (raises_checkChoices e h)
    have hmem : type ∈ (valueTypes s).filter (matchesType host v) := by
      rw [hfilter]
      exact List.mem_cons_self
    obtain ⟨hvalue, hmatches⟩ := List.mem_filter.1 hmem
    have htyped : Typed host s v type := ⟨hvalue, hmatches, (checkChoices_ok hchoices).1⟩
    obtain hcaught | ⟨hover, htype, hstops⟩ := typedParts_error hfloats (hzero type htyped) h
    · exact .inl hcaught
    · exact .inr ⟨hover, ⟨type, types, hfilter, htype⟩, hchoices, hstops⟩

theorem ValueStops.valueParts (hfloats : host.Binary64) (h : ValueStops host s path v) :
    valueParts host s path v seen = .error .overflowError := by
  obtain ⟨⟨type, types, hfilter, htype⟩, hchoices, q, hq, hstops⟩ := h
  have hparts : typedParts host s path type v seen = (do
      if type = lit "number" ∨ type = lit "integer" then checkNumber' host s path v q
      pure (seen, [])) := by
    cases v <;> cases hq <;> rfl
  unfold Schema.valueParts
  rw [hfilter]
  refine bind_eq_error.2 (.inr ⟨(), hchoices, ?_⟩)
  rw [hparts, if_pos htype]
  exact bind_eq_error.2 (.inl (hstops.checkNumber' hfloats))

/-! ### Multiples of accepted nodes -/

theorem multiple_of_checkNumber (hfloats : host.Binary64) {type : PyStr}
    (h : checkNumber host s type = .ok ()) : number? host (s.get (lit "multipleOf")) ≠ some 0 := by
  have hnumeric := numeric_of_checkNumber h "multipleOf" (by decide)
  rw [checkNumber_eq] at h
  obtain ⟨⟨⟩, -, h⟩ := bind_eq_ok.1 h
  obtain ⟨multiple, hfound, h⟩ := bind_eq_ok.1 h
  obtain ⟨⟨⟩, hpositive, -⟩ := bind_eq_ok.1 h
  have hpositive := ensure_eq_ok.1 hpositive
  unfold floatAt at hfound
  unfold Dict.get
  cases hget : s.get? (lit "multipleOf") with
  | none => exact nofun
  | some value =>
    rw [hget] at hfound
    obtain ⟨q, hq⟩ := hnumeric value hget
    intro hzero
    cases value with
    | int n =>
      obtain rfl : n = 0 := by
        have hcast : (n : ℚ) = 0 := Option.some.inj hzero
        exact_mod_cast hcast
      cases hfloat : host.floats.ofInt 0 with
      | none =>
        simp [toFloat, hfloat] at hfound
      | some literal =>
        simp only [toFloat, hfloat] at hfound
        cases hfound
        have hlt : (0 : ℚ) < host.value literal := of_decide_eq_true hpositive
        rw [hfloats.zero literal hfloat] at hlt
        exact absurd hlt (lt_irrefl _)
    | float literal =>
      cases hfound
      have hlt : (0 : ℚ) < host.value literal := of_decide_eq_true hpositive
      have hzero : host.value literal = 0 := Option.some.inj hzero
      rw [hzero] at hlt
      exact absurd hlt (lt_irrefl _)
    | _ => cases hq

theorem multiple_of_accepted (hfloats : host.Binary64) (h : Accepted host (depth + 1) (.obj s))
    (hunion : s.get? (lit "oneOf") = none)
    (hnumber : lit "number" ∈ schemaTypes s ∨ lit "integer" ∈ schemaTypes s) :
    number? host (s.get (lit "multipleOf")) ≠ some 0 := by
  obtain ⟨root, seen, seen', h⟩ := h
  rw [validateNode_obj] at h
  obtain ⟨⟨mid, children⟩, hparts, -⟩ := bind_eq_ok.1 h
  obtain ⟨-, -, -, -, hone, hmany⟩ := parts_by_type hunion hparts
  by_cases hlong : 1 < (schemaTypes s).length
  · have hnone := hmany hlong "multipleOf" (by decide)
    unfold Dict.get
    rw [hnone]
    exact nofun
  · have hpos : 0 < (schemaTypes s).length :=
      hnumber.elim List.length_pos_of_mem List.length_pos_of_mem
    obtain ⟨type, htype⟩ := List.length_eq_one_iff.1 (by omega : (schemaTypes s).length = 1)
    have honly : type = lit "number" ∨ type = lit "integer" := by
      rw [htype, List.mem_singleton, List.mem_singleton] at hnumber
      exact hnumber.imp Eq.symm Eq.symm
    exact multiple_of_checkNumber hfloats ((hone type htype).2.2 honly)

/-! ### Unions -/

section Unions

variable {run : Json → Checked ℕ} {start : ℕ × ℕ} {branches : List Json}

/-- The branches in front of one that raises something else than a `ValueError`. -/
def StopsAt (run : Json → Checked ℕ) (branches : List Json) (e : Raised) : Prop :=
  ∃ before branch after, branches = before ++ branch :: after ∧
    (∀ other ∈ before, OnlyRaises (fun e => e.isValueError = true) (run other)) ∧
    run branch = .error e ∧ e.isValueError = false

theorem matchBranches_error (h : matchBranches run start branches = .error e) :
    StopsAt run branches e := by
  induction branches generalizing start with
  | nil => cases h
  | cons first branches ih =>
    unfold matchBranches at h
    have hlater : ∀ {start}, OnlyRaises (fun e => e.isValueError = true) (run first) →
        matchBranches run start branches = .error e →
        StopsAt run (first :: branches) e := fun hfirst h => by
      obtain ⟨before, branch, after, rfl, hbefore, hrun⟩ := ih h
      exact ⟨first :: before, branch, after, rfl, List.forall_mem_cons.2 ⟨hfirst, hbefore⟩, hrun⟩
    split at h
    · rename_i seen hseen
      exact hlater (fun e' h' => nomatch hseen.symm.trans h') h
    · rename_i e' herror
      split_ifs at h with hvalue
      · refine hlater (fun e'' h' => ?_) h
        cases herror.symm.trans h'
        exact hvalue
      · cases h
        exact ⟨[], first, branches, rfl, nofun, herror, Bool.eq_false_iff.2 hvalue⟩

theorem matchBranches_stops {before after : List Json} {branch : Json}
    (hbefore : ∀ other ∈ before, OnlyRaises (fun e => e.isValueError = true) (run other))
    (h : run branch = .error e) (hvalue : e.isValueError = false) :
    matchBranches run start (before ++ branch :: after) = .error e := by
  induction before generalizing start with
  | nil =>
    rw [List.nil_append, matchBranches, h]
    dsimp only
    rw [if_neg (Bool.eq_false_iff.1 hvalue)]
  | cons first before ih =>
    obtain ⟨hfirst, hbefore⟩ := List.forall_mem_cons.1 hbefore
    rw [List.cons_append, matchBranches]
    cases hrun : run first with
    | ok seen => exact ih hbefore
    | error e' =>
      dsimp only
      rw [if_pos (hfirst e' hrun)]
      exact ih hbefore

end Unions

/-! ### Values -/

/-- The validation of a value comes to a quotient that stops it, with all before it answered. -/
inductive ValidationStops (host : Host) : ℕ → PyStr → Json → Json → ℕ → Prop
  | value {depth : ℕ} {path : PyStr} {v : Json} {s : Dict} {seen : ℕ}
      (noUnion : s.get? (lit "oneOf") = none) (h : ValueStops host s path v) :
      ValidationStops host (depth + 1) path v (.obj s) seen
  | part {depth : ℕ} {path : PyStr} {v : Json} {s : Dict} {seen mid last : ℕ}
      {before after : List Handed} {part : Handed} (noUnion : s.get? (lit "oneOf") = none)
      (parts : valueParts host s path v seen = .ok (mid, before ++ part :: after))
      (answered : before.foldlM (fun seen part =>
        validate host depth part.path part.item part.node seen) mid = .ok last)
      (h : ValidationStops host depth part.path part.item part.node last) :
      ValidationStops host (depth + 1) path v (.obj s) seen
  | branch {depth : ℕ} {path : PyStr} {v : Json} {s : Dict} {seen : ℕ} {before after : List Json}
      {branch : Json} (union : s.get? (lit "oneOf") = some (.arr (before ++ branch :: after)))
      (answered : ∀ other ∈ before,
        OnlyRaises (fun e => e.isValueError = true) (validate host depth path v other seen))
      (h : ValidationStops host depth path v branch seen) :
      ValidationStops host (depth + 1) path v (.obj s) seen

theorem validate_noUnion (h : s.get? (lit "oneOf") = none) (path : PyStr) (v : Json) (seen : ℕ) :
    validate host (depth + 1) path v (.obj s) seen = (do
      let (seen, parts) ← valueParts host s path v seen
      parts.foldlM (fun seen part => validate host depth part.path part.item part.node seen) seen) := by
  have hnull : s.get (lit "oneOf") = .null := by
    unfold Dict.get
    rw [h]
    rfl
  rw [validate]
  simp only [hnull]

theorem validate_branches {branches : List Json} (h : s.get? (lit "oneOf") = some (.arr branches))
    (path : PyStr) (v : Json) (seen : ℕ) :
    validate host (depth + 1) path v (.obj s) seen = (do
      let (matched, seen') ←
        matchBranches (fun branch => validate host depth path v branch seen) (0, seen) branches
      ensure (matched = 1) (.field path "must match exactly one oneOf branch")
      pure seen') := by
  rw [validate]
  simp only [get_of_get? h]

theorem ValidationStops.validate (hfloats : host.Binary64) {node : Json}
    (h : ValidationStops host depth path v node seen) :
    validate host depth path v node seen = .error .overflowError := by
  induction h with
  | value noUnion h =>
    rw [validate_noUnion noUnion]
    exact bind_eq_error.2 (.inl (h.valueParts hfloats))
  | @part depth path v s seen mid last before after part noUnion parts answered h ih =>
    rw [validate_noUnion noUnion]
    refine bind_eq_error.2 (.inr ⟨(mid, before ++ part :: after), parts, ?_⟩)
    exact foldlM_eq_error.2 ⟨before, part, after, last, rfl, answered, ih⟩
  | branch union answered h ih =>
    rw [validate_branches union]
    exact bind_eq_error.2 (.inl (matchBranches_stops answered ih rfl))

/-- The validation against an accepted schema raises a `ValueError`, unless it comes to a quotient
that stops it. -/
theorem validate_error (hfloats : host.Binary64) {node : Json}
    (haccepted : Accepted host depth node) (h : validate host depth path v node seen = .error e) :
    e.IsCaught ∨ e = .overflowError ∧ ValidationStops host depth path v node seen := by
  induction depth generalizing path v node seen with
  | zero =>
    obtain ⟨s, rest, -, hdepth, -⟩ := haccepted.cases
    exact absurd hdepth (Nat.succ_ne_zero _).symm
  | succ depth ih =>
    have hnode := haccepted
    obtain ⟨s, rest, rfl, hdepth, hkeys, hcases⟩ := haccepted.cases
    obtain rfl : depth = rest := Nat.succ.inj hdepth
    obtain ⟨branches, hunion⟩ | hplain := hcases
    · rw [validate_union hunion] at h
      obtain h | ⟨matched, -, h⟩ := bind_eq_error.1 h
      · obtain ⟨before, branch, after, rfl, hbefore, hrun, hvalue⟩ := matchBranches_error h
        obtain hcaught | ⟨hover, hstops⟩ :=
          ih (hunion.accepted branch List.mem_append_cons_self) hrun
        · exact .inl hcaught
        · exact .inr ⟨hover, .branch hunion.oneOf hbefore hstops⟩
      · obtain h | ⟨⟨⟩, -, h⟩ := bind_eq_error.1 h
        · exact .inl (OnlyRaises.ensure (caught_field _ _) e h)
        · cases h
    · rw [validate_plain hplain] at h
      obtain h | ⟨⟨mid, parts⟩, hparts, h⟩ := bind_eq_error.1 h
      · obtain hcaught | ⟨hover, hstops⟩ := valueParts_error hfloats (fun type htyped q hq =>
          multiple_of_accepted hfloats hnode hplain.noUnion (htyped.number_mem hplain hq)) h
        · exact .inl hcaught
        · exact .inr ⟨hover, .value hplain.noUnion hstops⟩
      · obtain ⟨before, part, after, last, hsplit, hbefore, hrun⟩ := foldlM_eq_error.1 h
        obtain rfl : parts = before ++ part :: after := hsplit
        have hpassed : Passed host (fun _ _ _ => True) depth s v seen mid
            (before ++ part :: after) := (valueParts_ok hplain hkeys hparts).2.1
        obtain hcaught | ⟨hover, hstops⟩ :=
          ih (hpassed.hands.accepted part List.mem_append_cons_self) hrun
        · exact .inl hcaught
        · exact .inr ⟨hover, .part hplain.noUnion hparts hbefore hstops⟩

/-! ### Totality -/

theorem guarded_error {α : Type} {content : String} {x : Checked α} {stops : Prop}
    (hx : ∀ e, x = .error e → e.IsCaught ∨ e = .overflowError ∧ stops)
    (h : guarded content x = .error e) : e.isValueError = true ∨ e = .overflowError ∧ stops := by
  cases x with
  | ok a => cases h
  | error e' =>
    obtain hcaught | ⟨rfl, hstops⟩ := hx e' rfl
    · obtain hvalue | rfl | rfl := hcaught
      · cases e' with
        | keyError => cases hvalue
        | typeError => cases hvalue
        | overflowError => cases hvalue
        | attributeError => cases hvalue
        | _ =>
          cases h
          exact .inl rfl
      · cases h
        exact .inl rfl
      · cases h
        exact .inl rfl
    · cases h
      exact .inr ⟨rfl, hstops⟩

/-- The error is a `ValueError`. -/
def Raised.IsValueError (e : Raised) : Prop := e.isValueError = true

theorem raises_text {c : Prop} [Decidable c] {content : String} :
    OnlyRaises Raised.IsValueError (ensure c (.valueError content)) := .ensure rfl

theorem validateOutputSchema_error {schema : Dict}
    (h : validateOutputSchema host schema = .error e) :
    e.IsValueError ∨
      e = .overflowError ∧ SchemaStops host maxOutputSchemaDepth true (.obj schema) 0 := by
  refine guarded_error (fun e h => ?_) h
  obtain h | ⟨seen, -, h⟩ := bind_eq_error.1 h
  · exact validateNode_error h
  · cases h

/-- The schema is accepted, and the value is interoperable and within the limit of bytes. -/
structure Walked (host : Host) (value : Json) (schema : Dict) : Prop where
  accepted : validateOutputSchema host schema = .ok ()
  interoperable : printable value = true
  bounded : ∃ size ≤ maxStructuredOutputBytes, utf8Size (text value) = .ok size

theorem validateStructuredOutput_error (hfloats : host.Binary64) {value : Json} {schema : Dict}
    (h : validateStructuredOutput host value schema = .error e) :
    e.IsValueError ∨
      e = .overflowError ∧ (SchemaStops host maxOutputSchemaDepth true (.obj schema) 0 ∨
        Walked host value schema ∧
          ValidationStops host maxOutputSchemaDepth (lit "output") value (.obj schema) 0) := by
  obtain h | ⟨⟨⟩, hschema, h⟩ := bind_eq_error.1 h
  · obtain hvalue | ⟨hover, hstops⟩ := validateOutputSchema_error h
    · exact .inl hvalue
    · exact .inr ⟨hover, .inl hstops⟩
  obtain h | ⟨⟨⟩, hprintable, h⟩ := bind_eq_error.1 h
  · exact .inl (raises_text e h)
  obtain h | ⟨size, hsize, h⟩ := bind_eq_error.1 h
  · obtain h | ⟨⟨⟩, -, h⟩ := bind_eq_error.1 h
    · exact .inl (raises_text e h)
    · cases h
  obtain h | ⟨⟨⟩, hbytes, h⟩ := bind_eq_error.1 h
  · exact .inl (raises_text e h)
  have haccepted : Accepted host maxOutputSchemaDepth (.obj schema) := by
    obtain ⟨seen, hnode, -⟩ := bind_eq_ok.1 (ok_of_guarded hschema)
    exact ⟨true, 0, seen, hnode⟩
  have hwalked : Walked host value schema :=
    ⟨hschema, ensure_eq_ok.1 hprintable, size, ensure_eq_ok.1 hbytes, hsize⟩
  refine guarded_error (fun e h => ?_) h
  obtain h | ⟨seen, -, h⟩ := bind_eq_error.1 h
  · obtain hcaught | ⟨hover, hstops⟩ := validate_error hfloats haccepted h
    · exact .inl hcaught
    · exact .inr ⟨hover, .inr ⟨hwalked, hstops⟩⟩
  · cases h

theorem SchemaStops.validateOutputSchema {schema : Dict}
    (h : SchemaStops host maxOutputSchemaDepth true (.obj schema) 0) :
    validateOutputSchema host schema = .error .overflowError := by
  unfold Schema.validateOutputSchema
  rw [h.validateNode]
  rfl

theorem Walked.validateStructuredOutput (hfloats : host.Binary64) {value : Json} {schema : Dict}
    (hwalked : Walked host value schema)
    (h : ValidationStops host maxOutputSchemaDepth (lit "output") value (.obj schema) 0) :
    validateStructuredOutput host value schema = .error .overflowError := by
  obtain ⟨size, hbytes, hsize⟩ := hwalked.bounded
  refine bind_eq_error.2 (.inr ⟨(), hwalked.accepted, ?_⟩)
  refine bind_eq_error.2 (.inr ⟨(), ensure_eq_ok.2 hwalked.interoperable, ?_⟩)
  refine bind_eq_error.2 (.inr ⟨size, hsize, bind_eq_error.2 (.inr ⟨(), ensure_eq_ok.2 hbytes, ?_⟩)⟩)
  rw [h.validate hfloats]
  rfl

/-- Both validators return or raise a `ValueError` exactly when neither comes to a keyword or a
pattern of the schema that is too large, nor to a quotient that is. -/
theorem validation_total_iff (host : Host) (hfloats : host.Binary64) (value : Json) (schema : Dict) :
    OnlyRaises Raised.IsValueError (validateOutputSchema host schema) ∧
      OnlyRaises Raised.IsValueError (validateStructuredOutput host value schema) ↔
    ¬SchemaStops host maxOutputSchemaDepth true (.obj schema) 0 ∧
      ¬(Walked host value schema ∧
        ValidationStops host maxOutputSchemaDepth (lit "output") value (.obj schema) 0) := by
  constructor
  · rintro ⟨hschema, hvalue⟩
    constructor
    · intro hstops
      cases hschema _ hstops.validateOutputSchema
    · rintro ⟨hwalked, hstops⟩
      cases hvalue _ (hwalked.validateStructuredOutput hfloats hstops)
  · rintro ⟨hschema, hvalue⟩
    constructor
    · intro e h
      exact (validateOutputSchema_error h).resolve_right fun hover => hschema hover.2
    · intro e h
      exact (validateStructuredOutput_error hfloats h).resolve_right fun hover =>
        hover.2.elim hschema hvalue

/-! ### A number without a float -/

/-- A host that reads the floats of small integers, and no patterns. -/
def Host.integral : Host :=
  let host : Host :=
    { floats := { Capsule.Host.sample.floats with
        ofInt := fun n =>
          if floatLimit ≤ |(n : ℚ)| then none else some (Capsule.intText n ++ lit ".0") }
      value := fun literal => (Capsule.intToken literal.dropLast.dropLast).getD 0
      isMultiple := fun _ _ => none
      compiles := fun _ => some false
      search := fun _ _ => false }
  { host with
    isMultiple := fun number multiple =>
      if quotientOverflows host number multiple then none
      else some ((host.exact.isMultiple number multiple).getD false) }

theorem integral_binary64 : Host.integral.Binary64 where
  ofInt n := by
    show (if floatLimit ≤ |(n : ℚ)| then none else some (Capsule.intText n ++ lit ".0")) = none ↔ _
    split_ifs with h
    · exact ⟨fun _ => h, fun _ => rfl⟩
    · exact ⟨fun hnone => absurd hnone (by simp), fun hle => absurd hle h⟩
  zero literal h := by
    have hsome : Host.integral.floats.ofInt 0 = some (lit "0.0") := by decide +kernel
    cases hsome.symm.trans h
    decide +kernel
  isMultiple number multiple _ := by
    show (if quotientOverflows Host.integral number multiple then none else some _) = none ↔ _
    split_ifs with h
    · exact ⟨fun _ => h, fun _ => rfl⟩
    · exact ⟨fun hnone => absurd hnone (by simp), fun hle => absurd hle h⟩

def multiplesOf (m : ℤ) : Dict :=
  recordOf (.obj [(lit "multipleOf", .int m), (lit "type", .str (lit "number"))])

theorem validation_total_iff_four :
    OnlyRaises Raised.IsValueError (validateOutputSchema Host.integral (multiplesOf 2)) ∧
      OnlyRaises Raised.IsValueError (validateStructuredOutput Host.integral
        (.obj [(lit "value", .int 4)]) (multiplesOf 2)) ↔
    ¬SchemaStops Host.integral maxOutputSchemaDepth true (.obj (multiplesOf 2)) 0 ∧
      ¬(Walked Host.integral (.obj [(lit "value", .int 4)]) (multiplesOf 2) ∧
        ValidationStops Host.integral maxOutputSchemaDepth (lit "output")
          (.obj [(lit "value", .int 4)]) (.obj (multiplesOf 2)) 0) :=
  validation_total_iff Host.integral integral_binary64 (.obj [(lit "value", .int 4)])
    (multiplesOf 2)

/-- A multiple that has no float stops the check of its schema. -/
theorem hugeMultiple_escapes : ¬∀ (host : Host), host.Binary64 → ∀ (value : Json) (schema : Dict),
    OnlyRaises Raised.IsValueError (validateOutputSchema host schema) ∧
      OnlyRaises Raised.IsValueError (validateStructuredOutput host value schema) := by
  intro h
  obtain ⟨hschema, -⟩ := h Host.integral integral_binary64 .null (multiplesOf (10 ^ 400))
  have hover : validateOutputSchema Host.integral (multiplesOf (10 ^ 400)) =
      .error .overflowError := by
    decide +kernel
  cases hschema _ hover

end CodexFlow.Schema
