import CodexFlow.Schema.Contract
import Mathlib

/-!
# Multiples of an integer

The test of `multipleOf` in exact arithmetic: the quotient is rounded and compared with itself, up to
a tolerance that grows with it.
-/

namespace CodexFlow.Schema

open Hook (PyStr Json Dict lit)
open Checked

/-! ### The test -/

/-- `round(q)`: a half is rounded to an even number. -/
def roundHalfEven (q : ℚ) : ℤ :=
  if q - ⌊q⌋ < 1 / 2 then ⌊q⌋
  else if 1 / 2 < q - ⌊q⌋ then ⌊q⌋ + 1
  else if ⌊q⌋ % 2 = 0 then ⌊q⌋
  else ⌊q⌋ + 1

def tolerance : ℚ := 1 / 10 ^ 12

/-- `math.isclose(a, b, rel_tol=1e-12, abs_tol=1e-12)` -/
def isClose (a b : ℚ) : Bool := |a - b| ≤ max (tolerance * max |a| |b|) tolerance

def Host.exact (host : Host) : Host :=
  { host with
    isMultiple := fun number multiple => do
      let n ← number? host number
      let m ← number? host multiple
      some (isClose (n / m) (roundHalfEven (n / m))) }

/-- A schema for numbers or integers that asks for a multiple, and for nothing else. -/
structure MultipleSchema (s : Dict) (m : ℤ) : Prop where
  type : s.get (lit "type") = .str (lit "integer") ∨ s.get (lit "type") = .str (lit "number")
  multiple : s.get (lit "multipleOf") = .int m
  free : ∀ key ∈ ["oneOf", "const", "enum", "minimum", "maximum", "exclusiveMinimum",
    "exclusiveMaximum"], s.get? (lit key) = none

/-- The node accepts the integer, at any place of a value. -/
def Accepts (host : Host) (s : Dict) (n : ℤ) : Prop :=
  ∀ depth path seen, validate host.exact (depth + 1) path (.int n) (.obj s) seen = .ok seen

/-- A multiple of `m` that is nearest to `n`. -/
def nearest (n m : ℤ) : ℤ := m * roundHalfEven (n / m)

/-- The distance from the nearest multiple is more than the tolerance. -/
def Far (n m : ℤ) : Prop := max (max |n| |nearest n m|) m < 10 ^ 12 * |n - nearest n m|

variable {host : Host} {s : Dict} {n m : ℤ}

/-! ### What a node does with an integer -/

theorem MultipleSchema.get_free (hs : MultipleSchema s m) {key : String}
    (hkey : key ∈ ["oneOf", "const", "enum", "minimum", "maximum", "exclusiveMinimum",
      "exclusiveMaximum"]) : s.get (lit key) = .null := by
  unfold Dict.get
  rw [hs.free key hkey]
  rfl

theorem checkNumber'_multiple (hs : MultipleSchema s m) (path : PyStr) :
    checkNumber' host.exact s path (.int n) n =
      ensure (isClose (n / m) (roundHalfEven (n / m)) = true)
        (.field path "violates multipleOf") := by
  have hnull : ∀ {key : String}, s.get (lit key) = .null → ∀ holds error,
      bounded host.exact s key holds error = .ok () := by
    intro key hget holds error
    unfold bounded
    rw [hget]
    rfl
  unfold checkNumber'
  rw [hnull (hs.get_free (by decide)), hnull (hs.get_free (by decide)),
    hnull (hs.get_free (by decide)), hnull (hs.get_free (by decide)), hs.multiple]
  rfl

/-- The first type of the node is the one that matches. -/
theorem valueParts_multiple (hs : MultipleSchema s m) (path : PyStr) (seen : ℕ) :
    valueParts host.exact s path (.int n) seen = (do
      checkNumber' host.exact s path (.int n) n
      pure (seen, [])) := by
  have hchoices : checkChoices host.exact s path (.int n) = .ok () := by
    unfold checkChoices
    rw [hs.free "const" (by decide), hs.free "enum" (by decide)]
    rfl
  have hparts : ∀ type, type = lit "integer" ∨ type = lit "number" →
      typedParts host.exact s path type (.int n) seen = (do
        checkNumber' host.exact s path (.int n) n
        pure (seen, [])) := by
    intro type htype
    show (do
      if type = lit "number" ∨ type = lit "integer" then
        checkNumber' host.exact s path (.int n) n
      pure (seen, [])) = _
    rw [if_pos htype.symm]
  have hmatch : ∀ type, type = lit "integer" ∨ type = lit "number" →
      (valueTypes s = [type]) → valueParts host.exact s path (.int n) seen = (do
        checkNumber' host.exact s path (.int n) n
        pure (seen, [])) := by
    intro type htype htypes
    have hfilter : (valueTypes s).filter (matchesType host.exact (.int n)) = [type] := by
      rw [htypes]
      rcases htype with rfl | rfl <;> rfl
    unfold valueParts
    rw [hfilter]
    show (do
      checkChoices host.exact s path (.int n)
      typedParts host.exact s path type (.int n) seen) = _
    rw [hchoices, ← hparts type htype]
    rfl
  rcases hs.type with htype | htype
  · refine hmatch _ (.inl rfl) ?_
    unfold valueTypes
    rw [htype]
  · refine hmatch _ (.inr rfl) ?_
    unfold valueTypes
    rw [htype]

theorem validate_multiple (hs : MultipleSchema s m) (depth : ℕ) (path : PyStr) (seen : ℕ) :
    validate host.exact (depth + 1) path (.int n) (.obj s) seen = .ok seen ↔
      isClose (n / m) (roundHalfEven (n / m)) = true := by
  rw [validate, hs.get_free (by decide)]
  simp only [valueParts_multiple hs, checkNumber'_multiple hs]
  cases hclose : isClose (n / m) (roundHalfEven (n / m)) with
  | true => exact ⟨fun _ => rfl, fun _ => rfl⟩
  | false =>
    constructor
    · intro h
      cases h
    · intro h
      cases h

theorem accepts_iff (hs : MultipleSchema s m) :
    Accepts host s n ↔ isClose (n / m) (roundHalfEven (n / m)) = true :=
  ⟨fun h => (validate_multiple hs 0 [] 0).1 (h 0 [] 0),
    fun h depth path seen => (validate_multiple hs depth path seen).2 h⟩

/-! ### The test in integers -/

theorem roundHalfEven_intCast (k : ℤ) : roundHalfEven k = k := by
  unfold roundHalfEven
  rw [Int.floor_intCast, sub_self, if_pos (by norm_num)]

theorem isClose_self (q : ℚ) : isClose q q = true := by
  refine decide_eq_true ?_
  rw [sub_self, abs_zero]
  exact le_max_of_le_right (by unfold tolerance; positivity)

theorem isClose_of_dvd (hm : 0 < m) (h : m ∣ n) :
    isClose (n / m) (roundHalfEven (n / m)) = true := by
  obtain ⟨k, rfl⟩ := h
  have hquotient : ((m * k : ℤ) : ℚ) / m = (k : ℤ) := by
    have hne : (m : ℚ) ≠ 0 := Int.cast_ne_zero.2 hm.ne'
    rw [Int.cast_mul]
    field_simp
  rw [hquotient, roundHalfEven_intCast]
  exact isClose_self k

/-- The test, multiplied by the multiple and the inverse of the tolerance. -/
theorem isClose_iff (hm : 0 < m) :
    isClose (n / m) (roundHalfEven (n / m)) = true ↔ ¬ Far n m := by
  have hm' : (0 : ℚ) < m := Int.cast_pos.2 hm
  have hscale : (0 : ℚ) < 10 ^ 12 * m := by positivity
  have hdistance : 10 ^ 12 * (m : ℚ) * |(n : ℚ) / m - (roundHalfEven (n / m) : ℤ)| =
      ((10 ^ 12 * |n - nearest n m| : ℤ) : ℚ) := by
    have hinside : (n : ℚ) - nearest n m = m * ((n : ℚ) / m - (roundHalfEven (n / m) : ℤ)) := by
      unfold nearest
      push_cast
      field_simp
    push_cast
    rw [hinside, abs_mul, abs_of_pos hm']
    ring
  have hbound : 10 ^ 12 * (m : ℚ) *
      max (tolerance * max |(n : ℚ) / m| |((roundHalfEven (n / m) : ℤ) : ℚ)|) tolerance =
        ((max (max |n| |nearest n m|) m : ℤ) : ℚ) := by
    have hfirst : (m : ℚ) * |(n : ℚ) / m| = |(n : ℚ)| := by
      rw [abs_div, abs_of_pos hm']
      field_simp
    have hsecond : (m : ℚ) * |((roundHalfEven (n / m) : ℤ) : ℚ)| = |(nearest n m : ℚ)| := by
      unfold nearest
      rw [Int.cast_mul, abs_mul, abs_of_pos hm']
    push_cast
    rw [mul_max_of_nonneg _ _ hscale.le, ← hfirst, ← hsecond, ← mul_max_of_nonneg _ _ hm'.le]
    unfold tolerance
    congr 1 <;> ring
  unfold isClose Far
  rw [decide_eq_true_iff, ← mul_le_mul_iff_right₀ hscale, hdistance, hbound, Int.cast_le, not_lt]

/-! ### The schema -/

/-- The schema accepts exactly the multiples of `m` where it does at all what it says: the integer
is a multiple, or it is far from all of them. -/
theorem multiples_exact_iff (host : Host) (s : Dict) (n m : ℤ) (hm : 0 < m)
    (hs : MultipleSchema s m) : (Accepts host s n ↔ m ∣ n) ↔ m ∣ n ∨ Far n m := by
  rw [accepts_iff hs]
  by_cases hdvd : m ∣ n
  · exact ⟨fun _ => .inl hdvd, fun _ => ⟨fun _ => hdvd, fun _ => isClose_of_dvd hm hdvd⟩⟩
  · rw [isClose_iff hm]
    constructor
    · exact fun h => .inr (not_not.1 fun hnear => hdvd (h.1 hnear))
    · rintro (h | hfar)
      · exact absurd h hdvd
      · exact ⟨fun hnear => absurd hfar hnear, fun h => absurd h hdvd⟩

def evenSchema : Dict := [(lit "multipleOf", .int 2), (lit "type", .str (lit "integer"))]

theorem evenSchema_multiple : MultipleSchema evenSchema 2 := ⟨.inl (by decide), by decide, by decide⟩

theorem evenSchema_five : (Accepts Host.sample evenSchema 5 ↔ 2 ∣ (5 : ℤ)) ↔
    2 ∣ (5 : ℤ) ∨ Far 5 2 :=
  multiples_exact_iff Host.sample evenSchema 5 2 (by decide) evenSchema_multiple

/-- An odd integer that is accepted as even: it is one of two billions. -/
theorem evenSchema_accepts_odd : ¬∀ (host : Host) (s : Dict) (n m : ℤ), 0 < m →
    MultipleSchema s m → (Accepts host s n ↔ m ∣ n) := by
  intro h
  have hexact := h Host.sample evenSchema 2000000000001 2 (by decide) evenSchema_multiple
  have hclose : Accepts Host.sample evenSchema 2000000000001 :=
    (accepts_iff evenSchema_multiple).2 (by decide +kernel)
  exact absurd (hexact.1 hclose) (by decide)

end CodexFlow.Schema
