import CodexFlow.Capsule.TextSize
import CodexFlow.Git.Paths
import CodexFlow.Lib.Words

/-!
# Redaction

`redact_conversation_text` and `redact_diagnostic_text`: the four patterns of secrets, one after the
other. A redacted text is redacted to itself; a text that is cut to its limit is, unless the cut ends in
what looks like a key.
-/

namespace CodexFlow.Redaction

open Hook (CodePoint PyStr lit codePoint isSurrogate)
open Capsule (byteLength)
open Git (nul)
open Replacing

/-! ### Characters -/

/-- The Unicode tables of the regular expressions: what `\s` takes, and the letters and digits that
`\w` takes. -/
structure Tables where
  isSpace : CodePoint → Bool
  isAlnum : CodePoint → Bool
  space_ascii : ∀ c, c.val < 0x80 →
    isSpace c = (9 ≤ c.val && c.val ≤ 13 || 28 ≤ c.val && c.val ≤ 32)
  alnum_ascii : ∀ c, c.val < 0x80 → isAlnum c = (48 ≤ c.val && c.val ≤ 57 ||
    65 ≤ c.val && c.val ≤ 90 || 97 ≤ c.val && c.val ≤ 122)
  space_letter : ∀ c, c.val ∈ [0x130, 0x131, 0x17F, 0x212A] → isSpace c = false

/-- A letter of a pattern under `(?i)`. -/
def letter (l : Char) (c : CodePoint) : Bool :=
  c.val = l.toNat || c.val + 32 = l.toNat || l = 'i' && (c.val = 0x130 || c.val = 0x131) ||
    l = 's' && c.val = 0x17F || l = 'k' && c.val = 0x212A

/-- `[A-Za-z0-9]` -/
def isAsciiAlnum (c : CodePoint) : Bool :=
  48 ≤ c.val && c.val ≤ 57 || 65 ≤ c.val && c.val ≤ 90 || 97 ≤ c.val && c.val ≤ 122

/-- `[A-Za-z0-9._~+/=-]` under `(?i)` -/
def isBearerChar (c : CodePoint) : Bool :=
  isAsciiAlnum c || c.val ∈ [0x130, 0x131, 0x17F, 0x212A] || c ∈ lit "._~+/=-"

/-- `[A-Za-z0-9_-]` -/
def isKeyChar (c : CodePoint) : Bool := isAsciiAlnum c || c ∈ lit "_-"

variable (t : Tables)

/-- `[\s,;]` -/
def isHard (c : CodePoint) : Bool := t.isSpace c || c ∈ lit ",;"

/-! ### Patterns -/

def word (w : String) : List (Item CodePoint) := w.toList.map fun l => .one (letter l)

/-- `(?i)(bearer\s+)[A-Za-z0-9._~+/=-]+` -/
def bearer : Pattern CodePoint where
  first := letter 'b'
  middle := word "earer"
  last := t.isSpace
  pad := t.isSpace
  tail := isBearerChar

/-- `(?i)(api[_ -]?key\s*[:=]\s*)[^\s,;]+` -/
def apiKey : Pattern CodePoint where
  first := letter 'a'
  middle := word "pi" ++ [.opt fun c => c ∈ lit "_ -"] ++ word "key" ++ [.many t.isSpace]
  last c := c ∈ lit ":="
  pad := t.isSpace
  tail c := !isHard t c

/-- `(?i)(token\s*[:=]\s*)[^\s,;]+` -/
def token : Pattern CodePoint where
  first := letter 't'
  middle := word "oken" ++ [.many t.isSpace]
  last c := c ∈ lit ":="
  pad := t.isSpace
  tail c := !isHard t c

/-- `\bsk-[A-Za-z0-9_-]{8,}\b` -/
def secretKey : WordRun CodePoint where
  isWord c := t.isAlnum c || c = codePoint '_'
  start := "sk-".toList.map fun l c => c = codePoint l
  run := isKeyChar
  least := 8

def redacted : PyStr := lit "[REDACTED]"

/-- `pattern.sub` of the four `_SECRET_PATTERNS`. -/
def redact (s : PyStr) : PyStr :=
  let s := replace (bearer t).finder redacted s
  let s := replace (apiKey t).finder redacted s
  let s := replace (token t).finder redacted s
  replace (secretKey t).finder redacted s

/-- `redact_conversation_text`, with whether the text was changed. -/
def redactConversationText (s : PyStr) : Except String (PyStr × Bool) :=
  if nul ∈ s then .error "conversation text must be a string without NUL"
  else .ok (redact t s, redact t s ≠ s)

/-- The characters whose bytes are all among the first ones:
`encoded[:limit].decode("utf-8", errors="ignore")`. -/
def fit : ℕ → PyStr → PyStr
  | _, [] => []
  | limit, c :: s =>
    if byteLength [c] ≤ limit then c :: fit (limit - byteLength [c]) s else []

/-- `redact_diagnostic_text` -/
def redactDiagnosticText (limit : ℕ) (s : PyStr) : Except String PyStr :=
  if nul ∈ s then .error "diagnostic text must be a string without NUL"
  else if (redact t s).any isSurrogate then .error "surrogates not allowed"
  else if limit < byteLength (redact t s) then .ok (fit limit (redact t s))
  else .ok (redact t s)

/-- What `_validate_diagnostic_ring_in_transaction` asks of a stored text. -/
def checkRingText (limit : ℕ) (text : PyStr) : Except String Unit := do
  if text.any isSurrogate then .error "surrogates not allowed"
  else if limit < byteLength text then
    .error "diagnostic text is unredacted or oversized"
  else do
    let again ← redactDiagnosticText t limit text
    if again = text then .ok () else .error "diagnostic text is unredacted or oversized"

/-- What `LiveTurnProjection` asks of its assistant text. -/
def checkLiveText (limit : ℕ) (text : PyStr) : Except String Unit := do
  if nul ∈ text then .error "live assistant text is invalid"
  else if text.any isSurrogate then .error "surrogates not allowed"
  else if limit < byteLength text then .error "live assistant text exceeds its byte limit"
  else do
    let (again, _) ← redactConversationText t text
    if again = text then .ok () else .error "live assistant text is not redacted"

variable {t}

/-! ### Characters of the patterns -/

theorem val_of_mem_lit {w : String} {c : CodePoint} (h : c ∈ lit w) :
    c.val ∈ w.toList.map Char.toNat := by
  obtain ⟨l, hl, rfl⟩ := List.mem_map.1 h
  exact List.mem_map_of_mem hl

def IsSmall (l : Char) : Prop := 97 ≤ l.toNat ∧ l.toNat ≤ 122

instance (l : Char) : Decidable (IsSmall l) := inferInstanceAs (Decidable (_ ∧ _))

theorem letter_val {l : Char} {c : CodePoint} (h : letter l c = true) :
    c.val = l.toNat ∨ c.val + 32 = l.toNat ∨ l = 'i' ∧ (c.val = 0x130 ∨ c.val = 0x131) ∨
      l = 's' ∧ c.val = 0x17F ∨ l = 'k' ∧ c.val = 0x212A := by
  simpa [letter, or_assoc] using h

theorem letter_apart {l l' : Char} {c : CodePoint} (hl : IsSmall l) (hl' : IsSmall l')
    (hne : l ≠ l') (h : letter l c = true) : letter l' c = false := by
  obtain ⟨hl, hl₂⟩ := hl
  obtain ⟨hl', hl'₂⟩ := hl'
  have hval : l.toNat ≠ l'.toNat := fun heq => hne (Char.toNat_inj.1 heq)
  by_contra hboth
  have h' := letter_val (Bool.of_not_eq_false hboth)
  rcases letter_val h with h | h | ⟨rfl, h⟩ | ⟨rfl, h⟩ | ⟨rfl, h⟩ <;>
    rcases h' with h' | h' | ⟨rfl, h'⟩ | ⟨rfl, h'⟩ | ⟨rfl, h'⟩ <;>
    first
    | exact hne rfl
    | omega

theorem isHard_iff {c : CodePoint} :
    isHard t c = true ↔ t.isSpace c = true ∨ c.val = 44 ∨ c.val = 59 := by
  have hlit : c ∈ lit ",;" ↔ c.val = 44 ∨ c.val = 59 := by
    constructor
    · intro h
      simpa using val_of_mem_lit h
    · rintro (h | h)
      · exact List.mem_cons.2 (.inl (Fin.ext h))
      · exact List.mem_cons_of_mem _ (List.mem_cons.2 (.inl (Fin.ext h)))
  simp [isHard, hlit]

theorem isSpace_small {c : CodePoint} (h : c.val < 0x80) :
    t.isSpace c = true ↔ 9 ≤ c.val ∧ c.val ≤ 13 ∨ 28 ≤ c.val ∧ c.val ≤ 32 := by
  rw [t.space_ascii c h]
  simp

theorem isHard_of_isSpace {c : CodePoint} (h : t.isSpace c = true) : isHard t c = true :=
  isHard_iff.2 (.inl h)

theorem soft_of_val {c : CodePoint}
    (h : 33 ≤ c.val ∧ c.val < 0x80 ∨ c.val ∈ [0x130, 0x131, 0x17F, 0x212A]) (hcomma : c.val ≠ 44)
    (hsemicolon : c.val ≠ 59) : isHard t c = false := by
  by_contra hhard
  rcases isHard_iff.1 (Bool.of_not_eq_false hhard) with hspace | hval | hval
  · rcases h with h | h
    · have hcases := (isSpace_small h.2).1 hspace
      omega
    · rw [t.space_letter c h] at hspace
      cases hspace
  · exact hcomma hval
  · exact hsemicolon hval

theorem letter_soft {l : Char} {c : CodePoint} (hl : IsSmall l) (h : letter l c = true) :
    isHard t c = false := by
  obtain ⟨hl, hl₂⟩ := hl
  have hvals := letter_val h
  apply soft_of_val
  · simp only [List.mem_cons, List.not_mem_nil, or_false]
    omega
  · omega
  · omega

theorem isBearerChar_soft {c : CodePoint} (h : isBearerChar c = true) : isHard t c = false := by
  have hvals : (48 ≤ c.val ∧ c.val ≤ 57 ∨ 65 ≤ c.val ∧ c.val ≤ 90 ∨ 97 ≤ c.val ∧ c.val ≤ 122) ∨
      c.val ∈ [0x130, 0x131, 0x17F, 0x212A] ∨ c.val ∈ [46, 95, 126, 43, 47, 61, 45] := by
    simp only [isBearerChar, isAsciiAlnum, Bool.or_eq_true, Bool.and_eq_true,
      decide_eq_true_eq] at h
    rcases h with (h | h) | h
    · left
      omega
    · exact .inr (.inl h)
    · exact .inr (.inr (val_of_mem_lit h))
  simp only [List.mem_cons, List.not_mem_nil, or_false] at hvals
  apply soft_of_val
  · simp only [List.mem_cons, List.not_mem_nil, or_false]
    omega
  · omega
  · omega

/-! ### Patterns against each other and the mark -/

theorem accepts_word {w : String} {item : Item CodePoint} (h : item ∈ word w) :
    ∃ l ∈ w.toList, ∀ c, item.accepts c = letter l c := by
  obtain ⟨l, hl, rfl⟩ := List.mem_map.1 h
  exact ⟨l, hl, fun c => rfl⟩

/-- A letter is refused where another one is read. -/
theorem first_of_word {w : String} {first : Char} {item : Item CodePoint} (h : item ∈ word w)
    (hfirst : IsSmall first) (hw : w.toList.all (fun l => IsSmall l && l != first) = true)
    {c : CodePoint} (haccepts : item.accepts c = true) : letter first c = false := by
  obtain ⟨l, hl, heq⟩ := accepts_word h
  rw [heq] at haccepts
  have hother := List.all_eq_true.1 hw l hl
  rw [Bool.and_eq_true, decide_eq_true_iff, bne_iff_ne] at hother
  exact letter_apart hother.1 hfirst hother.2 haccepts

theorem first_of_space {first : Char} (hfirst : IsSmall first) {c : CodePoint}
    (h : t.isSpace c = true) : letter first c = false := by
  by_contra hletter
  have hsoft := letter_soft (t := t) hfirst (Bool.of_not_eq_false hletter)
  rw [isHard_of_isSpace h] at hsoft
  cases hsoft

theorem first_of_val {first : Char} (hfirst : IsSmall first) {c : CodePoint}
    (h : c.val < 65 ∨ 90 < c.val ∧ c.val < 97) : letter first c = false := by
  obtain ⟨hl, hl₂⟩ := hfirst
  by_contra hletter
  have hvals := letter_val (Bool.of_not_eq_false hletter)
  omega

theorem clear_bearer : (bearer t).Clear (isHard t) false where
  others_first item hitem c haccepts := by
    have hb : IsSmall 'b' := by decide
    rcases List.mem_append.1 hitem with hword | hend
    · exact first_of_word hword hb (by decide) haccepts
    · rcases List.mem_pair.1 hend with rfl | rfl <;> exact first_of_space hb haccepts
  first_soft c h := letter_soft (by decide) h
  pad_hard c h := isHard_of_isSpace h
  tail_soft c h := isBearerChar_soft h
  wide h := by cases h

theorem clear_token : (token t).Clear (isHard t) true where
  others_first item hitem c haccepts := by
    have ht : IsSmall 't' := by decide
    rcases List.mem_append.1 hitem with hmiddle | hend
    · rcases List.mem_append.1 hmiddle with hword | hspace
      · exact first_of_word hword ht (by decide) haccepts
      · obtain rfl := List.mem_singleton.1 hspace
        exact first_of_space ht haccepts
    · rcases List.mem_pair.1 hend with rfl | rfl
      · have hval := val_of_mem_lit (of_decide_eq_true haccepts)
        exact first_of_val ht (by simp at hval; omega)
      · exact first_of_space ht haccepts
  first_soft c h := letter_soft (by decide) h
  pad_hard c h := isHard_of_isSpace h
  tail_soft c h := by simpa [token] using h
  wide _ c h := by simp [token, h]

theorem clear_apiKey : (apiKey t).Clear (isHard t) true where
  others_first item hitem c haccepts := by
    have ha : IsSmall 'a' := by decide
    rcases List.mem_append.1 hitem with hmiddle | hend
    · rcases List.mem_append.1 hmiddle with hmiddle | hspace
      · rcases List.mem_append.1 hmiddle with hmiddle | hword
        · rcases List.mem_append.1 hmiddle with hword | hopt
          · exact first_of_word hword ha (by decide) haccepts
          · obtain rfl := List.mem_singleton.1 hopt
            have hval := val_of_mem_lit (of_decide_eq_true haccepts)
            exact first_of_val ha (by simp at hval; omega)
        · exact first_of_word hword ha (by decide) haccepts
      · obtain rfl := List.mem_singleton.1 hspace
        exact first_of_space ha haccepts
    · rcases List.mem_pair.1 hend with rfl | rfl
      · have hval := val_of_mem_lit (of_decide_eq_true haccepts)
        exact first_of_val ha (by simp at hval; omega)
      · exact first_of_space ha haccepts
  first_soft c h := letter_soft (by decide) h
  pad_hard c h := isHard_of_isSpace h
  tail_soft c h := by simpa [apiKey] using h
  wide _ c h := by simp [apiKey, h]

/-! ### The mark -/

theorem redacted_vals : ∀ c ∈ redacted, 33 ≤ c.val ∧ c.val ≤ 93 ∧ c.val ≠ 44 ∧ c.val ≠ 59 := by
  intro c hc
  have hval := val_of_mem_lit hc
  simp at hval
  omega

theorem isHard_redacted {c : CodePoint} (h : c ∈ redacted) : isHard t c = false := by
  obtain ⟨hlow, hhigh, hcomma, hsemicolon⟩ := redacted_vals c h
  exact soft_of_val (.inl ⟨hlow, by omega⟩) hcomma hsemicolon

/-- Two letters are next to each other at the front, or the first of them ends the text. -/
def beginsWith (first second : Char) : PyStr → Bool
  | [] => false
  | [c] => letter first c
  | c :: d :: _ => letter first c && letter second d

/-- No pattern begins in a text without its first two letters. -/
theorem group_inside {p : Pattern CodePoint} {first second : Char} {rest : List (Item CodePoint)}
    {text : PyStr} (hfirst : p.first = letter first) (hp : p.middle = .one (letter second) :: rest)
    (hnone : ∀ v ∈ text.tails, beginsWith first second v = false) {a v : PyStr} (s : PyStr)
    (h : text = a ++ v) (hne : v ≠ []) : p.group (v ++ s) = none := by
  have hv := hnone v ((List.mem_tails _ _).2 ⟨a, h.symm⟩)
  cases v with
  | nil => exact absurd rfl hne
  | cons c v =>
    by_cases hc : letter first c = true
    · cases v with
      | nil =>
        rw [beginsWith, hc] at hv
        cases hv
      | cons d v =>
        rw [beginsWith, hc, Bool.true_and] at hv
        simp [Pattern.group, Pattern.others, hfirst, hp, readAll, Item.read, hc, hv]
    · refine Pattern.group_cons_of_not ?_
      rw [hfirst]
      exact Bool.of_not_eq_true hc

def openBracket : CodePoint := codePoint '['

theorem openBracket_val : openBracket.val = 91 := rfl

theorem isSpace_openBracket : t.isSpace openBracket = false := by
  by_contra hspace
  have hcases := (isSpace_small (by decide)).1 (Bool.of_not_eq_false hspace)
  rw [openBracket_val] at hcases
  omega

theorem letter_openBracket {l : Char} (hl : IsSmall l) : letter l openBracket = false :=
  first_of_val hl (by decide)

theorem word_openBracket {w : String} (hw : w.toList.all (fun l => IsSmall l) = true) :
    ∀ item ∈ word w, item.accepts openBracket = false := by
  intro item hitem
  obtain ⟨l, hl, heq⟩ := accepts_word hitem
  rw [heq]
  exact letter_openBracket (of_decide_eq_true (List.all_eq_true.1 hw l hl))

theorem lit_openBracket {w : String} (h : 91 ∉ w.toList.map Char.toNat) :
    openBracket ∉ lit w := fun hmem => h (val_of_mem_lit hmem)

theorem apart_bearer : (bearer t).Apart redacted false where
  opener := by
    refine ⟨openBracket, lit "REDACTED]", rfl, letter_openBracket (l := 'b') (by decide), ?_, rfl⟩
    intro item hitem
    rcases List.mem_append.1 hitem with hword | hend
    · exact word_openBracket (by decide) item hword
    · rcases List.mem_pair.1 hend with rfl | rfl <;> exact isSpace_openBracket
  tail h := by cases h
  inside s h hne := group_inside rfl rfl (by decide) s h hne

theorem apart_token : (token t).Apart redacted true where
  opener := by
    refine ⟨openBracket, lit "REDACTED]", rfl, letter_openBracket (l := 't') (by decide), ?_, ?_⟩
    · intro item hitem
      rcases List.mem_append.1 hitem with hmiddle | hend
      · rcases List.mem_append.1 hmiddle with hword | hspace
        · exact word_openBracket (by decide) item hword
        · obtain rfl := List.mem_singleton.1 hspace
          exact isSpace_openBracket
      · rcases List.mem_pair.1 hend with rfl | rfl
        · exact decide_eq_false (lit_openBracket (w := ":=") (by decide))
        · exact isSpace_openBracket
    · exact congrArg not (isHard_redacted (t := t) (List.mem_cons_self))
  tail _ c hc := congrArg not (isHard_redacted hc)
  inside s h hne := group_inside rfl rfl (by decide) s h hne

theorem apart_apiKey : (apiKey t).Apart redacted true where
  opener := by
    refine ⟨openBracket, lit "REDACTED]", rfl, letter_openBracket (l := 'a') (by decide), ?_, ?_⟩
    · intro item hitem
      rcases List.mem_append.1 hitem with hmiddle | hend
      · rcases List.mem_append.1 hmiddle with hmiddle | hspace
        · rcases List.mem_append.1 hmiddle with hmiddle | hword
          · rcases List.mem_append.1 hmiddle with hword | hopt
            · exact word_openBracket (by decide) item hword
            · obtain rfl := List.mem_singleton.1 hopt
              exact decide_eq_false (lit_openBracket (w := "_ -") (by decide))
          · exact word_openBracket (by decide) item hword
        · obtain rfl := List.mem_singleton.1 hspace
          exact isSpace_openBracket
      · rcases List.mem_pair.1 hend with rfl | rfl
        · exact decide_eq_false (lit_openBracket (w := ":=") (by decide))
        · exact isSpace_openBracket
    · exact congrArg not (isHard_redacted (t := t) (List.mem_cons_self))
  tail _ c hc := congrArg not (isHard_redacted hc)
  inside s h hne := group_inside rfl rfl (by decide) s h hne

theorem isWord_iff {c : CodePoint} (h : c.val < 0x80) : (secretKey t).isWord c = true ↔
    48 ≤ c.val ∧ c.val ≤ 57 ∨ 65 ≤ c.val ∧ c.val ≤ 90 ∨ 97 ≤ c.val ∧ c.val ≤ 122 ∨ c.val = 95 := by
  have hline : c = codePoint '_' ↔ c.val = 95 := Fin.ext_iff
  simp only [secretKey, t.alnum_ascii c h, hline, Bool.or_eq_true, Bool.and_eq_true,
    decide_eq_true_eq]
  omega

theorem isWord_eq_false {c : CodePoint} (h : c.val = 91 ∨ c.val = 93) :
    (secretKey t).isWord c = false := by
  by_contra hword
  have hcases := (isWord_iff (by omega)).1 (Bool.of_not_eq_false hword)
  omega

theorem proper_secretKey : (secretKey t).Proper where
  first := by
    refine ⟨_, _, rfl, fun c hc => ?_⟩
    obtain rfl := of_decide_eq_true hc
    exact (isWord_iff (by decide)).2 (by decide)
  least_pos := Nat.succ_pos 7

theorem lawful_secretKey : (secretKey t).Lawful openBracket where
  first := proper_secretKey.first
  start_mark q hq := by
    obtain ⟨l, hl, rfl⟩ := List.mem_map.1 hq
    have hval : l.toNat ∈ "sk-".toList.map Char.toNat := List.mem_map_of_mem hl
    refine decide_eq_false fun heq => ?_
    have hsame : 91 = l.toNat := congrArg Fin.val heq
    simp at hval
    omega
  run_mark := rfl
  word_mark := isWord_eq_false (by decide)
  least_pos := Nat.succ_pos 7

theorem apart_secretKey : (secretKey t).Apart redacted (codePoint ']') where
  word := rfl
  closer := isWord_eq_false (by decide)
  opener := ⟨openBracket, lit "REDACTED]", rfl, isWord_eq_false (by decide), rfl,
    lawful_secretKey.start_mark⟩
  inside {a v} s h hne := by
    cases v with
    | nil => exact absurd rfl hne
    | cons c v =>
      have hc : c ∈ redacted := by
        rw [h]
        simp
      have hnot : c ≠ codePoint 's' := by
        rintro rfl
        obtain ⟨-, hhigh, -⟩ := redacted_vals _ hc
        exact absurd hhigh (by decide)
      simp [WordRun.reads, secretKey, readAll, Item.read, hnot]

theorem finds_secretKey : Finds (secretKey t).finder := WordRun.finds lawful_secretKey

/-! ### Redacting marked texts -/

/-- `redact`, with a mark for each match. -/
def redactMarked (t : Tables) (s : List (Option CodePoint)) : List (Option CodePoint) :=
  let s := replace ((bearer t).lift false).finder [none] s
  let s := replace ((apiKey t).lift true).finder [none] s
  let s := replace ((token t).lift true).finder [none] s
  replace (secretKey t).lift.finder [none] s

theorem redact_unmark (s : List (Option CodePoint)) :
    redact t (unmark redacted s) = unmark redacted (redactMarked t s) := by
  have hclose : redacted.getLast? = some (codePoint ']') := rfl
  unfold redact redactMarked
  simp only
  rw [(apart_bearer.mirrors hclose).replace Pattern.finds Pattern.finds,
    (apart_apiKey.mirrors hclose).replace Pattern.finds Pattern.finds,
    (apart_token.mirrors hclose).replace Pattern.finds Pattern.finds,
    apart_secretKey.mirrors.replace (WordRun.finds proper_secretKey.lawful) finds_secretKey]

/-- A marked text in which nothing is left to redact. -/
structure Settled (t : Tables) (s : List (Option CodePoint)) : Prop where
  bearer : ((bearer t).lift false).Closed none (hardToken (isHard t)) s
  apiKey : ((apiKey t).lift true).Closed none (hardToken (isHard t)) s
  token : ((token t).lift true).Closed none (hardToken (isHard t)) s
  secretKey : (secretKey t).lift.NoWord s

theorem finds_liftedKey : Finds (secretKey t).lift.finder :=
  WordRun.finds proper_secretKey.lawful

theorem Settled.redactMarked {s : List (Option CodePoint)} (h : Settled t s) :
    redactMarked t s = s := by
  unfold Redaction.redactMarked
  simp only
  rw [clear_bearer.lawful.replace_closed h.bearer, clear_apiKey.lawful.replace_closed h.apiKey,
    clear_token.lawful.replace_closed h.token, h.secretKey.replace finds_liftedKey]

theorem isKeyChar_soft {c : CodePoint} (h : isKeyChar c = true) : isHard t c = false := by
  have hvals : (48 ≤ c.val ∧ c.val ≤ 57 ∨ 65 ≤ c.val ∧ c.val ≤ 90 ∨ 97 ≤ c.val ∧ c.val ≤ 122) ∨
      c.val ∈ [95, 45] := by
    simp only [isKeyChar, isAsciiAlnum, Bool.or_eq_true, Bool.and_eq_true, decide_eq_true_eq] at h
    rcases h with h | h
    · left
      omega
    · exact .inr (val_of_mem_lit h)
  simp only [List.mem_cons, List.not_mem_nil, or_false] at hvals
  exact soft_of_val (by omega) (by omega) (by omega)

theorem start_soft {c : CodePoint} {q : CodePoint → Bool} (hq : q ∈ (secretKey t).start)
    (h : q c = true) : isHard t c = false := by
  obtain ⟨l, hl, rfl⟩ := List.mem_map.1 hq
  obtain rfl := of_decide_eq_true h
  have hval : (codePoint l).val ∈ "sk-".toList.map Char.toNat := List.mem_map_of_mem hl
  simp at hval
  exact soft_of_val (by omega) (by omega) (by omega)

theorem secretKey_soft {prev : Option (Option CodePoint)} {s : List (Option CodePoint)}
    {f : Found (Option CodePoint)} (h : (secretKey t).lift.finder prev s = some f) :
    ∀ c ∈ f.secret, hardToken (isHard t) c = false := by
  obtain ⟨k, w, -, hsecret, hword⟩ := WordRun.finder_eq_some h
  obtain ⟨-, hstart, -⟩ := WordRun.reads_spec hword.start
  intro c hc
  cases c with
  | none => rfl
  | some c =>
    rw [hsecret, List.mem_append] at hc
    rcases hc with hc | hc
    · obtain ⟨q, hq, haccepts⟩ := WordRun.accepted_of_forall₂ hstart _ hc
      obtain ⟨q', hq', rfl⟩ := List.mem_map.1 hq
      exact start_soft hq' haccepts
    · exact isKeyChar_soft (hword.run _ hc)

theorem settled_redactMarked (s : List (Option CodePoint)) : Settled t (redactMarked t s) := by
  have hlaw := proper_secretKey (t := t).lawful
  set s₁ := replace ((bearer t).lift false).finder [none] s with hs₁
  set s₂ := replace ((apiKey t).lift true).finder [none] s₁ with hs₂
  set s₃ := replace ((token t).lift true).finder [none] s₂ with hs₃
  have h₁ : Replaces _ [none] none s s₁ := replaces_replace Pattern.finds s
  have h₂ : Replaces _ [none] none s₁ s₂ := replaces_replace Pattern.finds s₁
  have h₃ : Replaces _ [none] none s₂ s₃ := replaces_replace Pattern.finds s₂
  have h₄ : Replaces _ [none] none s₃ (redactMarked t s) :=
    replaces_replace (WordRun.finds hlaw) s₃
  have hcuts₂ := h₂.cuts Pattern.finds clear_apiKey.lawful.soft
  have hcuts₃ := h₃.cuts Pattern.finds clear_token.lawful.soft
  have hcuts₄ := h₄.cuts (WordRun.finds hlaw) secretKey_soft
  have hbearer := clear_bearer.lawful.closed_of_replaces h₁
  have hapiKey := clear_apiKey.lawful.closed_of_replaces h₂
  have htoken := clear_token.lawful.closed_of_replaces h₃
  refine ⟨?_, ?_, ?_, ?_⟩
  · have hbearer₂ := clear_bearer.lawful.closed_of_cuts hcuts₂ hbearer
    have hbearer₃ := clear_bearer.lawful.closed_of_cuts hcuts₃ hbearer₂
    exact clear_bearer.lawful.closed_of_cuts hcuts₄ hbearer₃
  · have hapiKey₃ := clear_apiKey.lawful.closed_of_cuts hcuts₃ hapiKey
    exact clear_apiKey.lawful.closed_of_cuts hcuts₄ hapiKey₃
  · exact clear_token.lawful.closed_of_cuts hcuts₄ htoken
  · exact hlaw.noWord h₄

theorem redact_redact (s : PyStr) : redact t (redact t s) = redact t s := by
  have hsettled := settled_redactMarked (t := t) (s.map some)
  have hmarked := redact_unmark (t := t) (s.map some)
  rw [unmark_map] at hmarked
  rw [hmarked, redact_unmark, hsettled.redactMarked]

/-! ### What is left -/

/-- No bearer and no key is left in a text, and behind the name of an API key or of a token there is
only the mark. -/
structure NothingLeft (t : Tables) (s : PyStr) : Prop where
  bearer : ∀ a u, s = a ++ u → (bearer t).finder a.getLast? u = none
  apiKey : ∀ a u f, s = a ++ u → (apiKey t).finder a.getLast? u = some f → f.secret = redacted
  token : ∀ a u f, s = a ++ u → (token t).finder a.getLast? u = some f → f.secret = redacted
  secretKey : ∀ a u, s = a ++ u → (secretKey t).finder a.getLast? u = none

theorem Settled.nothingLeft {s : List (Option CodePoint)} (h : Settled t s) :
    NothingLeft t (unmark redacted s) where
  bearer a u hsplit := by
    cases hfound : (Redaction.bearer t).finder a.getLast? u with
    | none => rfl
    | some f =>
      obtain ⟨htail, -⟩ := clear_bearer.found_word apart_bearer rfl h.bearer hsplit hfound
      cases htail
  apiKey a u f hsplit hfound := (clear_apiKey.found_word apart_apiKey rfl h.apiKey hsplit hfound).2
  token a u f hsplit hfound := (clear_token.found_word apart_token rfl h.token hsplit hfound).2
  secretKey a u hsplit := by
    cases hfound : (Redaction.secretKey t).finder a.getLast? u with
    | none => rfl
    | some f =>
      obtain ⟨K, L, r, rfl, hF, -⟩ :=
        apart_secretKey.mirrors.found_at finds_secretKey hsplit hfound
      obtain ⟨k, w, -, -, hword⟩ := WordRun.finder_eq_some hF
      exact absurd hword (h.secretKey K L rfl k w r.rest)

/-- Wherever a pattern of secrets matches a redacted text, it matches the mark. -/
theorem redact_nothingLeft (t : Tables) (s : PyStr) : NothingLeft t (redact t s) := by
  have hmarked := redact_unmark (t := t) (s.map some)
  rw [unmark_map] at hmarked
  rw [hmarked]
  exact (settled_redactMarked (s.map some)).nothingLeft

/-! ### Cutting to a limit -/

theorem fit_unique {limit : ℕ} {x b : PyStr} (hx : byteLength x ≤ limit)
    (hb : ∀ c ∈ b.head?, limit < byteLength (x ++ [c])) : fit limit (x ++ b) = x := by
  induction x generalizing limit with
  | nil =>
    cases b with
    | nil => rfl
    | cons c b =>
      have hlt := hb c rfl
      rw [List.nil_append] at hlt
      rw [List.nil_append, fit, if_neg (by omega)]
  | cons d x ih =>
    rw [Capsule.byteLength_cons] at hx
    rw [List.cons_append, fit, if_pos (by omega), ih (by omega)]
    intro c hc
    have hlt := hb c hc
    rw [List.cons_append, Capsule.byteLength_cons] at hlt
    omega

theorem fit_spec (limit : ℕ) (s : PyStr) : ∃ b, s = fit limit s ++ b ∧
    byteLength (fit limit s) ≤ limit ∧
      ∀ c ∈ b.head?, limit < byteLength (fit limit s ++ [c]) := by
  induction s generalizing limit with
  | nil => exact ⟨[], rfl, Nat.zero_le _, nofun⟩
  | cons d s ih =>
    rw [fit]
    split_ifs with hd
    · obtain ⟨b, hs, hle, hb⟩ := ih (limit - byteLength [d])
      refine ⟨b, congrArg (d :: ·) hs, ?_, fun c hc => ?_⟩
      · rw [Capsule.byteLength_cons]
        omega
      · have hlt := hb c hc
        rw [List.cons_append, Capsule.byteLength_cons]
        omega
    · refine ⟨d :: s, rfl, Nat.zero_le _, fun c hc => ?_⟩
      cases hc
      rw [List.nil_append]
      omega

theorem fit_self {limit : ℕ} {s : PyStr} (h : byteLength s ≤ limit) : fit limit s = s := by
  have hfit := fit_unique (b := []) h nofun
  rwa [List.append_nil] at hfit

/-! ### Keys at the end -/

/-- The text ends in what looks like a key. -/
def EndsInKey (t : Tables) (s : PyStr) : Prop :=
  ∃ a w, s = a ++ (lit "sk-" ++ w) ∧ (∀ c ∈ a.getLast?, (secretKey t).isWord c = false) ∧
    (∀ c ∈ w, isKeyChar c = true) ∧ 8 ≤ w.length ∧ ∃ c ∈ w.getLast?, (secretKey t).isWord c = true

/-- The limit falls right behind what looks like a key. -/
def CutsKey (t : Tables) (limit : ℕ) (s : PyStr) : Prop :=
  ∃ x c b, s = x ++ c :: b ∧ byteLength x ≤ limit ∧ limit < byteLength (x ++ [c]) ∧ EndsInKey t x

theorem isWord_s : (secretKey t).isWord (codePoint 's') = true :=
  (isWord_iff (by decide)).2 (by decide)

theorem boundary_s (prev : Option CodePoint) :
    boundary (secretKey t).isWord prev (some (codePoint 's')) = true ↔
      ∀ c ∈ prev, (secretKey t).isWord c = false := by
  unfold boundary
  rw [Option.any_some, isWord_s]
  cases prev <;> simp

theorem reads_sk (w : PyStr) : (secretKey t).reads (lit "sk-" ++ w) = some (lit "sk-", w) := rfl

theorem EndsInKey.wordAt {s : PyStr} (h : EndsInKey t s) :
    ∃ a u k w, s = a ++ u ∧ (secretKey t).WordAt a.getLast? u k w [] := by
  obtain ⟨a, w, rfl, hborder, hrun, hleast, c, hc, hword⟩ := h
  refine ⟨a, lit "sk-" ++ w, lit "sk-", w, rfl, (boundary_s _).2 hborder, ?_, hrun, hleast, ?_⟩
  · rw [List.append_nil]
    exact reads_sk w
  · unfold boundary
    rw [Option.mem_def.1 hc, Option.any_some, hword]
    rfl

theorem secretKey_long {prev : Option CodePoint} {s : PyStr} {f : Found CodePoint}
    (h : (secretKey t).finder prev s = some f) :
    f.kept = [] ∧ redacted.length < f.secret.length := by
  obtain ⟨k, w, hkept, hsecret, hword⟩ := WordRun.finder_eq_some h
  obtain ⟨-, hall, -⟩ := WordRun.reads_spec hword.start
  have hk : 3 = k.length := hall.length_eq
  have hw : 8 ≤ w.length := hword.least
  have hredacted : redacted.length = 10 := rfl
  refine ⟨hkept, ?_⟩
  rw [hsecret, List.length_append]
  omega

theorem EndsInKey.shorter {s : PyStr} (h : EndsInKey t s) :
    (replace (secretKey t).finder redacted s).length < s.length := by
  rcases (replaces_replace finds_secretKey s).shorter finds_secretKey secretKey_long with
    hlt | ⟨-, hnone⟩
  · exact hlt
  · obtain ⟨a, u, k, w, hsplit, hword⟩ := h.wordAt
    have hfound := hnone a u hsplit
    rw [Option.or_none] at hfound
    exact absurd hword (WordRun.finder_eq_none.1 hfound k w [])

theorem eq_of_start : ∀ {ls : List Char} {k : List (Option CodePoint)},
    List.Forall₂ (fun (q : Option CodePoint → Bool) c => q c = true)
      ((ls.map fun l c => decide (c = codePoint l)).map fun q c => c.any q) k →
        k = ls.map fun l => some (codePoint l)
  | [], _, .nil => rfl
  | l :: ls, _, .cons (b := c) hc hall => by
    rw [eq_of_start hall, List.map_cons]
    cases c with
    | none => cases hc
    | some d =>
      have hd : d = codePoint l := of_decide_eq_true hc
      rw [hd]

/-- What is marked at the end of a marked text is a key at the end of the text. -/
theorem endsInKey_unmark {a u k w : List (Option CodePoint)}
    (h : (secretKey t).lift.WordAt a.getLast? u k w []) :
    EndsInKey t (unmark redacted (a ++ u)) := by
  obtain ⟨hu, hall, -⟩ := WordRun.reads_spec h.start
  obtain ⟨w', rfl⟩ : ∃ w' : PyStr, w = w'.map some := by
    obtain ⟨w', hw'⟩ := WordRun.run_unmarked (p := secretKey t) w
    exact ⟨w', by rw [← hw', List.takeWhile_eq_self_iff.2 h.run]⟩
  obtain rfl : k = "sk-".toList.map fun l => some (codePoint l) := eq_of_start hall
  refine ⟨unmark redacted a, w', ?_, ?_, fun c hc => ?_, ?_, ?_⟩
  · rw [unmark_append, hu, List.append_nil, unmark_append, unmark_map]
    rfl
  · have hclose : redacted.getLast? = some (codePoint ']') := rfl
    have hborder := h.first
    rw [hu] at hborder
    rw [getLast?_unmark hclose]
    apply (boundary_s _).1
    unfold boundary at hborder ⊢
    rw [apart_secretKey.any_before]
    exact hborder
  · exact h.run (some c) (List.mem_map_of_mem hc)
  · have hleast : 8 ≤ (w'.map some).length := h.least
    rwa [List.length_map] at hleast
  · have hborder := h.last
    unfold boundary at hborder
    rw [List.getLast?_map] at hborder
    cases hlast : w'.getLast? with
    | none =>
      rw [hlast] at hborder
      cases hborder
    | some c =>
      refine ⟨c, rfl, ?_⟩
      rw [hlast] at hborder
      have hword : ((secretKey t).isWord c != false) = true := hborder
      simpa using hword

/-! ### Redacting what was cut -/

theorem isSpace_redacted {c : CodePoint} (h : c ∈ redacted) : t.isSpace c = false := by
  by_contra hspace
  have hsoft := isHard_redacted (t := t) h
  rw [isHard_of_isSpace (Bool.of_not_eq_false hspace)] at hsoft
  cases hsoft

section Stub

variable {K L : List (Option CodePoint)} {P q : PyStr}

theorem Settled.front (h : Settled t (K ++ none :: L)) : Settled t (K ++ [none]) := by
  have hsplit : K ++ none :: L = (K ++ [none]) ++ L := by simp
  have hstub : (Redaction.secretKey t).lift.Stub none [] :=
    ⟨rfl, rfl, proper_secretKey.lawful.start_mark, nofun⟩
  refine ⟨?_, ?_, ?_, h.secretKey.stub proper_secretKey.lawful hstub⟩
  · exact clear_bearer.lawful.closed_front (hsplit ▸ h.bearer)
  · exact clear_apiKey.lawful.closed_front (hsplit ▸ h.apiKey)
  · exact clear_token.lawful.closed_front (hsplit ▸ h.token)

theorem noWord_stub (h : (secretKey t).lift.NoWord (K ++ none :: L)) (htext : redacted = P ++ q)
    (hP : P ≠ []) : (secretKey t).lift.NoWord (K ++ P.map some) := by
  cases P with
  | nil => exact absurd rfl hP
  | cons c P =>
    obtain ⟨rfl, hbody⟩ : openBracket = c ∧ lit "REDACTED]" = P ++ q := by
      have hcons : openBracket :: lit "REDACTED]" = c :: (P ++ q) := htext
      simpa using hcons
    refine h.stub proper_secretKey.lawful ⟨?_, rfl, ?_, ?_⟩
    · exact isWord_eq_false (by decide)
    · intro r hr
      obtain ⟨r, hr', rfl⟩ := List.mem_map.1 hr
      exact lawful_secretKey.start_mark r hr'
    · intro d hd r hr
      obtain ⟨d, hd', rfl⟩ := List.mem_map.1 hd
      cases hr
      refine decide_eq_false fun heq => ?_
      have hmem : d ∈ redacted := by
        rw [htext]
        exact List.mem_append_left q (List.mem_cons_of_mem _ hd')
      obtain ⟨-, hhigh, -⟩ := redacted_vals d hmem
      rw [heq] at hhigh
      exact absurd hhigh (by decide)

/-- What is left of a mark stays, or becomes the mark again. -/
theorem redactMarked_stub (h : Settled t (K ++ none :: L)) (htext : redacted = P ++ q)
    (hP : P ≠ []) (hq : q ≠ []) : redactMarked t (K ++ P.map some) = K ++ P.map some ∨
      redactMarked t (K ++ P.map some) = K ++ [none] := by
  have hback := h.front
  have hspace : ∀ c ∈ redacted, t.isSpace c = false := fun c hc => isSpace_redacted hc
  have h₁ := clear_bearer.lawful.replace_stub (apart_bearer.stub hspace htext hP hq) h.bearer
  have h₂ := clear_apiKey.lawful.replace_stub (apart_apiKey.stub hspace htext hP hq) h.apiKey
  have h₃ := clear_token.lawful.replace_stub (apart_token.stub hspace htext hP hq) h.token
  have h₄ := (noWord_stub h.secretKey htext hP).replace (m := none) finds_liftedKey
  have hback₂ := clear_apiKey.lawful.replace_closed hback.apiKey
  have hback₃ := clear_token.lawful.replace_closed hback.token
  have hback₄ := hback.secretKey.replace (m := none) finds_liftedKey
  unfold redactMarked
  simp only
  rcases h₁ with h₁ | h₁
  · rw [h₁]
    rcases h₂ with h₂ | h₂
    · rw [h₂]
      rcases h₃ with h₃ | h₃
      · rw [h₃, h₄]
        exact .inl rfl
      · rw [h₃, hback₄]
        exact .inr rfl
    · rw [h₂, hback₃, hback₄]
      exact .inr rfl
  · rw [h₁, hback₂, hback₃, hback₄]
    exact .inr rfl

theorem not_endsInKey_stub {x : PyStr} (htext : redacted = P ++ q) (hP : P ≠ []) (hq : q ≠ []) :
    ¬EndsInKey t (x ++ P) := by
  rintro ⟨a, w, hsplit, -, hrun, hleast, -⟩
  have hlength : P.length < 10 := by
    have hsum := congrArg List.length htext
    have hpos := List.length_pos_iff.2 hq
    rw [List.length_append] at hsum
    have hredacted : redacted.length = 10 := rfl
    omega
  have hopen : openBracket ∈ P := by
    cases P with
    | nil => exact absurd rfl hP
    | cons c P =>
      obtain ⟨rfl, -⟩ : openBracket = c ∧ lit "REDACTED]" = P ++ q := by
        have hcons : openBracket :: lit "REDACTED]" = c :: (P ++ q) := htext
        simpa using hcons
      exact List.mem_cons_self
  have hkey : (lit "sk-" ++ w).length = 3 + w.length := by
    rw [List.length_append]
    rfl
  rcases List.append_eq_append_iff.1 hsplit with ⟨z, rfl, rfl⟩ | ⟨z, rfl, hz⟩
  · rw [List.length_append, hkey] at hlength
    omega
  · have hmem : openBracket ∈ lit "sk-" ++ w := by
      rw [hz]
      exact List.mem_append_right z hopen
    rcases List.mem_append.1 hmem with hmem | hmem
    · exact lit_openBracket (by decide) hmem
    · have hkey := hrun openBracket hmem
      cases hkey

end Stub

/-- What was cut is redacted to itself exactly where it does not end in a key. -/
theorem fit_redact_fit {O : List (Option CodePoint)} (h : Settled t O) (limit : ℕ) :
    fit limit (redact t (fit limit (unmark redacted O))) = fit limit (unmark redacted O) ↔
      ¬EndsInKey t (fit limit (unmark redacted O)) := by
  obtain ⟨b, hsplit, hle, hnext⟩ := fit_spec limit (unmark redacted O)
  generalize fit limit (unmark redacted O) = C at hsplit hle hnext
  rcases split_unmark hsplit with ⟨K, L, rfl, rfl, -⟩ | ⟨K, L, P, q, rfl, htext, hP, hq, rfl, hb⟩
  · have hbearer := clear_bearer.lawful.replace_closed (clear_bearer.lawful.closed_front h.bearer)
    have hapiKey := clear_apiKey.lawful.replace_closed (clear_apiKey.lawful.closed_front h.apiKey)
    have htoken := clear_token.lawful.replace_closed (clear_token.lawful.closed_front h.token)
    have hmarked : redactMarked t K = replace (secretKey t).lift.finder [none] K := by
      unfold redactMarked
      simp only
      rw [hbearer, hapiKey, htoken]
    have hredact : redact t (unmark redacted K) =
        replace (secretKey t).finder redacted (unmark redacted K) := by
      rw [redact_unmark, hmarked, apart_secretKey.mirrors.replace finds_liftedKey finds_secretKey]
    constructor
    · intro hsame hkey
      obtain ⟨b', hfit, -⟩ := fit_spec limit (redact t (unmark redacted K))
      have hlength := congrArg List.length hfit
      have hshorter := hkey.shorter
      rw [hsame, List.length_append, hredact] at hlength
      omega
    · intro hkey
      have hno : (secretKey t).lift.NoWord K := by
        intro a u hK k w b' hword
        obtain rfl := h.secretKey.front hK hword
        rw [hK] at hkey
        exact hkey (endsInKey_unmark hword)
      rw [redact_unmark, hmarked, hno.replace finds_liftedKey]
      exact fit_self hle
  · have hno : ¬EndsInKey t (unmark redacted K ++ P) := not_endsInKey_stub htext hP hq
    refine ⟨fun _ => hno, fun _ => ?_⟩
    have hunmark : unmark redacted K ++ P = unmark redacted (K ++ P.map some) := by
      rw [unmark_append, unmark_map]
    have hcut : fit limit (unmark redacted (K ++ [none])) = unmark redacted K ++ P := by
      have hwhole : unmark redacted (K ++ [none]) = (unmark redacted K ++ P) ++ q := by
        rw [unmark_append, unmark_none, unmark_nil, List.append_nil, List.append_assoc, ← htext]
      rw [hwhole]
      apply fit_unique hle
      intro c hc
      apply hnext c
      rw [hb]
      cases q with
      | nil => exact absurd rfl hq
      | cons d q => exact hc
    rw [hunmark, redact_unmark]
    rcases redactMarked_stub h htext hP hq with hsame | hback
    · rw [hsame, ← hunmark]
      exact fit_self hle
    · rw [hback, hcut, hunmark]

/-- The limit falls behind a key exactly where the cut text ends in one. -/
theorem cutsKey_iff {O : List (Option CodePoint)} (h : Settled t O) (limit : ℕ) :
    CutsKey t limit (unmark redacted O) ↔ EndsInKey t (fit limit (unmark redacted O)) := by
  constructor
  · rintro ⟨x, c, b, hsplit, hle, hlt, hkey⟩
    have hfit : fit limit (unmark redacted O) = x := by
      rw [hsplit]
      apply fit_unique hle
      intro d hd
      cases hd
      exact hlt
    rwa [hfit]
  · intro hkey
    obtain ⟨b, hsplit, hle, hnext⟩ := fit_spec limit (unmark redacted O)
    cases b with
    | nil =>
      -- what is not cut has no key
      rw [List.append_nil] at hsplit
      have hshorter := hkey.shorter
      rw [← hsplit, apart_secretKey.mirrors.replace finds_liftedKey finds_secretKey,
        h.secretKey.replace finds_liftedKey] at hshorter
      exact absurd hshorter (Nat.lt_irrefl _)
    | cons c b => exact ⟨_, c, b, hsplit, hle, hnext c rfl, hkey⟩

/-! ### Characters of what is redacted -/

theorem mem_replace {find : Finder CodePoint} {mark s : PyStr} (hfind : Finds find)
    {c : CodePoint} (h : c ∈ replace find mark s) : c ∈ s ∨ c ∈ mark := by
  have hrun : Replaces find mark none s (replace find mark s) := replaces_replace hfind s
  generalize replace find mark s = o at h hrun
  generalize (none : Option CodePoint) = prev at hrun
  induction hrun with
  | nil => cases h
  | keep _ _ ih =>
    rcases List.mem_cons.1 h with rfl | h
    · exact .inl List.mem_cons_self
    · exact (ih h).imp (List.mem_cons_of_mem _) id
  | @cut prev s o f hfound _ ih =>
    rw [hfind.split hfound]
    rcases List.mem_append.1 h with h | h
    · exact .inl (List.mem_append_left _ h)
    · rcases List.mem_append.1 h with h | h
      · exact .inr h
      · exact (ih h).imp (fun h => List.mem_append_right _ (List.mem_append_right _ h)) id

theorem mem_redact {s : PyStr} {c : CodePoint} (h : c ∈ redact t s) : c ∈ s ∨ c ∈ redacted := by
  rcases mem_replace finds_secretKey h with h | h
  · rcases mem_replace Pattern.finds h with h | h
    · rcases mem_replace Pattern.finds h with h | h
      · exact mem_replace Pattern.finds h
      · exact .inr h
    · exact .inr h
  · exact .inr h

theorem mem_fit {limit : ℕ} {s : PyStr} {c : CodePoint} (h : c ∈ fit limit s) : c ∈ s := by
  obtain ⟨b, hsplit, -⟩ := fit_spec limit s
  rw [hsplit]
  exact List.mem_append_left b h

theorem nul_notMem_redact {s : PyStr} (h : nul ∉ s) : nul ∉ redact t s := by
  intro hmem
  rcases mem_redact hmem with hmem | hmem
  · exact h hmem
  · obtain ⟨hlow, -⟩ := redacted_vals nul hmem
    exact absurd hlow (by decide)

theorem any_isSurrogate_redact {s : PyStr} (h : s.any isSurrogate = false) :
    (redact t s).any isSurrogate = false := by
  rw [List.any_eq_false] at h ⊢
  intro c hc hsurrogate
  rcases mem_redact hc with hmem | hmem
  · exact h c hmem hsurrogate
  · obtain ⟨-, hhigh, -⟩ := redacted_vals c hmem
    simp [isSurrogate] at hsurrogate
    omega

theorem redactDiagnosticText_eq {limit : ℕ} {s : PyStr} (hnul : nul ∉ s)
    (hsurrogate : (redact t s).any isSurrogate = false) :
    redactDiagnosticText t limit s = .ok (fit limit (redact t s)) := by
  unfold redactDiagnosticText
  rw [if_neg hnul, if_neg (by simp [hsurrogate])]
  split_ifs with hlt
  · rfl
  · rw [fit_self (Nat.le_of_not_lt hlt)]

/-! ### Redacting twice -/

/-- Redacting the redacted text once more leaves it as it is. -/
def ConversationStable (t : Tables) (s : PyStr) : Prop :=
  (do
    let (text, _) ← redactConversationText t s
    let (again, _) ← redactConversationText t text
    return again) = (redactConversationText t s).map Prod.fst

def DiagnosticStable (t : Tables) (limit : ℕ) (s : PyStr) : Prop :=
  (redactDiagnosticText t limit s >>= redactDiagnosticText t limit) =
    redactDiagnosticText t limit s

theorem conversationStable (s : PyStr) : ConversationStable t s := by
  unfold ConversationStable
  by_cases hnul : nul ∈ s
  · have herror : redactConversationText t s =
        .error "conversation text must be a string without NUL" := by
      unfold redactConversationText
      rw [if_pos hnul]
    rw [herror]
    rfl
  · have hfirst : redactConversationText t s = .ok (redact t s, redact t s ≠ s) := by
      unfold redactConversationText
      rw [if_neg hnul]
    have hsecond : redactConversationText t (redact t s) = .ok (redact t s, false) := by
      unfold redactConversationText
      rw [if_neg (nul_notMem_redact hnul), redact_redact]
      simp
    rw [hfirst]
    show (do
      let (again, _) ← redactConversationText t (redact t s)
      return again) = .ok (redact t s)
    rw [hsecond]
    rfl

/-- A text with NUL and a text that cannot be encoded are refused. -/
theorem diagnosticStable_iff (limit : ℕ) (s : PyStr) : DiagnosticStable t limit s ↔
    nul ∈ s ∨ (redact t s).any isSurrogate = true ∨ ¬CutsKey t limit (redact t s) := by
  unfold DiagnosticStable
  by_cases hnul : nul ∈ s
  · have herror : redactDiagnosticText t limit s =
        .error "diagnostic text must be a string without NUL" := by
      unfold redactDiagnosticText
      rw [if_pos hnul]
    rw [herror]
    exact iff_of_true rfl (.inl hnul)
  · by_cases hsurrogate : (redact t s).any isSurrogate = true
    · have herror : redactDiagnosticText t limit s = .error "surrogates not allowed" := by
        unfold redactDiagnosticText
        rw [if_neg hnul, if_pos hsurrogate]
      rw [herror]
      exact iff_of_true rfl (.inr (.inl hsurrogate))
    · have hclean := Bool.of_not_eq_true hsurrogate
      have hmarked := redact_unmark (t := t) (s.map some)
      rw [unmark_map] at hmarked
      have hsettled := settled_redactMarked (t := t) (s.map some)
      have hnul' : nul ∉ fit limit (redact t s) := fun hmem =>
        nul_notMem_redact hnul (mem_fit hmem)
      have hclean' : (redact t (fit limit (redact t s))).any isSurrogate = false := by
        apply any_isSurrogate_redact
        rw [List.any_eq_false] at hclean ⊢
        exact fun c hc => hclean c (mem_fit hc)
      have hagain : (redactDiagnosticText t limit s >>= redactDiagnosticText t limit) =
          .ok (fit limit (redact t (fit limit (redact t s)))) := by
        rw [redactDiagnosticText_eq hnul hclean]
        exact redactDiagnosticText_eq hnul' hclean'
      rw [hagain, redactDiagnosticText_eq hnul hclean, Except.ok.injEq, hmarked,
        fit_redact_fit hsettled limit, cutsKey_iff hsettled limit]
      simp [hnul, ← hmarked, hclean]

/-! ### What is stored is checked once more -/

theorem checkLiveText_redacted {limit : ℕ} {s text : PyStr} {changed : Bool}
    (h : redactConversationText t s = .ok (text, changed)) :
    checkLiveText t limit text ≠ .error "live assistant text is not redacted" := by
  unfold redactConversationText at h
  split_ifs at h with hnul
  cases h
  have hclean := nul_notMem_redact (t := t) hnul
  unfold checkLiveText
  rw [if_neg hclean]
  split_ifs
  · simp
  · simp
  · have hagain : redactConversationText t (redact t s) = .ok (redact t s, false) := by
      unfold redactConversationText
      rw [if_neg hclean, redact_redact]
      simp
    rw [hagain]
    show (if redact t s = redact t s then Except.ok () else _) ≠ _
    simp

/-- The ring takes back what the redactor made for it, but where the limit falls behind a key. -/
theorem checkRingText_iff {limit : ℕ} {s text : PyStr}
    (h : redactDiagnosticText t limit s = .ok text) :
    checkRingText t limit text = .ok () ↔ ¬CutsKey t limit (redact t s) := by
  have hnul : nul ∉ s := by
    intro hmem
    unfold redactDiagnosticText at h
    rw [if_pos hmem] at h
    cases h
  have hclean : (redact t s).any isSurrogate = false := by
    by_contra hsurrogate
    unfold redactDiagnosticText at h
    rw [if_neg hnul, if_pos (Bool.of_not_eq_false hsurrogate)] at h
    cases h
  have htext : redactDiagnosticText t limit s = .ok (fit limit (redact t s)) :=
    redactDiagnosticText_eq hnul hclean
  obtain rfl : fit limit (redact t s) = text := Except.ok.inj (htext.symm.trans h)
  have hstable := diagnosticStable_iff (t := t) limit s
  simp only [hnul, hclean, false_or, Bool.false_eq_true] at hstable
  rw [← hstable]
  unfold DiagnosticStable checkRingText
  obtain ⟨b, hsplit, hle, -⟩ := fit_spec limit (redact t s)
  have hsurrogate : (fit limit (redact t s)).any isSurrogate = false := by
    rw [List.any_eq_false] at hclean ⊢
    exact fun c hc => hclean c (mem_fit hc)
  rw [h, if_neg (by simp [hsurrogate]), if_neg (Nat.not_lt.2 hle)]
  show (redactDiagnosticText t limit (fit limit (redact t s)) >>= fun again =>
    if again = fit limit (redact t s) then .ok ()
    else .error "diagnostic text is unredacted or oversized") = .ok () ↔
      redactDiagnosticText t limit (fit limit (redact t s)) = .ok (fit limit (redact t s))
  cases redactDiagnosticText t limit (fit limit (redact t s)) with
  | error e => exact iff_of_false nofun nofun
  | ok again =>
    show (if again = fit limit (redact t s) then Except.ok () else _) = _ ↔ _
    split_ifs with hsame
    · simp [hsame]
    · simp [hsame]

/-- What the redactor made is redacted to itself, but where the limit falls behind a key; so the
checks of a live text and of a stored one take it back. -/
theorem redaction_stable_iff (t : Tables) (limit : ℕ) (s : PyStr) :
    ConversationStable t s ∧
    (∀ text changed, redactConversationText t s = .ok (text, changed) →
      checkLiveText t limit text ≠ .error "live assistant text is not redacted") ∧
    (DiagnosticStable t limit s ↔
      nul ∈ s ∨ (redact t s).any isSurrogate = true ∨ ¬CutsKey t limit (redact t s)) ∧
    ∀ text, redactDiagnosticText t limit s = .ok text →
      (checkRingText t limit text = .ok () ↔ ¬CutsKey t limit (redact t s)) :=
  ⟨conversationStable s, fun _ _ => checkLiveText_redacted, diagnosticStable_iff limit s,
    fun _ => checkRingText_iff⟩

/-- Tables with one letter beyond ASCII. -/
def frenchTables : Tables where
  isSpace c := 9 ≤ c.val && c.val ≤ 13 || 28 ≤ c.val && c.val ≤ 32
  isAlnum c := isAsciiAlnum c || c.val = 0xE9
  space_ascii _ _ := rfl
  alnum_ascii c h := by
    have hne : c.val ≠ 0xE9 := by omega
    simp [isAsciiAlnum, hne]
  space_letter c h := by
    simp only [List.mem_cons, List.not_mem_nil, or_false] at h
    rcases h with h | h | h | h <;> rw [h] <;> rfl

/-- The letter behind the key keeps it from being one, until it is cut off. -/
theorem letter_behind_key :
    redactDiagnosticText frenchTables 11 (lit "sk-abcdefgh\u00e9") = .ok (lit "sk-abcdefgh") ∧
      redactDiagnosticText frenchTables 11 (lit "sk-abcdefgh") = .ok redacted ∧
        ¬DiagnosticStable frenchTables 11 (lit "sk-abcdefgh\u00e9") := by
  have hfirst : redactDiagnosticText frenchTables 11 (lit "sk-abcdefgh\u00e9") =
      .ok (lit "sk-abcdefgh") := by rfl
  have hsecond : redactDiagnosticText frenchTables 11 (lit "sk-abcdefgh") = .ok redacted := by rfl
  refine ⟨hfirst, hsecond, fun hstable => ?_⟩
  unfold DiagnosticStable at hstable
  rw [hfirst] at hstable
  have hsame := Except.ok.inj (hsecond.symm.trans hstable)
  exact absurd (congrArg List.length hsame) (by decide)

end CodexFlow.Redaction
