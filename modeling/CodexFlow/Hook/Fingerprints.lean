import CodexFlow.Capsule.Value
import CodexFlow.Git.Signatures
import CodexFlow.Hook.Payload

/-!
# What the text of a fingerprint tells apart

The fingerprint is the digest of a JSON text. Its strings are written by the 16-bit units of their
characters, and everything that is written can be read off the front of the text.
-/

namespace CodexFlow.Hook

/-! ### Strings -/

/-- The 16-bit units of a character. -/
def charUnits (c : CodePoint) : PyStr :=
  if h : c.val < 0x10000 then [c]
  else [⟨0xD800 + (c.val - 0x10000) / 1024, by omega⟩, ⟨0xDC00 + (c.val - 0x10000) % 1024, by omega⟩]

/-- The 16-bit units of a text, as code points. -/
def units (s : PyStr) : PyStr := s.flatMap charUnits

theorem units_eq_self {s : PyStr} (h : ∀ c ∈ s, c.val < 0x10000) : units s = s := by
  induction s with
  | nil => rfl
  | cons c s ih =>
    obtain ⟨hc, hs⟩ := List.forall_mem_cons.1 h
    show charUnits c ++ units s = c :: s
    rw [ih hs, charUnits, dif_pos hc]
    rfl

theorem escapeChar_unit {n : ℕ} (low : 0x7F ≤ n) (high : n < 0x10000) :
    escapeChar ⟨n, by omega⟩ = unicodeEscape n := by
  unfold escapeChar
  dsimp only
  rw [if_neg (by omega), if_neg (by omega), if_neg (by omega), if_neg (by omega), if_neg (by omega),
    if_neg (by omega), if_neg (by omega), if_neg (by simp; omega), if_pos high]

theorem flatMap_charUnits (c : CodePoint) : (charUnits c).flatMap escapeChar = escapeChar c := by
  unfold charUnits
  split_ifs with h
  · exact List.flatMap_singleton ..
  · have hbound := c.isLt
    rw [List.flatMap_cons, List.flatMap_singleton, escapeChar_unit (by omega) (by omega),
      escapeChar_unit (by omega) (by omega), escapeChar]
    rw [if_neg (by omega), if_neg (by omega), if_neg (by omega), if_neg (by omega),
      if_neg (by omega), if_neg (by omega), if_neg (by omega), if_neg (by simp; omega), if_neg h]

theorem quoted_units (s : PyStr) : quoted (units s) = quoted s := by
  have hbody : (units s).flatMap escapeChar = s.flatMap escapeChar := by
    unfold units
    rw [List.flatMap_assoc]
    exact congrArg (fun f => s.flatMap f) (funext flatMap_charUnits)
  unfold quoted
  rw [hbody]

open Capsule (scanString scanString_simple scanString_hex scanString_plain scanString_quote
  hexUnit_unicodeEscape simpleEscape)

theorem lt_of_unit {n : ℕ} (h : n < 0x10000) : n < 0x110000 := by
  omega

theorem scanString_unicodeEscape {n : ℕ} (h : n < 0x10000) (tail : PyStr) :
    scanString (unicodeEscape n ++ tail) =
      (scanString tail).map fun (s, rest) => ((⟨n, lt_of_unit h⟩ : CodePoint) :: s, rest) :=
  scanString_hex (hexUnit_unicodeEscape h) tail

theorem scanString_unit {c : CodePoint} (h : c.val < 0x10000) (tail : PyStr) :
    scanString (escapeChar c ++ tail) =
      (scanString tail).map fun (s, rest) => (c :: s, rest) := by
  have named : ∀ {e d : CodePoint}, e ≠ codePoint 'u' → simpleEscape e = some d → c.val = d.val →
      scanString (Capsule.backslash :: e :: tail) =
        (scanString tail).map fun (s, rest) => (c :: s, rest) := by
    intro e d notHex simple same
    rw [Fin.ext same]
    exact scanString_simple notHex simple tail
  unfold escapeChar
  dsimp only
  split_ifs with isQuote isBackslash newline return_ tab feed bell printable
  · exact named (e := codePoint '"') (d := codePoint '"') (by decide) (by decide) isQuote
  · exact named (e := codePoint '\\') (d := codePoint '\\') (by decide) (by decide) isBackslash
  · exact named (e := codePoint 'n') (d := codePoint '\n') (by decide) (by decide) newline
  · exact named (e := codePoint 'r') (d := codePoint '\r') (by decide) (by decide) return_
  · exact named (e := codePoint 't') (d := codePoint '\t') (by decide) (by decide) tab
  · exact named (e := codePoint 'f') (d := codePoint '\x0c') (by decide) (by decide) feed
  · exact named (e := codePoint 'b') (d := codePoint '\x08') (by decide) (by decide) bell
  · have hquote : c ≠ Capsule.quote := fun same => isQuote (congrArg Fin.val same)
    have hbackslash : c ≠ Capsule.backslash := fun same => isBackslash (congrArg Fin.val same)
    have hcontrol : ¬ c.val < 0x20 := by
      simp at printable
      omega
    exact scanString_plain hquote hbackslash hcontrol tail
  · exact scanString_unicodeEscape h tail

theorem scanString_quoted (s rest : PyStr) :
    scanString (s.flatMap escapeChar ++ Capsule.quote :: rest) = some (units s, rest) := by
  induction s with
  | nil => exact scanString_quote rest
  | cons c s ih =>
    have hunits : units (c :: s) = charUnits c ++ units s := rfl
    rw [List.flatMap_cons, List.append_assoc, ← flatMap_charUnits, hunits]
    have hread : ∀ front : PyStr, (∀ d ∈ front, d.val < 0x10000) →
        scanString (front.flatMap escapeChar ++ (s.flatMap escapeChar ++ Capsule.quote :: rest)) =
          some (front ++ units s, rest) := by
      intro front
      induction front with
      | nil => exact fun _ => ih
      | cons d front ihfront =>
        intro hfront
        obtain ⟨hd, hfront⟩ := List.forall_mem_cons.1 hfront
        rw [List.flatMap_cons, List.append_assoc, scanString_unit hd, ihfront hfront]
        rfl
    refine hread _ fun d hd => ?_
    unfold charUnits at hd
    split_ifs at hd with h
    · rw [List.mem_singleton.1 hd]
      exact h
    · have hbound := c.isLt
      rcases List.mem_cons.1 hd with rfl | hd
      · show 0xD800 + (c.val - 0x10000) / 1024 < 0x10000
        omega
      · rw [List.mem_singleton.1 hd]
        show 0xDC00 + (c.val - 0x10000) % 1024 < 0x10000
        omega

/-- A string is read off the front of a text. -/
theorem quoted_append_inj {s t rest rest' : PyStr} (h : quoted s ++ rest = quoted t ++ rest') :
    units s = units t ∧ rest = rest' := by
  have hread : ∀ s rest : PyStr, quoted s ++ rest =
      Capsule.quote :: (s.flatMap escapeChar ++ Capsule.quote :: rest) := by
    intro s rest
    unfold quoted
    rw [List.append_assoc, List.append_assoc]
    rfl
  rw [hread, hread] at h
  have hbody := congrArg scanString (List.cons.inj h).2
  rw [scanString_quoted, scanString_quoted] at hbody
  exact ⟨congrArg Prod.fst (Option.some.inj hbody), congrArg Prod.snd (Option.some.inj hbody)⟩

theorem quoted_eq_iff {s t : PyStr} : quoted s = quoted t ↔ units s = units t := by
  constructor
  · intro h
    exact (quoted_append_inj (congrArg (· ++ []) h)).1
  · intro h
    rw [← quoted_units s, h, quoted_units]

/-! ### Objects -/

theorem keyLE_antisymm : ∀ {a b : PyStr}, keyLE a b = true → keyLE b a = true → a = b
  | [], [], _, _ => rfl
  | [], _ :: _, _, h => by cases h
  | _ :: _, [], h, _ => by cases h
  | a :: as, b :: bs, hab, hba => by
    simp only [keyLE, Bool.or_eq_true, Bool.and_eq_true, decide_eq_true_eq] at hab hba
    rcases hab with hlt | ⟨rfl, hab⟩
    · rcases hba with hgt | ⟨rfl, -⟩
      · exact absurd hgt hlt.asymm
      · exact absurd hlt (lt_irrefl _)
    · rcases hba with hgt | ⟨-, hba⟩
      · exact absurd hgt (lt_irrefl _)
      · rw [keyLE_antisymm hab hba]

theorem dumpsFields_eq (fields : Dict) :
    dumpsFields fields = fields.map fun field => (field.1, dumps field.2) := by
  induction fields with
  | nil => rfl
  | cons field fields ih => rw [dumpsFields, ih]; rfl

/-- The text of an object whose keys are in order. -/
def objectText (parts : List (PyStr × PyStr)) : PyStr :=
  lit "\x7b" ++ commaSeparated (parts.map fun part => quoted part.1 ++ lit ":" ++ part.2) ++
    lit "\x7d"

theorem dumps_str (s : PyStr) : dumps (.str s) = quoted s := by rw [dumps]

theorem dumps_obj {fields : Dict} {parts : List (PyStr × PyStr)} (keys : List PyStr)
    (hsorted : keys.Pairwise fun a b => keyLE a b = true ∧ a ≠ b) (hkeys : parts.map (·.1) = keys)
    (perm : (fields.map fun field => (field.1, dumps field.2)).Perm parts) :
    dumps (.obj fields) = objectText parts := by
  have hsort : (dumpsFields fields).mergeSort (fun a b => keyLE a.1 b.1) = parts := by
    have hnodup : (parts.map (·.1)).Nodup := hkeys ▸ hsorted.imp fun h => h.2
    rw [← hkeys, List.pairwise_map] at hsorted
    have hmerged := List.pairwise_mergeSort (fun a b c => Capsule.keyLE_trans a.1 b.1 c.1)
      (fun a b => Capsule.keyLE_total a.1 b.1) (dumpsFields fields)
    have hparts : parts.Pairwise fun a b => keyLE a.1 b.1 = true := hsorted.imp fun h => h.1
    refine List.Perm.eq_of_pairwise ?_ hmerged hparts ?_
    · intro a b ha hb hab hba
      rw [List.mem_mergeSort, dumpsFields_eq] at ha
      exact List.inj_on_of_nodup_map hnodup (perm.mem_iff.1 ha) hb (keyLE_antisymm hab hba)
    · rw [dumpsFields_eq]
      exact (List.mergeSort_perm _ _).trans perm
  rw [dumps, hsort]
  rfl

/-! ### Targets -/

theorem apart {front front' tail tail' : PyStr} (n : ℕ) (hn : n ≤ front.length)
    (hn' : n ≤ front'.length) (hne : front.take n ≠ front'.take n) :
    front ++ tail ≠ front' ++ tail' := fun h => hne (by
  have htake := congrArg (List.take n) h
  rwa [List.take_append_of_le_length hn, List.take_append_of_le_length hn'] at htake)

def onMissingText : Option OnMissing → PyStr
  | none => lit ",\"type\":\"branch\"\x7d"
  | some .error => lit ",\"on_missing\":\"error\",\"type\":\"branch\"\x7d"
  | some .createBranch => lit ",\"on_missing\":\"create-branch\",\"type\":\"branch\"\x7d"

def StartingState.written : StartingState → PyStr
  | .workingTree => lit "\x7b\"type\":\"working-tree\"\x7d"
  | .branch name onMissing => lit "\x7b\"branch_name\":" ++ (quoted name ++ onMissingText onMissing)

def Environment.written : Environment → PyStr
  | .local => lit "\x7b\"type\":\"local\"\x7d"
  | .worktree none => lit "\x7b\"type\":\"worktree\"\x7d"
  | .worktree (some state) =>
    lit "\x7b\"starting_state\":" ++ (state.written ++ lit ",\"type\":\"worktree\"\x7d")

def optionalWritten : Option PyStr → PyStr
  | none => lit "null"
  | some s => quoted s

def TargetContext.written : TargetContext → PyStr
  | .project id environment =>
    lit "\x7b\"environment\":" ++ (environment.written ++ (lit ",\"project_id\":" ++
      (quoted id ++ lit ",\"type\":\"project\"\x7d")))
  | .projectless directory =>
    lit "\x7b\"directory_name\":" ++
      (optionalWritten directory ++ lit ",\"type\":\"projectless\"\x7d")
  | .chatgptWorkCloud id =>
    lit "\x7b\"project_id\":" ++
      (optionalWritten id ++ lit ",\"type\":\"chatgptWorkCloud\"\x7d")

def Ascending (keys : List PyStr) : Prop := keys.Pairwise fun a b => keyLE a b = true ∧ a ≠ b

instance (keys : List PyStr) : Decidable (Ascending keys) :=
  inferInstanceAs (Decidable (keys.Pairwise fun a b => keyLE a b = true ∧ a ≠ b))

variable {k k' k'' : PyStr} {v v' v'' : Json}

theorem dumps_one : dumps (.obj [(k, v)]) =
    lit "\x7b" ++ (quoted k ++ (lit ":" ++ (dumps v ++ lit "\x7d"))) := by
  have h : dumps (.obj [(k, v)]) = objectText [(k, dumps v)] :=
    dumps_obj [k] (List.pairwise_singleton _ k) rfl (.refl _)
  rw [h]
  simp [objectText, commaSeparated]

theorem dumps_swapped (order : Ascending [k', k]) : dumps (.obj [(k, v), (k', v')]) =
    lit "\x7b" ++ (quoted k' ++ (lit ":" ++ (dumps v' ++ (lit "," ++ (quoted k ++ (lit ":" ++
      (dumps v ++ lit "\x7d"))))))) := by
  have h : dumps (.obj [(k, v), (k', v')]) = objectText [(k', dumps v'), (k, dumps v)] :=
    dumps_obj [k', k] order rfl (.swap _ _ _)
  rw [h]
  simp [objectText, commaSeparated]

theorem dumps_rotated (order : Ascending [k', k'', k]) :
    dumps (.obj [(k, v), (k', v'), (k'', v'')]) = lit "\x7b" ++ (quoted k' ++ (lit ":" ++
      (dumps v' ++ (lit "," ++ (quoted k'' ++ (lit ":" ++ (dumps v'' ++ (lit "," ++ (quoted k ++
        (lit ":" ++ (dumps v ++ lit "\x7d"))))))))))) := by
  have h : dumps (.obj [(k, v), (k', v'), (k'', v'')]) =
      objectText [(k', dumps v'), (k'', dumps v''), (k, dumps v)] :=
    dumps_obj [k', k'', k] order rfl (List.perm_append_singleton _ [_, _]).symm
  rw [h]
  simp [objectText, commaSeparated]

theorem dumps_reversed (order : Ascending [k'', k', k]) :
    dumps (.obj [(k, v), (k', v'), (k'', v'')]) = lit "\x7b" ++ (quoted k'' ++ (lit ":" ++
      (dumps v'' ++ (lit "," ++ (quoted k' ++ (lit ":" ++ (dumps v' ++ (lit "," ++ (quoted k ++
        (lit ":" ++ (dumps v ++ lit "\x7d"))))))))))) := by
  have h : dumps (.obj [(k, v), (k', v'), (k'', v'')]) =
      objectText [(k'', dumps v''), (k', dumps v'), (k, dumps v)] :=
    dumps_obj [k'', k', k] order rfl (List.reverse_perm [_, _, _]).symm
  rw [h]
  simp [objectText, commaSeparated]

theorem dumps_startingState (s : StartingState) : dumps s.toJson = s.written := by
  match s with
  | .workingTree =>
    rw [StartingState.toJson, dumps_one, dumps_str]
    rfl
  | .branch name none =>
    rw [StartingState.toJson, dumps_swapped (by decide), dumps_str, dumps_str]
    rfl
  | .branch name (some .error) =>
    rw [StartingState.toJson, dumps_rotated (by decide), dumps_str, dumps_str, dumps_str]
    rfl
  | .branch name (some .createBranch) =>
    rw [StartingState.toJson, dumps_rotated (by decide), dumps_str, dumps_str, dumps_str]
    rfl

theorem dumps_environment (e : Environment) : dumps e.toJson = e.written := by
  match e with
  | .local =>
    rw [Environment.toJson, dumps_one, dumps_str]
    rfl
  | .worktree none =>
    rw [Environment.toJson, dumps_one, dumps_str]
    rfl
  | .worktree (some state) =>
    rw [Environment.toJson, dumps_swapped (by decide), dumps_startingState, dumps_str]
    rfl

theorem dumps_optionalText (s : Option PyStr) : dumps (optionalText s) = optionalWritten s := by
  cases s with
  | none => rw [optionalText, dumps]; rfl
  | some s => exact dumps_str s

theorem dumps_context (c : TargetContext) : dumps c.toJson = c.written := by
  match c with
  | .project id environment =>
    rw [TargetContext.toJson, dumps_reversed (by decide), dumps_environment, dumps_str, dumps_str]
    rfl
  | .projectless directory =>
    rw [TargetContext.toJson, dumps_swapped (by decide), dumps_optionalText, dumps_str]
    rfl
  | .chatgptWorkCloud id =>
    rw [TargetContext.toJson, dumps_swapped (by decide), dumps_optionalText, dumps_str]
    rfl

/-! ### Reading a target -/

/-- The context with its texts in 16-bit units. -/
def StartingState.units : StartingState → StartingState
  | .workingTree => .workingTree
  | .branch name onMissing => .branch (Hook.units name) onMissing

def Environment.units : Environment → Environment
  | .local => .local
  | .worktree state => .worktree (state.map StartingState.units)

def TargetContext.units : TargetContext → TargetContext
  | .project id environment => .project (Hook.units id) environment.units
  | .projectless directory => .projectless (directory.map Hook.units)
  | .chatgptWorkCloud id => .chatgptWorkCloud (id.map Hook.units)

variable {rest rest' : PyStr}

theorem onMissingText_inj {o o' : Option OnMissing}
    (h : onMissingText o ++ rest = onMissingText o' ++ rest') : o = o' ∧ rest = rest' := by
  match o, o' with
  | none, none => exact ⟨rfl, List.append_cancel_left h⟩
  | some .error, some .error => exact ⟨rfl, List.append_cancel_left h⟩
  | some .createBranch, some .createBranch => exact ⟨rfl, List.append_cancel_left h⟩
  | none, some .error => exact (apart 3 (by decide) (by decide) (by decide) h).elim
  | none, some .createBranch => exact (apart 3 (by decide) (by decide) (by decide) h).elim
  | some .error, none => exact (apart 3 (by decide) (by decide) (by decide) h).elim
  | some .createBranch, none => exact (apart 3 (by decide) (by decide) (by decide) h).elim
  | some .error, some .createBranch =>
    exact (apart 16 (by decide) (by decide) (by decide) h).elim
  | some .createBranch, some .error =>
    exact (apart 16 (by decide) (by decide) (by decide) h).elim

theorem StartingState.written_inj {s t : StartingState}
    (h : s.written ++ rest = t.written ++ rest') : s.units = t.units ∧ rest = rest' := by
  match s, t with
  | .workingTree, .workingTree => exact ⟨rfl, List.append_cancel_left h⟩
  | .workingTree, .branch name onMissing =>
    simp only [written, List.append_assoc] at h
    exact (apart 3 (by decide) (by decide) (by decide) h).elim
  | .branch name onMissing, .workingTree =>
    simp only [written, List.append_assoc] at h
    exact (apart 3 (by decide) (by decide) (by decide) h).elim
  | .branch name onMissing, .branch name' onMissing' =>
    simp only [written, List.append_assoc] at h
    obtain ⟨hname, h⟩ := quoted_append_inj (List.append_cancel_left h)
    obtain ⟨rfl, hrest⟩ := onMissingText_inj h
    exact ⟨by rw [units, units, hname], hrest⟩

theorem Environment.written_inj {e e' : Environment}
    (h : e.written ++ rest = e'.written ++ rest') : e.units = e'.units ∧ rest = rest' := by
  match e, e' with
  | .local, .local => exact ⟨rfl, List.append_cancel_left h⟩
  | .worktree none, .worktree none => exact ⟨rfl, List.append_cancel_left h⟩
  | .local, .worktree none => exact (apart 10 (by decide) (by decide) (by decide) h).elim
  | .worktree none, .local => exact (apart 10 (by decide) (by decide) (by decide) h).elim
  | .local, .worktree (some state) =>
    simp only [written, List.append_assoc] at h
    exact (apart 3 (by decide) (by decide) (by decide) h).elim
  | .worktree none, .worktree (some state) =>
    simp only [written, List.append_assoc] at h
    exact (apart 3 (by decide) (by decide) (by decide) h).elim
  | .worktree (some state), .local =>
    simp only [written, List.append_assoc] at h
    exact (apart 3 (by decide) (by decide) (by decide) h).elim
  | .worktree (some state), .worktree none =>
    simp only [written, List.append_assoc] at h
    exact (apart 3 (by decide) (by decide) (by decide) h).elim
  | .worktree (some state), .worktree (some state') =>
    simp only [written, List.append_assoc] at h
    obtain ⟨hstate, h⟩ := StartingState.written_inj (List.append_cancel_left h)
    refine ⟨?_, List.append_cancel_left h⟩
    rw [units, units, Option.map_some, Option.map_some, hstate]

theorem quoted_ne_null {s : PyStr} : quoted s ++ rest ≠ lit "null" ++ rest' := by
  unfold quoted
  rw [List.append_assoc, List.append_assoc]
  exact apart 1 (by decide) (by decide) (by decide)

theorem optionalWritten_inj {s t : Option PyStr}
    (h : optionalWritten s ++ rest = optionalWritten t ++ rest') :
    s.map units = t.map units ∧ rest = rest' := by
  match s, t with
  | none, none => exact ⟨rfl, List.append_cancel_left h⟩
  | none, some t => exact (quoted_ne_null h.symm).elim
  | some s, none => exact (quoted_ne_null h).elim
  | some s, some t =>
    obtain ⟨hsame, hrest⟩ := quoted_append_inj h
    exact ⟨congrArg some hsame, hrest⟩

/-- A target context is read off the front of a text. -/
theorem TargetContext.written_inj {c c' : TargetContext}
    (h : c.written ++ rest = c'.written ++ rest') : c.units = c'.units ∧ rest = rest' := by
  match c, c' with
  | .project id environment, .project id' environment' =>
    simp only [written, List.append_assoc] at h
    obtain ⟨henvironment, h⟩ := Environment.written_inj (List.append_cancel_left h)
    obtain ⟨hid, h⟩ := quoted_append_inj (List.append_cancel_left h)
    exact ⟨by rw [units, units, henvironment, hid], List.append_cancel_left h⟩
  | .projectless directory, .projectless directory' =>
    simp only [written, List.append_assoc] at h
    obtain ⟨hdirectory, h⟩ := optionalWritten_inj (List.append_cancel_left h)
    exact ⟨by rw [units, units, hdirectory], List.append_cancel_left h⟩
  | .chatgptWorkCloud id, .chatgptWorkCloud id' =>
    simp only [written, List.append_assoc] at h
    obtain ⟨hid, h⟩ := optionalWritten_inj (List.append_cancel_left h)
    exact ⟨by rw [units, units, hid], List.append_cancel_left h⟩
  | .project id environment, .projectless directory =>
    simp only [written, List.append_assoc] at h
    exact (apart 3 (by decide) (by decide) (by decide) h).elim
  | .project id environment, .chatgptWorkCloud id' =>
    simp only [written, List.append_assoc] at h
    exact (apart 3 (by decide) (by decide) (by decide) h).elim
  | .projectless directory, .project id environment =>
    simp only [written, List.append_assoc] at h
    exact (apart 3 (by decide) (by decide) (by decide) h).elim
  | .projectless directory, .chatgptWorkCloud id' =>
    simp only [written, List.append_assoc] at h
    exact (apart 3 (by decide) (by decide) (by decide) h).elim
  | .chatgptWorkCloud id, .project id' environment =>
    simp only [written, List.append_assoc] at h
    exact (apart 3 (by decide) (by decide) (by decide) h).elim
  | .chatgptWorkCloud id, .projectless directory =>
    simp only [written, List.append_assoc] at h
    exact (apart 3 (by decide) (by decide) (by decide) h).elim

/-! ### Writing by units -/

theorem optionalWritten_units (s : Option PyStr) :
    optionalWritten (s.map units) = optionalWritten s := by
  cases s with
  | none => rfl
  | some s => exact quoted_units s

theorem StartingState.written_units (s : StartingState) : s.units.written = s.written := by
  cases s with
  | workingTree => rfl
  | branch name onMissing => rw [units, written, written, quoted_units]

theorem Environment.written_units (e : Environment) : e.units.written = e.written := by
  match e with
  | .local => rfl
  | .worktree none => rfl
  | .worktree (some state) =>
    rw [units, Option.map_some, written, written, StartingState.written_units]

theorem TargetContext.written_units (c : TargetContext) : c.units.written = c.written := by
  cases c with
  | project id environment =>
    rw [units, written, written, Environment.written_units, quoted_units]
  | projectless directory => rw [units, written, written, optionalWritten_units]
  | chatgptWorkCloud id => rw [units, written, written, optionalWritten_units]

end CodexFlow.Hook
