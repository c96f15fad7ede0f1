import CodexFlow.Hook.Fingerprints
import CodexFlow.Lib.Checked

/-!
# The repair of a create

A repaired payload is repaired to itself, so that both sides of the hook compute one fingerprint.
Two payloads have one fingerprint exactly when they cannot be told apart by what is written of them.
-/

open Checked (bind_eq_ok pure_eq_ok)

namespace CodexFlow.Hook

variable {p : Platform} {input repaired : Dict} {changed : Bool} {context : TargetContext}

/-! ### Repairing twice -/

theorem get?_del_self (d : Dict) (key : PyStr) : (d.del key).get? key = none := by
  unfold Dict.get? Dict.del
  rw [Option.map_eq_none_iff, List.find?_eq_none]
  intro field hfield hsame
  exact of_decide_eq_true (List.mem_filter.1 hfield).2 (of_decide_eq_true hsame)

theorem get?_del_of_ne (d : Dict) {key other : PyStr} (h : other ≠ key) :
    (d.del key).get? other = d.get? other := by
  unfold Dict.get? Dict.del
  rw [List.find?_filter]
  congr 2
  funext field
  by_cases hsame : field.1 = other
  · simp [hsame, h]
  · simp [hsame]

theorem get?_set_of_ne (d : Dict) {key other : PyStr} (value : Json) (h : other ≠ key) :
    (d.set key value).get? other = d.get? other := by
  unfold Dict.set Dict.get?
  split_ifs with hhas
  · rw [List.find?_map, Option.map_map]
    have hfind : (fun field : PyStr × Json => decide
        ((if field.1 = key then (key, value) else field).1 = other)) =
          fun field => decide (field.1 = other) := by
      funext field
      split_ifs with hkey
      · rw [hkey]
      · rfl
    show Option.map _ (d.find? fun field : PyStr × Json => decide
      ((if field.1 = key then (key, value) else field).1 = other)) = _
    rw [hfind]
    cases hfound : d.find? fun field => decide (field.1 = other) with
    | none => rfl
    | some field =>
      have hdecide := List.find?_some hfound
      have hother : field.1 = other := of_decide_eq_true hdecide
      show some (if field.1 = key then (key, value) else field).2 = some field.2
      rw [if_neg fun hkey => h (hother.symm.trans hkey)]
  · rw [List.find?_append]
    have hnone : [(key, value)].find? (fun field => decide (field.1 = other)) = none := by
      simp [Ne.symm h]
    rw [hnone, Option.or_none]

/-- The repair takes the top-level identity away, and changes nothing but it and the target. -/
theorem repairProjectId_ok (h : repairProjectId input = .ok (repaired, changed)) :
    repaired.get? (lit "projectId") = none ∧ ∀ key, key ≠ lit "projectId" → key ≠ lit "target" →
      repaired.get? key = input.get? key := by
  unfold repairProjectId at h
  split at h
  · rename_i habsent
    cases h
    exact ⟨habsent, fun _ _ _ => rfl⟩
  · simp only [bind_eq_ok] at h
    obtain ⟨projectId, -, target, -, target', -, ⟨⟩, -, h⟩ := h
    split at h
    · simp only [bind_eq_ok, pure_eq_ok] at h
      obtain ⟨nested, -, ⟨⟩, -, h⟩ := h
      cases h
      exact ⟨get?_del_self _ _, fun key hkey _ => get?_del_of_ne _ hkey⟩
    · cases h
      refine ⟨get?_del_self _ _, fun key hkey htarget => ?_⟩
      rw [get?_del_of_ne _ hkey, get?_set_of_ne _ _ htarget]

theorem repairProjectId_repaired (h : repaired.get? (lit "projectId") = none) :
    repairProjectId repaired = .ok (repaired, false) := by
  unfold repairProjectId
  rw [h]

theorem repairPayload_ok {toolInput : Json}
    (h : repairPayload p toolInput = .ok (repaired, changed, context)) :
    ∃ input : Dict, toolInput = .obj input ∧ nonemptyText (input.get (lit "prompt")) = true ∧
      (∃ title, titleIdentity p (input.get? (lit "title")) = .ok title) ∧
      repairProjectId input = .ok (repaired, changed) ∧ repaired.has (lit "target") = true ∧
      targetContext (repaired.get (lit "target")) = .ok context := by
  simp only [repairPayload, bind_eq_ok, pure_eq_ok, Prod.exists] at h
  obtain ⟨input, hinput, ⟨⟩, hprompt, title, htitle, repaired', changed', hrepair, ⟨⟩, hhas,
    context', hcontext, hsame⟩ := h
  obtain ⟨rfl, rfl, rfl⟩ : repaired' = repaired ∧ changed' = changed ∧ context' = context := by
    simpa using hsame
  have hobject : toolInput = .obj input := by
    cases toolInput with
    | obj fields =>
      cases hinput
      rfl
    | _ => cases hinput
  have hrequire : ∀ {c : Bool} {m : PyStr}, require c m = .ok () → c = true := by
    intro c m hc
    cases c with
    | true => rfl
    | false => cases hc
  exact ⟨input, hobject, hrequire hprompt, ⟨title, htitle⟩, hrepair, hrequire hhas, hcontext⟩

theorem repairPayload_repaired {toolInput : Json}
    (h : repairPayload p toolInput = .ok (repaired, changed, context)) :
    repairPayload p (.obj repaired) = .ok (repaired, false, context) := by
  obtain ⟨input, -, hprompt, ⟨title, htitle⟩, hrepair, hhas, hcontext⟩ := repairPayload_ok h
  obtain ⟨habsent, hkept⟩ := repairProjectId_ok hrepair
  have hprompt' : nonemptyText (repaired.get (lit "prompt")) = true := by
    unfold Dict.get at hprompt ⊢
    rwa [hkept _ (by decide) (by decide)]
  have htitle' : titleIdentity p (repaired.get? (lit "title")) = .ok title := by
    rwa [hkept _ (by decide) (by decide)]
  have hinput : requireDict (.obj repaired) (lit "create_thread arguments must be an object") =
      .ok repaired := rfl
  have hrequire : ∀ {c : Bool} {text : PyStr}, c = true → require c text = .ok () := by
    rintro _ _ rfl
    rfl
  unfold repairPayload
  rw [hinput, Checked.ok_bind, hrequire hprompt', Checked.ok_bind, htitle', Checked.ok_bind,
    repairProjectId_repaired habsent, Checked.ok_bind]
  simp only [hrequire hhas, Checked.ok_bind, hcontext]
  rfl

/-! ### Fingerprints -/

/-- The fingerprint that both sides of the hook compute for a tool input. -/
def createFingerprint (p : Platform) (toolInput : Json) : Checked PyStr := do
  let (repaired, _, context) ← repairPayload p toolInput
  fingerprint p repaired context

theorem createFingerprint_eq {toolInput : Json}
    (h : repairPayload p toolInput = .ok (repaired, changed, context)) :
    createFingerprint p toolInput = fingerprint p repaired context := by
  unfold createFingerprint
  rw [h]
  rfl

def titleOf (repaired : Dict) : Option PyStr := (repaired.get? (lit "title")).bind Json.asStr

/-- What `_title_identity` returns for a text that it accepts. -/
def identityOf (p : Platform) (title : PyStr) : TitleIdentity where
  length := title.length
  digest := p.sha256 (encodeSurrogatePass title)
  normalisedDigest := p.sha256 (encodeSurrogatePass (strip p (p.normalizeNFC title)))

theorem titleIdentity_ok {repaired : Dict} {title : Option TitleIdentity}
    (h : titleIdentity p (repaired.get? (lit "title")) = .ok title) :
    title = (titleOf repaired).map (identityOf p) := by
  unfold titleOf
  match repaired.get? (lit "title"), h with
  | none, h =>
    cases h
    rfl
  | some (.str s), h =>
    simp only [titleIdentity, bind_eq_ok, pure_eq_ok] at h
    obtain ⟨-, -, rfl⟩ := h
    rfl

def titleWritten (title : Option TitleIdentity) : PyStr :=
  dumps ((title.map TitleIdentity.toJson).getD .null)

theorem dumps_canonical (title : Option TitleIdentity) (input : Dict) (context : TargetContext) :
    dumps (canonical p title input context) = lit "\x7b\"model\":" ++
      (quoted (textField input (lit "model") maxModel) ++ (lit ",\"prompt_digest\":" ++
        (quoted (promptDigest p (promptOf input)) ++ (lit ",\"target\":" ++ (context.written ++
          (lit ",\"thinking\":" ++ (quoted (textField input (lit "thinking") maxThinking) ++
            (lit ",\"title\":" ++ (titleWritten title ++ lit "\x7d"))))))))) := by
  have hobject : dumps (canonical p title input context) = objectText
      [(lit "model", dumps (.str (textField input (lit "model") maxModel))),
        (lit "prompt_digest", dumps (.str (promptDigest p (promptOf input)))),
        (lit "target", dumps context.toJson),
        (lit "thinking", dumps (.str (textField input (lit "thinking") maxThinking))),
        (lit "title", titleWritten title)] := by
    refine dumps_obj [lit "model", lit "prompt_digest", lit "target", lit "thinking", lit "title"]
      (by decide) rfl ?_
    have hplaces : ([0, 1, 2, 3, 4] : List (Fin 5)).Perm [2, 4, 1, 3, 0] := by decide
    exact hplaces.map (List.get [(lit "title", titleWritten title),
      (lit "target", dumps context.toJson),
      (lit "model", dumps (.str (textField input (lit "model") maxModel))),
      (lit "thinking", dumps (.str (textField input (lit "thinking") maxThinking))),
      (lit "prompt_digest", dumps (.str (promptDigest p (promptOf input))))])
  rw [hobject, dumps_str, dumps_str, dumps_str, dumps_context]
  simp only [objectText, commaSeparated, List.map_cons, List.map_nil, List.intersperse_cons_cons,
    List.intersperse_singleton, List.flatten_cons, List.flatten_nil, List.append_assoc,
    List.append_nil]
  rfl

/-- A surrogate reads as a question mark. -/
def replaced (s : PyStr) : PyStr := s.map fun c => if isSurrogate c then codePoint '?' else c

theorem encodeReplace_eq (s : PyStr) : encodeReplace s = encodeSurrogatePass (replaced s) := by
  unfold encodeReplace encodeSurrogatePass replaced
  rw [List.flatMap_map]
  refine congrArg (fun f => s.flatMap f) (funext fun c => ?_)
  split_ifs with hsurrogate
  · rfl
  · rfl

variable {repaired' : Dict} {context' : TargetContext}

/-- What the fingerprint tells of two payloads. -/
structure Alike (repaired repaired' : Dict) (context context' : TargetContext) : Prop where
  title : titleOf repaired = titleOf repaired'
  target : context.units = context'.units
  model : units (textField repaired (lit "model") maxModel) =
    units (textField repaired' (lit "model") maxModel)
  thinking : units (textField repaired (lit "thinking") maxThinking) =
    units (textField repaired' (lit "thinking") maxThinking)
  prompt : replaced ((promptOf repaired).take maxPromptForDigest) =
    replaced ((promptOf repaired').take maxPromptForDigest)

/-- SHA-256, in hexadecimal digits. -/
structure Platform.Hashes (p : Platform) (sha : Git.Sha256) : Prop where
  digest : p.sha256 = sha.hexdigest

variable {sha : Git.Sha256}

theorem Platform.Hashes.injective (h : p.Hashes sha) {s t : List UInt8}
    (same : p.sha256 s = p.sha256 t) : s = t := by
  rw [h.digest] at same
  exact sha.injective same

theorem Platform.Hashes.units (h : p.Hashes sha) (s : List UInt8) :
    Hook.units (p.sha256 s) = p.sha256 s := by
  refine units_eq_self fun c hc => ?_
  rw [h.digest] at hc
  have hhex := List.all_eq_true.1 (sha.isHex s) c hc
  simp only [Git.isHexDigit, Bool.or_eq_true, Bool.and_eq_true, decide_eq_true_eq] at hhex
  omega

theorem promptDigest_iff (h : p.Hashes sha) {prompt prompt' : PyStr} :
    units (promptDigest p prompt) = units (promptDigest p prompt') ↔
      replaced (prompt.take maxPromptForDigest) = replaced (prompt'.take maxPromptForDigest) := by
  unfold promptDigest
  rw [h.units, h.units, encodeReplace_eq, encodeReplace_eq]
  constructor
  · exact fun same => Git.encodeSurrogatePass_injective (h.injective same)
  · exact fun same => by rw [same]

theorem titleWritten_some (title : TitleIdentity) : ∃ tail, titleWritten (some title) =
    lit "\x7b\"digest\":" ++ (quoted title.digest ++ tail) := by
  have hobject : titleWritten (some title) = objectText [(lit "digest", dumps (.str title.digest)),
      (lit "length", dumps (.int title.length)),
      (lit "normalised_digest", dumps (.str title.normalisedDigest))] :=
    dumps_obj [lit "digest", lit "length", lit "normalised_digest"] (by decide) rfl (.swap _ _ _)
  rw [hobject, dumps_str, dumps_str]
  simp only [objectText, commaSeparated, List.map_cons, List.map_nil, List.intersperse_cons_cons,
    List.intersperse_singleton, List.flatten_cons, List.flatten_nil, List.append_assoc,
    List.append_nil]
  exact ⟨_, rfl⟩

theorem titleWritten_none : titleWritten none = lit "null" := by
  show dumps .null = _
  rw [dumps]

theorem titleWritten_inj (h : p.Hashes sha) {title title' : Option PyStr}
    (same : titleWritten (title.map (identityOf p)) = titleWritten (title'.map (identityOf p))) :
    title = title' := by
  cases title with
  | none =>
    cases title' with
    | none => rfl
    | some s' =>
      obtain ⟨tail, htail⟩ := titleWritten_some (identityOf p s')
      rw [Option.map_none, Option.map_some, titleWritten_none, htail,
        ← List.append_nil (lit "null")] at same
      exact (apart 1 (by decide) (by decide) (by decide) same).elim
  | some s =>
    obtain ⟨tail, htail⟩ := titleWritten_some (identityOf p s)
    cases title' with
    | none =>
      rw [Option.map_none, Option.map_some, titleWritten_none, htail,
        ← List.append_nil (lit "null")] at same
      exact (apart 1 (by decide) (by decide) (by decide) same).elim
    | some s' =>
      obtain ⟨tail', htail'⟩ := titleWritten_some (identityOf p s')
      rw [Option.map_some, Option.map_some, htail, htail'] at same
      obtain ⟨hdigest, -⟩ := quoted_append_inj (List.append_cancel_left same)
      have hsame : p.sha256 (encodeSurrogatePass s) = p.sha256 (encodeSurrogatePass s') := by
        have hunits : units (p.sha256 (encodeSurrogatePass s)) =
          units (p.sha256 (encodeSurrogatePass s')) := hdigest
        rwa [h.units, h.units] at hunits
      exact congrArg some (Git.encodeSurrogatePass_injective (h.injective hsame))

/-- The text of the fingerprint tells apart what its parts tell apart. -/
theorem dumps_canonical_iff (h : p.Hashes sha) :
    dumps (canonical p ((titleOf repaired).map (identityOf p)) repaired context) =
      dumps (canonical p ((titleOf repaired').map (identityOf p)) repaired' context') ↔
    Alike repaired repaired' context context' := by
  rw [dumps_canonical, dumps_canonical]
  constructor
  · intro same
    obtain ⟨hmodel, same⟩ := quoted_append_inj (List.append_cancel_left same)
    obtain ⟨hprompt, same⟩ := quoted_append_inj (List.append_cancel_left same)
    obtain ⟨htarget, same⟩ := TargetContext.written_inj (List.append_cancel_left same)
    obtain ⟨hthinking, same⟩ := quoted_append_inj (List.append_cancel_left same)
    have htitle := List.append_cancel_right (List.append_cancel_left same)
    exact ⟨titleWritten_inj h htitle, htarget, hmodel, hthinking, (promptDigest_iff h).1 hprompt⟩
  · intro halike
    rw [quoted_eq_iff.2 halike.model, quoted_eq_iff.2 ((promptDigest_iff h).2 halike.prompt),
      ← context.written_units, halike.target, context'.written_units,
      quoted_eq_iff.2 halike.thinking, halike.title]

theorem fingerprint_iff (h : p.Hashes sha) {toolInput toolInput' : Json} {changed' : Bool}
    (hrepair : repairPayload p toolInput = .ok (repaired, changed, context))
    (hrepair' : repairPayload p toolInput' = .ok (repaired', changed', context')) :
    createFingerprint p toolInput = createFingerprint p toolInput' ↔
      Alike repaired repaired' context context' := by
  have hwritten : ∀ {toolInput repaired changed context},
      repairPayload p toolInput = .ok (repaired, changed, context) →
      createFingerprint p toolInput = .ok (p.sha256 (encodeSurrogatePass
        (dumps (canonical p ((titleOf repaired).map (identityOf p)) repaired context)))) := by
    intro toolInput repaired changed context hrepair
    obtain ⟨-, -, -, -, hrepaired, -⟩ := repairPayload_ok hrepair
    obtain ⟨input, hobject, -, ⟨title, htitle⟩, -⟩ :=
      repairPayload_ok (repairPayload_repaired hrepair)
    cases hobject
    rw [createFingerprint_eq hrepair]
    unfold fingerprint
    rw [htitle, titleIdentity_ok htitle]
    rfl
  rw [hwritten hrepair, hwritten hrepair', Except.ok.injEq, ← dumps_canonical_iff h]
  constructor
  · exact fun same => Git.encodeSurrogatePass_injective (h.injective same)
  · exact fun same => by rw [same]

/-! ### Canonical repair -/

/-- The payloads differ in title, target, model, thinking, or the bounded prompt. -/
def Differ (repaired repaired' : Dict) (context context' : TargetContext) : Prop :=
  titleOf repaired ≠ titleOf repaired' ∨ context ≠ context' ∨
    textField repaired (lit "model") maxModel ≠ textField repaired' (lit "model") maxModel ∨
    textField repaired (lit "thinking") maxThinking ≠
      textField repaired' (lit "thinking") maxThinking ∨
    (promptOf repaired).take maxPromptForDigest ≠ (promptOf repaired').take maxPromptForDigest

/-- Repairing twice changes nothing, on either side of the hook; and payloads that differ have two
fingerprints exactly when they differ in more than surrogates. -/
theorem create_repair_canonical (p : Platform) (sha : Git.Sha256) (h : p.Hashes sha)
    (input input' : Json) (repaired repaired' : Dict) (changed changed' : Bool)
    (context context' : TargetContext)
    (hrepair : repairPayload p input = .ok (repaired, changed, context))
    (hrepair' : repairPayload p input' = .ok (repaired', changed', context')) :
    ((repairPayload p (.obj repaired) = .ok (repaired, false, context) ∧
        createFingerprint p (.obj repaired) = createFingerprint p input) ∧
      (Differ repaired repaired' context context' →
        createFingerprint p input ≠ createFingerprint p input')) ↔
    (Differ repaired repaired' context context' →
      ¬ Alike repaired repaired' context context') := by
  have hagain := repairPayload_repaired hrepair
  constructor
  · rintro ⟨-, hapart⟩ hdiffer halike
    exact hapart hdiffer ((fingerprint_iff h hrepair hrepair').2 halike)
  · intro hapart
    refine ⟨⟨hagain, ?_⟩, fun hdiffer same => ?_⟩
    · rw [createFingerprint_eq hagain, createFingerprint_eq hrepair]
    · exact hapart hdiffer ((fingerprint_iff h hrepair hrepair').1 same)

/-! ### A lone surrogate -/

/-- The library of a trace, with a digest that tells all inputs apart. -/
def hashingPlatform : Platform where
  sha256 := Git.Sha256.sample.hexdigest
  loads _ := none
  normalizeNFC := id
  isSpace c := c.val = 0x20 || (0x09 ≤ c.val && c.val ≤ 0x0D) || (0x1C ≤ c.val && c.val ≤ 0x1F)
  isControl c := c.val ≤ 0x1F || c.val = 0x7F

/-- A payload without a target directory. -/
def prompting (prompt : PyStr) : Dict :=
  [(lit "prompt", .str prompt), (lit "target", .obj [(lit "type", .str (lit "projectless"))])]

theorem prompting_repaired (c : CodePoint) :
    repairPayload hashingPlatform (.obj (prompting [c])) =
      .ok (prompting [c], false, .projectless none) := rfl

theorem create_repair_canonical_letters :
    ((repairPayload hashingPlatform (.obj (prompting (lit "a"))) =
          .ok (prompting (lit "a"), false, .projectless none) ∧
        createFingerprint hashingPlatform (.obj (prompting (lit "a"))) =
          createFingerprint hashingPlatform (.obj (prompting (lit "a")))) ∧
      (Differ (prompting (lit "a")) (prompting (lit "b")) (.projectless none) (.projectless none) →
        createFingerprint hashingPlatform (.obj (prompting (lit "a"))) ≠
          createFingerprint hashingPlatform (.obj (prompting (lit "b"))))) ↔
    (Differ (prompting (lit "a")) (prompting (lit "b")) (.projectless none) (.projectless none) →
      ¬ Alike (prompting (lit "a")) (prompting (lit "b")) (.projectless none) (.projectless none)) :=
  create_repair_canonical hashingPlatform Git.Sha256.sample ⟨rfl⟩ (.obj (prompting (lit "a")))
    (.obj (prompting (lit "b"))) (prompting (lit "a")) (prompting (lit "b")) false false
    (.projectless none) (.projectless none) (prompting_repaired _) (prompting_repaired _)

/-- U+D800 -/
def loneSurrogate : CodePoint := ⟨0xD800, by decide⟩

/-- A prompt that is a surrogate and one that is a question mark have one fingerprint. -/
theorem surrogate_prompt_shares :
    Differ (prompting [loneSurrogate]) (prompting (lit "?")) (.projectless none)
        (.projectless none) ∧
      createFingerprint hashingPlatform (.obj (prompting [loneSurrogate])) =
        createFingerprint hashingPlatform (.obj (prompting (lit "?"))) := by
  have hashes : hashingPlatform.Hashes Git.Sha256.sample := ⟨rfl⟩
  refine ⟨.inr (.inr (.inr (.inr (by decide)))), ?_⟩
  refine (fingerprint_iff hashes (prompting_repaired _)
    (prompting_repaired _)).2 ?_
  exact ⟨rfl, rfl, rfl, rfl, by decide⟩

end CodexFlow.Hook
