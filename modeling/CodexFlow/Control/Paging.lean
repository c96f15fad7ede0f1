import CodexFlow.Control.Listing
import CodexFlow.Ledger.Authority
import CodexFlow.Lib.Cursor

/-!
# Pages of a control listing

A page lists what fits of the entries after its continuation token, and its own token names the last
entry by its key. The token is refused as stale when the listing has another fingerprint.
-/

namespace CodexFlow.Control

open Checked
open Ledger (DispatchId WakeKind Env)

/-! ### One page -/

inductive IpcError where
  | notAcquired
  | malformedPageToken
  | pageTokenIdentityMismatch
  | itemTooLarge
deriving DecidableEq

/-- A continuation token with the nonce that it is signed by. -/
structure PageToken (δ : Type) where
  ownerNonce : String
  kind : ControlListKind
  visibility : ControlListVisibility
  snapshotId : δ
  epoch : ℕ
  ledger : String
  lastKey : ControlKey
deriving DecidableEq

/-- A page; of an item only its identity is kept. -/
structure ControlListPage (δ : Type) where
  snapshotId : δ
  items : List String
  nextToken : Option (PageToken δ)
  complete : Bool
  stale : Bool

def controlListMaxItems : ℕ := 24

def controlListMaxTokenBytes : ℕ := 1024

def controlListResponseMaxBytes : ℕ := 49152

/-- The harness that a request finds, its ledger and how long its encodings are. -/
structure PageRequest (δ : Type) where
  ledger : Ledger
  epoch : Option ℕ
  ownerNonce : String
  ledgerSha256 : String
  pageItems : ℕ
  hpageItems : 1 ≤ pageItems ∧ pageItems ≤ controlListMaxItems
  tokenBytes : PageToken δ → ℕ
  responseBytes : ControlListPage δ → ℕ

section

variable {δ : Type} [DecidableEq δ] (sha256 : SnapshotPayload → δ) (kind : ControlListKind)
  (visibility : ControlListVisibility) (r : PageRequest δ)

/-- `_encode_control_page_token` -/
def encodeControlPageToken (epoch : ℕ) (snapshotId : δ) (lastKey : ControlKey) :
    Except IpcError (PageToken δ) := do
  let token := ⟨r.ownerNonce, kind, visibility, snapshotId, epoch, r.ledgerSha256, lastKey⟩
  ensure (r.tokenBytes token ≤ controlListMaxTokenBytes) .malformedPageToken
  pure token

/-- The token after the entries when they are not all of the `total` entries. -/
def tokenAfter (epoch : ℕ) (snapshotId : δ) (total : ℕ) (selected : List ControlEntry) :
    Except IpcError (Option (PageToken δ)) :=
  match selected.getLast? with
  | some last =>
    if selected.length < total then
      (encodeControlPageToken kind visibility r epoch snapshotId last.key).map some
    else pure none
  | none => pure none

def pageOf (snapshotId : δ) (total : ℕ) (selected : List ControlEntry)
    (token : Option (PageToken δ)) : ControlListPage δ where
  snapshotId := snapshotId
  items := selected.map ControlEntry.id
  nextToken := token
  complete := total ≤ selected.length
  stale := false

/-- The entries of the page, one after the other until its size or its bytes are used up. -/
def selectEntries (epoch : ℕ) (snapshotId : δ) (total : ℕ) :
    List ControlEntry → List ControlEntry → Except IpcError (List ControlEntry)
  | selected, [] => pure selected
  | selected, entry :: entries => do
    let token ← tokenAfter kind visibility r epoch snapshotId total (selected ++ [entry])
    if controlListResponseMaxBytes <
        r.responseBytes (pageOf snapshotId total (selected ++ [entry]) token) then
      if selected = [] then throw .itemTooLarge else pure selected
    else if r.pageItems ≤ (selected ++ [entry]).length then pure (selected ++ [entry])
    else selectEntries epoch snapshotId total (selected ++ [entry]) entries

def pageOfEntries (epoch : ℕ) (snapshotId : δ) (entries : List ControlEntry) :
    Except IpcError (ControlListPage δ) := do
  let selected ← selectEntries kind visibility r epoch snapshotId entries.length [] entries
  let token ← tokenAfter kind visibility r epoch snapshotId entries.length selected
  let page := pageOf snapshotId entries.length selected token
  ensure (r.responseBytes page ≤ controlListResponseMaxBytes) .itemTooLarge
  pure page

/-- `_control_list_page` -/
def controlListPage (pageToken : Option (PageToken δ)) : Except IpcError (ControlListPage δ) :=
  match r.epoch with
  | none => throw .notAcquired
  | some epoch =>
    let snapshotId := sha256 (snapshotPayload r.ledger kind visibility epoch)
    let entries := controlListEntries r.ledger kind visibility
    match pageToken with
    | none => pageOfEntries kind visibility r epoch snapshotId entries
    | some token => do
      ensure (token.ownerNonce = r.ownerNonce) .malformedPageToken
      ensure (token.kind = kind ∧ token.visibility = visibility ∧ token.epoch = epoch ∧
        token.ledger = r.ledgerSha256) .pageTokenIdentityMismatch
      if token.snapshotId ≠ snapshotId then pure ⟨snapshotId, [], none, false, true⟩
      else
        pageOfEntries kind visibility r epoch snapshotId
          (Cursor.after ControlEntry.key token.lastKey entries)

/-! ### A client that follows the tokens -/

/-- The items of the pages up to a complete one, when no page is stale and none is refused. -/
def collect : Option (PageToken δ) → List (PageRequest δ) → Option (List String)
  | _, [] => none
  | token, r :: requests =>
    match controlListPage sha256 kind visibility r token with
    | .error _ => none
    | .ok page =>
      if page.stale then none
      else
        match page.nextToken with
        | none => some page.items
        | some next => (collect (some next) requests).map (page.items ++ ·)

def tokensGiven : Option (PageToken δ) → List (PageRequest δ) → ℕ
  | _, [] => 0
  | token, r :: requests =>
    match controlListPage sha256 kind visibility r token with
    | .error _ => 0
    | .ok page =>
      match page.nextToken with
      | none => 0
      | some next => 1 + tokensGiven (some next) requests

/-- The columns that place a row in the listing of every row: the category, and the sequence of a
worker or the deadline of a decision. -/
def keyColumns (L : Ledger) (kind : ControlListKind) (id : String) : Option (ℕ × ℤ) :=
  ((controlRows L .all kind).find? (·.id = id)).map fun e => (e.category, e.place)

/-- Every request finds the row that its token names in the category and the place it was in. -/
def KeysKept : Option (PageToken δ) → List (PageRequest δ) → Prop
  | _, [] => True
  | token, r :: requests =>
    (∀ t ∈ token, keyColumns r.ledger kind t.lastKey.id =
      some (t.lastKey.category, t.lastKey.place)) ∧
    ∀ page next, controlListPage sha256 kind visibility r token = .ok page →
      page.nextToken = some next → KeysKept (some next) requests

end

/-! ### Listings -/

variable {δ : Type} [DecidableEq δ] {sha256 : SnapshotPayload → δ} {kind : ControlListKind}
  {visibility : ControlListVisibility} {r : PageRequest δ} {env : Env} {L L' : Ledger}
  {epoch : ℕ} {snapshotId : δ} {token : Option (PageToken δ)} {page : ControlListPage δ}

/-- The identities of a listing in its order. -/
def listedIds (L : Ledger) (kind : ControlListKind) (visibility : ControlListVisibility) :
    List String :=
  (controlListEntries L kind visibility).map ControlEntry.id

theorem mem_controlListEntries {e : ControlEntry} :
    e ∈ controlListEntries L kind visibility ↔ e ∈ controlRows L visibility kind :=
  (List.perm_insertionSort _ _).mem_iff

theorem mem_allRows {e : ControlEntry} (h : e ∈ controlRows L visibility kind) :
    e ∈ controlRows L .all kind := by
  cases kind with
  | workers =>
    obtain ⟨entry, hentry, rfl⟩ := List.mem_map.1 h
    exact List.mem_map.2 ⟨entry, List.mem_filter.2 ⟨(List.mem_filter.1 hentry).1, rfl⟩, rfl⟩
  | decisions =>
    obtain ⟨entry, hentry, he⟩ := List.mem_flatMap.1 h
    obtain ⟨d, hd, rfl⟩ := List.mem_map.1 he
    refine List.mem_flatMap.2 ⟨entry, hentry, List.mem_map.2 ⟨d, ?_, rfl⟩⟩
    exact List.mem_filter.2 ⟨(List.mem_filter.1 hd).1, rfl⟩

def listedId : Ledger.DecisionKey → String
  | .dispatch dispatchId kind cycle => decisionId dispatchId kind cycle
  | .program _ => ""

theorem controlRows_nodup (hL : L.Valid env) (visibility : ControlListVisibility)
    (kind : ControlListKind) : ((controlRows L visibility kind).map ControlEntry.id).Nodup := by
  cases kind with
  | workers =>
    show (((L.dispatches.entries.filter _).map _).map ControlEntry.id).Nodup
    rw [List.map_map]
    exact L.dispatches.nodup.sublist ((List.filter_sublist).map Prod.fst)
  | decisions =>
    have hkeys := List.Nodup.map_on (f := listedId) ?_ (Ledger.dispatchKeys_nodup hL)
    · rw [List.map_flatMap] at hkeys
      refine hkeys.sublist ?_
      show ((L.dispatches.entries.flatMap _).map ControlEntry.id).Sublist _
      rw [List.map_flatMap]
      refine List.Sublist.flatMap_right _ fun entry _ => ?_
      rw [List.map_map, List.map_map]
      exact List.filter_sublist.map _
    · intro key hkey key' hkey' heq
      obtain ⟨entry, -, hkey⟩ := List.mem_flatMap.1 hkey
      obtain ⟨d, -, rfl⟩ := List.mem_map.1 hkey
      obtain ⟨entry', -, hkey'⟩ := List.mem_flatMap.1 hkey'
      obtain ⟨d', -, rfl⟩ := List.mem_map.1 hkey'
      obtain ⟨hdispatch, hkind, hcycle⟩ := decisionId_injective heq
      rw [hdispatch, hkind, hcycle]

theorem listedIds_nodup (hL : L.Valid env) : (listedIds L kind visibility).Nodup :=
  ((List.perm_insertionSort _ _).map _).nodup_iff.2 (controlRows_nodup hL visibility kind)

/-- A listed row is in its place exactly when the listing has an entry with its key. -/
theorem keyColumns_iff (hL : L.Valid env) {key : ControlKey}
    (hid : key.id ∈ listedIds L kind visibility) :
    keyColumns L kind key.id = some (key.category, key.place) ↔
      ∃ e ∈ controlListEntries L kind visibility, e.key = key := by
  obtain ⟨e, he, heid⟩ := List.mem_map.1 hid
  have hall := mem_allRows (mem_controlListEntries.1 he)
  have hfind : (controlRows L .all kind).find? (·.id = key.id) = some e := by
    cases hf : (controlRows L .all kind).find? (·.id = key.id) with
    | none => exact absurd (List.find?_eq_none.1 hf e hall) (by simp [heid])
    | some e' =>
      have hid' : e'.id = key.id := by simpa using List.find?_some hf
      exact congrArg some (List.inj_on_of_nodup_map (controlRows_nodup hL .all kind)
        (List.mem_of_find?_eq_some hf) hall (hid'.trans heid.symm))
  unfold keyColumns
  rw [hfind]
  constructor
  · intro h
    obtain ⟨hcategory, hplace⟩ := Prod.mk.inj (Option.some.inj h)
    refine ⟨e, he, ?_⟩
    show ControlKey.mk e.category e.place e.id = key
    rw [heid, hcategory, hplace]
  · rintro ⟨e', he', rfl⟩
    have hsame : e = e' := List.inj_on_of_nodup_map (controlRows_nodup hL .all kind) hall
      (mem_allRows (mem_controlListEntries.1 he')) heid
    rw [hsame]
    rfl

/-! ### What a page holds -/

omit [DecidableEq δ] in
theorem selectEntries_spec {total : ℕ} {selected entries out : List ControlEntry}
    (h : selectEntries kind visibility r epoch snapshotId total selected entries = .ok out) :
    (∃ taken left, entries = taken ++ left ∧ out = selected ++ taken) ∧
      (out = [] → selected = [] ∧ entries = []) := by
  induction entries generalizing selected with
  | nil =>
    obtain rfl := pure_eq_ok.1 h
    exact ⟨⟨[], [], rfl, (List.append_nil _).symm⟩, fun hout => ⟨hout, rfl⟩⟩
  | cons entry entries ih =>
    simp only [selectEntries, bind_eq_ok] at h
    obtain ⟨next, -, h⟩ := h
    split_ifs at h with hbytes hempty hitems
    · obtain rfl := pure_eq_ok.1 h
      exact ⟨⟨[], entry :: entries, rfl, (List.append_nil _).symm⟩,
        fun hout => absurd hout hempty⟩
    · obtain rfl := pure_eq_ok.1 h
      exact ⟨⟨[entry], entries, rfl, rfl⟩, fun hout => by simp at hout⟩
    · obtain ⟨⟨taken, left, rfl, rfl⟩, -⟩ := ih h
      refine ⟨⟨entry :: taken, left, rfl, List.append_assoc ..⟩, fun hout => by simp at hout⟩

omit [DecidableEq δ] in
/-- A page takes the first entries that are left, at least one, and has a token for the last one it
took when it did not take all. -/
theorem pageOfEntries_spec {entries : List ControlEntry}
    (h : pageOfEntries kind visibility r epoch snapshotId entries = .ok page) :
    ∃ taken left, entries = taken ++ left ∧ page.items = taken.map ControlEntry.id ∧
      page.stale = false ∧ page.complete = decide (left = []) ∧
      (page.nextToken = none → left = []) ∧
      ∀ next, page.nextToken = some next → left ≠ [] ∧ next.snapshotId = snapshotId ∧
        ∃ before last, taken = before ++ [last] ∧ next.lastKey = last.key := by
  simp only [pageOfEntries, steps_ok] at h
  obtain ⟨selected, hselected, next, hnext, -, rfl⟩ := h
  obtain ⟨⟨taken, left, rfl, rfl⟩, hempty⟩ := selectEntries_spec hselected
  refine ⟨selected, left, rfl, rfl, rfl, ?_, ?_⟩
  · show decide ((selected ++ left).length ≤ selected.length) = decide (left = [])
    cases left <;> simp
  · show (next = none → _) ∧ ∀ t, next = some t → _
    unfold tokenAfter at hnext
    split at hnext
    · rename_i last hlast
      obtain ⟨before, rfl⟩ := List.getLast?_eq_some_iff.1 hlast
      split_ifs at hnext with hmore
      · obtain ⟨t, ht, rfl⟩ := map_eq_ok.1 hnext
        simp only [encodeControlPageToken, steps_ok] at ht
        obtain ⟨-, rfl⟩ := ht
        refine ⟨fun hnone => (by cases hnone), fun t ht => ?_⟩
        obtain rfl := Option.some.inj ht
        refine ⟨?_, rfl, before, last, rfl, rfl⟩
        rintro rfl
        simp at hmore
      · obtain rfl := pure_eq_ok.1 hnext
        refine ⟨fun _ => ?_, fun t ht => (by cases ht)⟩
        cases left with
        | nil => rfl
        | cons e left => simp at hmore
    · rename_i hnone
      obtain rfl := pure_eq_ok.1 hnext
      rw [List.getLast?_eq_none_iff] at hnone
      exact ⟨fun _ => (List.append_eq_nil_iff.1 (hempty hnone).2).2, fun t ht => (by cases ht)⟩

theorem controlListPage_first (h : controlListPage sha256 kind visibility r none = .ok page) :
    ∃ epoch, r.epoch = some epoch ∧
      pageOfEntries kind visibility r epoch
        (sha256 (snapshotPayload r.ledger kind visibility epoch))
        (controlListEntries r.ledger kind visibility) = .ok page := by
  unfold controlListPage at h
  split at h
  · cases h
  · rename_i epoch hepoch
    exact ⟨epoch, hepoch, h⟩

/-- A page after a token is stale, or continues after the key in a listing with the fingerprint. -/
theorem controlListPage_next {t : PageToken δ}
    (h : controlListPage sha256 kind visibility r (some t) = .ok page) :
    (page.stale = true ∧ page.nextToken = none) ∨ ∃ epoch,
      t.snapshotId = sha256 (snapshotPayload r.ledger kind visibility epoch) ∧
      pageOfEntries kind visibility r epoch t.snapshotId
        (Cursor.after ControlEntry.key t.lastKey
          (controlListEntries r.ledger kind visibility)) = .ok page := by
  unfold controlListPage at h
  split at h
  · cases h
  rename_i epoch _
  simp only [checks_ok] at h
  obtain ⟨-, -, h⟩ := h
  split_ifs at h with hstale
  · obtain rfl := pure_eq_ok.1 h
    exact .inl ⟨rfl, rfl⟩
  · have hsame := not_not.1 hstale
    rw [← hsame] at h
    exact .inr ⟨epoch, hsame, h⟩

/-- A page that is not stale has a token exactly when it is not complete, and then an item. -/
theorem available_page (h : controlListPage sha256 kind visibility r token = .ok page)
    (havailable : page.stale = false) :
    page.complete = page.nextToken.isNone ∧ (page.nextToken.isSome → page.items ≠ []) := by
  obtain ⟨epoch, snapshotId, entries, hpage⟩ : ∃ epoch snapshotId entries,
      pageOfEntries kind visibility r epoch snapshotId entries = .ok page := by
    cases token with
    | none =>
      obtain ⟨epoch, -, hpage⟩ := controlListPage_first h
      exact ⟨_, _, _, hpage⟩
    | some t =>
      obtain ⟨hstale, -⟩ | ⟨epoch, -, hpage⟩ := controlListPage_next h
      · rw [havailable] at hstale
        cases hstale
      · exact ⟨_, _, _, hpage⟩
  obtain ⟨taken, left, -, hitems, -, hcomplete, hnone, hsome⟩ := pageOfEntries_spec hpage
  cases hnext : page.nextToken with
  | none =>
    refine ⟨?_, fun h => (nomatch h)⟩
    rw [hcomplete, hnone hnext]
    rfl
  | some next =>
    obtain ⟨hleft, -, before, last, rfl, -⟩ := hsome next hnext
    refine ⟨?_, fun _ => ?_⟩
    · rw [hcomplete]
      exact decide_eq_false hleft
    · rw [hitems]
      simp

/-! ### The walk -/

/-- From a token for the entry `i` of the listing, the client collects the entries after it exactly
when every request finds the row of its token in place, and is given fewer tokens than there are
entries left. -/
theorem collect_next (hsha : Function.Injective sha256) {before rest : List String} {i : String}
    (hids : listedIds L kind visibility = before ++ i :: rest) (hrest : rest ≠ [])
    {t : PageToken δ} (hi : t.lastKey.id = i)
    (ht : t.snapshotId = sha256 (snapshotPayload L kind visibility epoch))
    {requests : List (PageRequest δ)} (hrequests : ∀ r ∈ requests, ∃ env, r.ledger.Valid env) :
    (∀ items, collect sha256 kind visibility (some t) requests = some items →
      (items = rest ↔ KeysKept sha256 kind visibility (some t) requests)) ∧
    tokensGiven sha256 kind visibility (some t) requests < rest.length := by
  have hpositive : 0 < rest.length := List.length_pos_of_ne_nil hrest
  induction requests generalizing before i rest t with
  | nil => exact ⟨fun items h => (nomatch h), hpositive⟩
  | cons r requests ih =>
    obtain ⟨env', hr⟩ := hrequests r List.mem_cons_self
    unfold collect tokensGiven KeysKept
    cases hpage : controlListPage sha256 kind visibility r (some t) with
    | error e => exact ⟨fun items h => (nomatch h), hpositive⟩
    | ok page =>
      obtain ⟨hstale, hnone⟩ | ⟨epoch', hsnapshot, hentries⟩ := controlListPage_next hpage
      · simp only [hstale, hnone, if_true]
        exact ⟨fun items h => (nomatch h), hpositive⟩
      have hsource := congrArg SnapshotPayload.source (hsha (hsnapshot.symm.trans ht))
      have hids' : listedIds r.ledger kind visibility = before ++ i :: rest := by
        rw [← hids]
        have hmapped := congrArg (List.map ControlSource.id) hsource
        simp only [snapshotPayload, List.map_map] at hmapped
        exact hmapped
      have hlisted : t.lastKey.id ∈ listedIds r.ledger kind visibility := by
        rw [hids', hi]
        simp
      have hkept := keyColumns_iff hr hlisted
      obtain ⟨taken, left, hafter, hitems, havailable, -, hnone, hsome⟩ :=
        pageOfEntries_spec hentries
      simp only [havailable, Bool.false_eq_true, if_false, Option.mem_def, Option.some.injEq,
        forall_eq', Except.ok.injEq]
      by_cases hkey : ∃ e ∈ controlListEntries r.ledger kind visibility, e.key = t.lastKey
      · -- the cursor stands where it stood, and the rest of the listing is left
        have hleft : (taken ++ left).map ControlEntry.id = rest := by
          rw [← hafter]
          exact Cursor.after_of_kept hids' (listedIds_nodup hr)
            (fun e _ he => (congrArg ControlKey.id he).trans hi) hkey
        rw [List.map_append] at hleft
        cases hnext : page.nextToken with
        | none =>
          rw [hnone hnext, List.map_nil, List.append_nil, ← hitems] at hleft
          refine ⟨fun items h => ?_, hpositive⟩
          obtain rfl := Option.some.inj h
          refine ⟨fun _ => ⟨hkept.2 hkey, ?_⟩, fun _ => hleft⟩
          rintro page' next rfl hsome'
          rw [hnext] at hsome'
          cases hsome'
        | some next =>
          obtain ⟨hmore, hsame, done, last, rfl, hlast⟩ := hsome next hnext
          have hsplit : listedIds L kind visibility =
              (before ++ i :: done.map ControlEntry.id) ++ last.id :: left.map ControlEntry.id := by
            rw [hids, ← hleft]
            simp
          obtain ⟨hcollect, hgiven⟩ := ih hsplit (mt List.map_eq_nil_iff.1 hmore)
            (congrArg ControlKey.id hlast) (hsame.trans ht)
            (fun r hr => hrequests r (List.mem_cons_of_mem _ hr))
            (List.length_pos_of_ne_nil (mt List.map_eq_nil_iff.1 hmore))
          constructor
          · intro items h
            obtain ⟨later, hlater, rfl⟩ := Option.map_eq_some_iff.1 h
            rw [hitems, ← hleft, List.append_cancel_left_eq, hcollect later hlater]
            refine ⟨fun h => ⟨hkept.2 hkey, ?_⟩, fun h => h.2 page next rfl hnext⟩
            rintro page' next' rfl hnext'
            obtain rfl := Option.some.inj (hnext.symm.trans hnext')
            exact h
          · rw [← hleft, List.length_append]
            simp only [List.length_map, List.length_append, List.length_singleton] at hgiven ⊢
            omega
      · -- no entry has the key any more, and an empty page ends the walk
        have hlost : Cursor.after ControlEntry.key t.lastKey
            (controlListEntries r.ledger kind visibility) = [] :=
          Cursor.after_of_notMem fun hmem => hkey (List.mem_map.1 hmem)
        rw [hlost] at hafter
        obtain ⟨rfl, rfl⟩ := List.append_eq_nil_iff.1 hafter.symm
        have hnext : page.nextToken = none := by
          cases hnext : page.nextToken with
          | none => rfl
          | some next => exact absurd rfl (hsome next hnext).1
        rw [hnext]
        refine ⟨fun items h => ?_, hpositive⟩
        obtain rfl := Option.some.inj h
        rw [hitems]
        exact ⟨fun h => absurd h.symm hrest, fun h => absurd (hkept.1 h.1) hkey⟩

theorem collect_first (hsha : Function.Injective sha256) {first : PageRequest δ}
    {requests : List (PageRequest δ)}
    (hrequests : ∀ r ∈ requests, ∃ env, r.ledger.Valid env) :
    (∀ items, collect sha256 kind visibility none (first :: requests) = some items →
      (items = listedIds first.ledger kind visibility ↔
        KeysKept sha256 kind visibility none (first :: requests))) ∧
    tokensGiven sha256 kind visibility none (first :: requests) ≤
      (listedIds first.ledger kind visibility).length := by
  unfold collect tokensGiven KeysKept
  cases hpage : controlListPage sha256 kind visibility first none with
  | error e => exact ⟨fun items h => (nomatch h), Nat.zero_le _⟩
  | ok page =>
    obtain ⟨epoch, -, hentries⟩ := controlListPage_first hpage
    obtain ⟨taken, left, hsplit, hitems, havailable, -, hnone, hsome⟩ :=
      pageOfEntries_spec hentries
    have hids : listedIds first.ledger kind visibility =
        taken.map ControlEntry.id ++ left.map ControlEntry.id := by
      unfold listedIds
      rw [hsplit, List.map_append]
    simp only [havailable, Bool.false_eq_true, if_false]
    cases hnext : page.nextToken with
    | none =>
      refine ⟨fun items h => ?_, Nat.zero_le _⟩
      obtain rfl := Option.some.inj h
      rw [hids, hnone hnext, List.map_nil, List.append_nil, hitems]
      refine ⟨fun _ => ⟨fun t ht => (nomatch ht), ?_⟩, fun _ => rfl⟩
      rintro page' next hpage' hsome'
      obtain rfl := Except.ok.inj hpage'
      rw [hnext] at hsome'
      cases hsome'
    | some next =>
      obtain ⟨hmore, hsame, done, last, rfl, hlast⟩ := hsome next hnext
      rw [List.map_append, List.map_singleton, List.append_assoc, List.singleton_append] at hids
      obtain ⟨hcollect, hgiven⟩ := collect_next hsha hids (mt List.map_eq_nil_iff.1 hmore)
        (congrArg ControlKey.id hlast) hsame hrequests
      constructor
      · intro items h
        obtain ⟨later, hlater, rfl⟩ := Option.map_eq_some_iff.1 h
        rw [hids, hitems, List.map_append, List.map_singleton, List.append_assoc,
          List.singleton_append, List.append_cancel_left_eq, List.cons_inj_right,
          hcollect later hlater]
        refine ⟨fun h => ⟨fun t ht => (nomatch ht), ?_⟩, fun h => h.2 page next rfl hnext⟩
        rintro page' next' hpage' hnext'
        obtain rfl := Except.ok.inj hpage'
        obtain rfl := Option.some.inj (hnext.symm.trans hnext')
        exact h
      · rw [hids, List.length_append, List.length_cons]
        show 1 + tokensGiven sha256 kind visibility (some next) requests ≤ _
        omega

/-- A client that follows the tokens to a complete page, none stale, has collected the listing of
its first request, in order and each entry once, exactly when every request found the row of its
token in the category and the place it was in; it is given no more tokens than there are entries,
and every page with a token holds an item. -/
theorem controlList_lossless (hsha : Function.Injective sha256) {first : PageRequest δ}
    {requests : List (PageRequest δ)}
    (hreachable : ∀ r ∈ first :: requests, r.ledger.Reachable env) :
    (listedIds first.ledger kind visibility).Nodup ∧
      (∀ items, collect sha256 kind visibility none (first :: requests) = some items →
        (items = listedIds first.ledger kind visibility ↔
          KeysKept sha256 kind visibility none (first :: requests))) ∧
      tokensGiven sha256 kind visibility none (first :: requests) ≤
        (listedIds first.ledger kind visibility).length ∧
      ∀ r token page, controlListPage sha256 kind visibility r token = .ok page →
        page.stale = false →
        page.complete = page.nextToken.isNone ∧ (page.nextToken.isSome → page.items ≠ []) := by
  have hvalid : ∀ r ∈ first :: requests, ∃ env, r.ledger.Valid env :=
    fun r hr => ⟨env, Ledger.Reachable.valid (hreachable r hr)⟩
  obtain ⟨env', hfirst⟩ := hvalid first List.mem_cons_self
  have hrest : ∀ r ∈ requests, ∃ env, r.ledger.Valid env :=
    fun r hr => hvalid r (List.mem_cons_of_mem _ hr)
  refine ⟨listedIds_nodup hfirst, ?_, ?_, fun r token page h => available_page h⟩
  · exact (collect_first hsha hrest).1
  · exact (collect_first hsha hrest).2

/-! ### A continuation that loses a row -/

/-- Two dispatches are cancelled, the later one with an action that is not acknowledged yet. -/
def attendedRun : List Ledger.Op :=
  [.acquireHarness Ledger.nonceSha256 (Ledger.seconds 600) 0,
    .enqueue "run/m2/reviewer/1" { Ledger.sampleRequest with milestoneId := "m2" } 1,
    .cancel "run/m2/reviewer/1" none 1,
    .enqueue Ledger.sampleId Ledger.sampleRequest 1,
    .openDecision Ledger.sampleId
      { kind := .checkpoint, payload := .direct .queued, sourceThreadId := none
        deadline := Ledger.seconds 3600 } 2,
    .decision Ledger.sampleId .checkpoint 1 (Ledger.sampleClaim .model) 3,
    .controllerActions (Ledger.sampleSubmission [.acknowledgeOnly]) 4,
    .cancel Ledger.sampleId none 5]

/-- The action is acknowledged, and the queue row stays as it is. -/
def acknowledgedRun : List Ledger.Op :=
  attendedRun ++ [.decision Ledger.sampleId .checkpoint 1 (.acknowledge
    { actionId := "action", bundleSha256 := Ledger.nonceSha256, committedRevision := 2
      claimantId := "controller", token := "token" }) 6]

def singleItem (ops : List Ledger.Op) : PageRequest SnapshotPayload where
  ledger := Machine.run (Ledger.next .digesting) {} ops
  epoch := some 1
  ownerNonce := "nonce"
  ledgerSha256 := Ledger.nonceSha256
  pageItems := 1
  hpageItems := by decide
  tokenBytes _ := 512
  responseBytes page := 256 + 1024 * page.items.length

theorem singleItem_reachable (ops : List Ledger.Op) :
    (singleItem ops).ledger.Reachable .digesting := ⟨ops, rfl⟩

/-- Asked twice in one state, the client collects both rows. -/
theorem attendedRun_lossless :
    KeysKept id .workers .all none [singleItem attendedRun, singleItem attendedRun] := by
  have hcollect : collect id .workers .all none [singleItem attendedRun, singleItem attendedRun] =
      some (listedIds (singleItem attendedRun).ledger .workers .all) := by decide +kernel
  refine ((@controlList_lossless _ _ _ _ _ .digesting Function.injective_id _ _ fun r hr => ?_).2.1 _
    hcollect).1 rfl
  simp only [List.mem_cons, List.not_mem_nil, or_false, or_self] at hr
  exact hr ▸ singleItem_reachable attendedRun

/-- The acknowledgement moves the row of the token to another category under the same fingerprint,
and the second page is empty and complete. -/
theorem acknowledgedRun_loses :
    ¬∀ (env : Env) (sha256 : SnapshotPayload → SnapshotPayload) (kind : ControlListKind)
      (visibility : ControlListVisibility) (first : PageRequest SnapshotPayload)
      (requests : List (PageRequest SnapshotPayload)) (items : List String),
      Function.Injective sha256 → (∀ r ∈ first :: requests, r.ledger.Reachable env) →
      collect sha256 kind visibility none (first :: requests) = some items →
      items = listedIds first.ledger kind visibility := by
  intro h
  have hcollect : collect id .workers .all none
      [singleItem attendedRun, singleItem acknowledgedRun] = some [Ledger.sampleId] := by
    decide +kernel
  have hlisted : listedIds (singleItem attendedRun).ledger .workers .all =
      [Ledger.sampleId, "run/m2/reviewer/1"] := by decide +kernel
  have hitems := h .digesting id .workers .all _ _ _ Function.injective_id (fun r hr => by
    obtain rfl | rfl := List.mem_pair.1 hr
    · exact singleItem_reachable attendedRun
    · exact singleItem_reachable acknowledgedRun) hcollect
  rw [hlisted] at hitems
  cases hitems

end CodexFlow.Control
