import CodexFlow.Hook.Snapshot

/-!
# The verdict of a reconciliation

Which list responses confirm a reserved attempt, which prove that its create was not found, and which
leave it ambiguous. The counts of the loop are capped, and its verdict depends on no order.
-/

namespace CodexFlow.Hook

variable {p : Platform} {attempt : Attempt}

/-! ### Snapshots -/

/-- The items of a decoded response. -/
inductive Lists : Json → List Json → Prop
  | bare (items : List Json) : Lists (.arr items) items
  | single {fields : Dict} {key : PyStr} {items : List Json}
      (hkey : key ∈ [lit "threads", lit "items", lit "results"]) (hkeys : fields.keysAre [key])
      (hitems : fields.get? key = some (.arr items)) : Lists (.obj fields) items
  | pinned {fields : Dict} {pinned threads : List Json}
      (hkeys : fields.keysAre [lit "pinnedThreads", lit "threads"])
      (hpinned : fields.get? (lit "pinnedThreads") = some (.arr pinned))
      (hthreads : fields.get? (lit "threads") = some (.arr threads)) :
      Lists (.obj fields) (pinned ++ threads)

def Supported (p : Platform) (response : Json) (items : List Json) : Prop :=
  Lists (decodeJsonString p response) items ∧ items.length ≤ maxCandidates

theorem get?_of_keysAre {fields : Dict} {keys : List PyStr} (h : fields.keysAre keys = true)
    {key : PyStr} (hkey : key ∉ keys) : fields.get? key = none := by
  unfold Dict.get?
  rw [Option.map_eq_none_iff, List.find?_eq_none]
  intro field hfield
  have hwithin := List.all_eq_true.1 (Bool.and_eq_true_iff.1 h).1 field hfield
  intro hsame
  exact hkey (of_decide_eq_true hsame ▸ of_decide_eq_true hwithin)

theorem exists_of_keysAre {fields : Dict} {keys : List PyStr} (h : fields.keysAre keys = true)
    {key : PyStr} (hkey : key ∈ keys) : ∃ value, fields.get? key = some value :=
  Option.isSome_iff_exists.1 (List.all_eq_true.1 (Bool.and_eq_true_iff.1 h).2 key hkey)

theorem collectItems_absent {fields : Dict} {key : PyStr} {keys : List PyStr} {items : List Json}
    (h : fields.get? key = none) :
    collectItems fields (key :: keys) items = collectItems fields keys items := by
  rw [collectItems, h]

/-- A key of the response adds its items, if it has any and they fit. -/
theorem collectItems_present {fields : Dict} {key : PyStr} {keys : List PyStr}
    {items collected : List Json} {value : Json} (h : fields.get? key = some value) :
    collectItems fields (key :: keys) items = .valid collected ↔
      ∃ more, value = .arr more ∧ items.length + more.length ≤ maxCandidates ∧
        collectItems fields keys (items ++ more) = .valid collected := by
  rw [collectItems, h]
  cases value with
  | arr more =>
    show (if maxCandidates < items.length + more.length then Snapshot.oversized
      else collectItems fields keys (items ++ more)) = .valid collected ↔ _
    split_ifs with hmany
    · constructor
      · intro hvalid
        cases hvalid
      · rintro ⟨more', hsame, hfits, -⟩
        cases hsame
        omega
    · constructor
      · exact fun hvalid => ⟨more, rfl, Nat.le_of_not_lt hmany, hvalid⟩
      · rintro ⟨more', hsame, -, hvalid⟩
        cases hsame
        exact hvalid
  | _ =>
    constructor
    · intro hvalid
      cases hvalid
    · rintro ⟨more', hsame, -⟩
      cases hsame

theorem collectItems_nil {fields : Dict} {items collected : List Json} :
    collectItems fields [] items = .valid collected ↔ items = collected := by
  rw [collectItems, Snapshot.valid.injEq]

def snapshotKeys : List PyStr :=
  [lit "pinnedThreads", lit "threads", lit "items", lit "results"]

theorem collectItems_single {fields : Dict} {key : PyStr} {collected : List Json}
    (hkey : key ∈ [lit "threads", lit "items", lit "results"])
    (hkeys : fields.keysAre [key] = true) :
    collectItems fields snapshotKeys [] = .valid collected ↔
      fields.get? key = some (.arr collected) ∧ collected.length ≤ maxCandidates := by
  obtain ⟨value, hvalue⟩ := exists_of_keysAre hkeys (List.mem_singleton_self key)
  have habsent : ∀ {other}, other ≠ key → fields.get? other = none := fun hne =>
    get?_of_keysAre hkeys (fun hmem => hne (List.mem_singleton.1 hmem))
  have hone : ∀ keys, (∀ other ∈ keys, other ≠ key) →
      (collectItems fields (key :: keys) [] = .valid collected ↔
        fields.get? key = some (.arr collected) ∧ collected.length ≤ maxCandidates) := by
    intro keys hkeys
    have hrest : ∀ items, collectItems fields keys items = .valid items := by
      intro items
      induction keys with
      | nil => rfl
      | cons other keys ih =>
        rw [collectItems_absent (habsent (hkeys other List.mem_cons_self))]
        exact ih fun other hother => hkeys other (List.mem_cons_of_mem _ hother)
    rw [collectItems_present hvalue, hvalue]
    constructor
    · rintro ⟨more, rfl, hfits, hvalid⟩
      rw [hrest, List.nil_append, Snapshot.valid.injEq] at hvalid
      subst hvalid
      exact ⟨rfl, by simpa using hfits⟩
    · rintro ⟨hsame, hfits⟩
      exact ⟨collected, Option.some.inj hsame, by simpa using hfits, hrest _⟩
  simp only [List.mem_cons, List.not_mem_nil, or_false] at hkey
  unfold snapshotKeys
  rcases hkey with rfl | rfl | rfl
  · rw [collectItems_absent (habsent (by decide))]
    exact hone _ (by decide)
  · rw [collectItems_absent (habsent (by decide)), collectItems_absent (habsent (by decide))]
    exact hone _ (by decide)
  · rw [collectItems_absent (habsent (by decide)), collectItems_absent (habsent (by decide)),
      collectItems_absent (habsent (by decide))]
    exact hone _ (by decide)

theorem collectItems_pinned {fields : Dict} {collected : List Json}
    (hkeys : fields.keysAre [lit "pinnedThreads", lit "threads"] = true) :
    collectItems fields snapshotKeys [] = .valid collected ↔
      ∃ pinned threads, fields.get? (lit "pinnedThreads") = some (.arr pinned) ∧
        fields.get? (lit "threads") = some (.arr threads) ∧ collected = pinned ++ threads ∧
        collected.length ≤ maxCandidates := by
  obtain ⟨first, hfirst⟩ := exists_of_keysAre hkeys List.mem_cons_self
  obtain ⟨second, hsecond⟩ : ∃ second, fields.get? (lit "threads") = some second :=
    exists_of_keysAre hkeys (by decide)
  have hitems : fields.get? (lit "items") = none := get?_of_keysAre hkeys (by decide)
  have hresults : fields.get? (lit "results") = none := get?_of_keysAre hkeys (by decide)
  unfold snapshotKeys
  rw [collectItems_present hfirst, hfirst, hsecond]
  constructor
  · rintro ⟨pinned, rfl, -, hvalid⟩
    rw [collectItems_present hsecond] at hvalid
    obtain ⟨threads, rfl, hfits, hvalid⟩ := hvalid
    rw [collectItems_absent hitems, collectItems_absent hresults, collectItems_nil] at hvalid
    subst hvalid
    exact ⟨pinned, threads, rfl, rfl, rfl, by simpa using hfits⟩
  · rintro ⟨pinned, threads, hpinned, hthreads, rfl, hfits⟩
    rw [List.length_append] at hfits
    refine ⟨pinned, Option.some.inj hpinned, by simp only [List.length_nil]; omega, ?_⟩
    rw [collectItems_present hsecond]
    refine ⟨threads, Option.some.inj hthreads, by simpa using hfits, ?_⟩
    rw [collectItems_absent hitems, collectItems_absent hresults, collectItems_nil]
    rfl

theorem candidateItems_iff {response : Json} {items : List Json} :
    candidateItems p response = .valid items ↔ Supported p response items := by
  unfold candidateItems Supported
  cases decodeJsonString p response with
  | arr bare =>
    show (if maxCandidates < bare.length then Snapshot.oversized else .valid bare) = .valid items ↔ _
    split_ifs with hmany
    · constructor
      · intro hvalid
        cases hvalid
      · rintro ⟨hlists, hfits⟩
        cases hlists
        omega
    · rw [Snapshot.valid.injEq]
      constructor
      · rintro rfl
        exact ⟨.bare bare, Nat.le_of_not_lt hmany⟩
      · rintro ⟨hlists, -⟩
        cases hlists
        rfl
  | obj fields =>
    show (if listResponseKeysets.any (Dict.keysAre fields) then
      collectItems fields snapshotKeys [] else Snapshot.invalid) = .valid items ↔ _
    by_cases hpinned : Dict.keysAre fields [lit "pinnedThreads", lit "threads"] = true
    · have hany : listResponseKeysets.any (Dict.keysAre fields) = true :=
        List.any_eq_true.2 ⟨[lit "pinnedThreads", lit "threads"], by decide, hpinned⟩
      rw [if_pos hany, collectItems_pinned hpinned]
      constructor
      · rintro ⟨pinned, threads, hfirst, hsecond, rfl, hfits⟩
        exact ⟨.pinned hpinned hfirst hsecond, hfits⟩
      · rintro ⟨hlists, hfits⟩
        cases hlists with
        | @single _ key _ hkey hkeys hitems =>
          obtain ⟨value, hvalue⟩ := exists_of_keysAre hpinned List.mem_cons_self
          have habsent : lit "pinnedThreads" ∉ [key] := by
            intro hmem
            rw [← List.mem_singleton.1 hmem] at hkey
            exact absurd hkey (by decide)
          rw [get?_of_keysAre hkeys habsent] at hvalue
          cases hvalue
        | pinned hkeys hfirst hsecond => exact ⟨_, _, hfirst, hsecond, rfl, hfits⟩
    · by_cases hsingle : ∃ key ∈ [lit "threads", lit "items", lit "results"],
          Dict.keysAre fields [key] = true
      · obtain ⟨key, hkey, hkeys⟩ := hsingle
        have hany : listResponseKeysets.any (Dict.keysAre fields) = true := by
          refine List.any_eq_true.2 ⟨[key], ?_, hkeys⟩
          simp only [List.mem_cons, List.not_mem_nil, or_false] at hkey
          rcases hkey with rfl | rfl | rfl <;> decide
        rw [if_pos hany, collectItems_single hkey hkeys]
        constructor
        · rintro ⟨hitems, hfits⟩
          exact ⟨.single hkey hkeys hitems, hfits⟩
        · rintro ⟨hlists, hfits⟩
          cases hlists with
          | @single _ key' _ hkey' hkeys' hitems =>
            obtain ⟨value, hvalue⟩ := exists_of_keysAre hkeys (List.mem_singleton_self key)
            have hsame : key = key' := by
              by_contra hne
              rw [get?_of_keysAre hkeys' fun hmem => hne (List.mem_singleton.1 hmem)] at hvalue
              cases hvalue
            subst hsame
            exact ⟨hitems, hfits⟩
          | pinned hkeys' => exact absurd hkeys' hpinned
      · have hnone : ¬listResponseKeysets.any (Dict.keysAre fields) = true := by
          intro hany
          obtain ⟨keys, hmem, hkeys⟩ := List.any_eq_true.1 hany
          simp only [listResponseKeysets, List.mem_cons, List.not_mem_nil, or_false] at hmem
          rcases hmem with rfl | rfl | rfl | rfl
          · exact hsingle ⟨lit "threads", by decide, hkeys⟩
          · exact hpinned hkeys
          · exact hsingle ⟨lit "items", by decide, hkeys⟩
          · exact hsingle ⟨lit "results", by decide, hkeys⟩
        rw [if_neg hnone]
        constructor
        · intro hvalid
          cases hvalid
        · rintro ⟨hlists, -⟩
          cases hlists with
          | single hkey hkeys => exact absurd ⟨_, hkey, hkeys⟩ hsingle
          | pinned hkeys => exact absurd hkeys hpinned
  | _ =>
    constructor
    · intro hvalid
      cases hvalid
    · rintro ⟨hlists, -⟩
      cases hlists

/-! ### Items -/

/-- What an item of the snapshot is to the attempt. -/
inductive Kind where
  | peer (id : PyStr)
  | possible
  | unrelated
deriving DecidableEq

def kind (p : Platform) (attempt : Attempt) (item : Json) : Kind :=
  match item.asDict with
  | none => .possible
  | some candidate =>
    match candidateTitleMatch p attempt candidate, candidateContext candidate with
    | .none, _ => .unrelated
    | _, none => .possible
    | .exact, some context =>
      if context = attempt.target then
        match validId p (candidate.get (lit "threadId")) with
        | some id => .peer id
        | none => .possible
      else .unrelated
    | _, some context => if context = attempt.target then .possible else .unrelated

/-- The item has the exact title and the exact context, and the peer's identity. -/
def Matches (p : Platform) (attempt : Attempt) (peer : PyStr) (item : Json) : Prop :=
  ∃ candidate, item.asDict = some candidate ∧
    candidateTitleMatch p attempt candidate = .exact ∧
    candidateContext candidate = some attempt.target ∧
    validId p (candidate.get (lit "threadId")) = some peer

/-- The item may be the thread of the attempt, and nothing proves it. -/
inductive Possible (p : Platform) (attempt : Attempt) (item : Json) : Prop
  | notObject (h : item.asDict = none)
  | doubtful {candidate : Dict} (h : item.asDict = some candidate)
      (title : candidateTitleMatch p attempt candidate = .normalised ∨
        candidateTitleMatch p attempt candidate = .unverifiable)
      (context : candidateContext candidate = some attempt.target ∨
        candidateContext candidate = none)
  | unreadable {candidate : Dict} (h : item.asDict = some candidate)
      (title : candidateTitleMatch p attempt candidate = .exact)
      (context : candidateContext candidate = none)
  | unaddressable {candidate : Dict} (h : item.asDict = some candidate)
      (title : candidateTitleMatch p attempt candidate = .exact)
      (context : candidateContext candidate = some attempt.target)
      (id : validId p (candidate.get (lit "threadId")) = none)

def Kind.add (t : Tally) : Kind → Tally
  | .peer id => t.addPeer id
  | .possible => t.addUncertain
  | .unrelated => t

theorem matchItem_eq (t : Tally) (item : Json) :
    matchItem p attempt t item = (kind p attempt item).add t := by
  unfold matchItem kind
  cases item.asDict with
  | none => rfl
  | some candidate =>
    cases htitle : candidateTitleMatch p attempt candidate <;>
      cases hcontext : candidateContext candidate with
      | none => simp [htitle, hcontext, Kind.add]
      | some context =>
        by_cases hsame : context = attempt.target
        · cases hid : validId p (candidate.get (lit "threadId")) <;>
            simp [htitle, hcontext, hsame, hid, Kind.add]
        · simp [htitle, hcontext, hsame, Kind.add]

theorem kind_eq_peer {item : Json} {peer : PyStr} :
    kind p attempt item = .peer peer ↔ Matches p attempt peer item := by
  unfold kind Matches
  cases item.asDict with
  | none => simp
  | some candidate =>
    cases htitle : candidateTitleMatch p attempt candidate <;>
      cases hcontext : candidateContext candidate with
      | none => simp [htitle, hcontext]
      | some context =>
        by_cases hsame : context = attempt.target
        · cases hid : validId p (candidate.get (lit "threadId")) <;>
            simp [htitle, hcontext, hsame, hid]
        · simp [htitle, hcontext, hsame]

theorem kind_eq_possible {item : Json} :
    kind p attempt item = .possible ↔ Possible p attempt item := by
  constructor
  · intro h
    unfold kind at h
    cases hitem : item.asDict with
    | none => exact .notObject hitem
    | some candidate =>
      rw [hitem] at h
      cases htitle : candidateTitleMatch p attempt candidate <;>
        cases hcontext : candidateContext candidate <;>
        simp only [htitle, hcontext, reduceCtorEq] at h
      case exact.none => exact .unreadable hitem htitle hcontext
      case exact.some context =>
        split_ifs at h with hsame
        cases hid : validId p (candidate.get (lit "threadId")) with
        | none => exact .unaddressable hitem htitle (hsame ▸ hcontext) hid
        | some id =>
          rw [hid] at h
          cases h
      case normalised.none => exact .doubtful hitem (.inl htitle) (.inr hcontext)
      case normalised.some context =>
        split_ifs at h with hsame
        exact .doubtful hitem (.inl htitle) (.inl (hsame ▸ hcontext))
      case unverifiable.none => exact .doubtful hitem (.inr htitle) (.inr hcontext)
      case unverifiable.some context =>
        split_ifs at h with hsame
        exact .doubtful hitem (.inr htitle) (.inl (hsame ▸ hcontext))
  · intro h
    unfold kind
    cases h with
    | notObject h => rw [h]
    | doubtful h title context =>
      rw [h]
      rcases title with title | title <;> rcases context with context | context <;>
        simp [title, context]
    | unreadable h title context => simp [h, title, context]
    | unaddressable h title context id => simp [h, title, context, id]

/-! ### The verdict -/

def Kind.peer? : Kind → Option PyStr
  | .peer id => some id
  | _ => none

def peers (p : Platform) (attempt : Attempt) (items : List Json) : List PyStr :=
  items.filterMap fun item => (kind p attempt item).peer?

/-- How many items may be the thread. -/
def possibleCount (p : Platform) (attempt : Attempt) (items : List Json) : ℕ :=
  items.countP fun item => kind p attempt item = .possible

/-- The counts of the loop are the counts of the items, up to the cap. -/
theorem foldl_matchItem (items : List Json) : ∀ {t : Tally}, t.peers.length ≤ maxRetainedMatches →
    t.uncertain ≤ maxRetainedMatches →
    items.foldl (matchItem p attempt) t =
      { peers := (t.peers ++ peers p attempt items).take maxRetainedMatches
        uncertain := min (t.uncertain + possibleCount p attempt items) maxRetainedMatches } := by
  induction items with
  | nil =>
    intro t hpeers huncertain
    show t = { peers := (t.peers ++ []).take maxRetainedMatches
               uncertain := min (t.uncertain + 0) maxRetainedMatches }
    rw [List.append_nil, List.take_of_length_le hpeers, Nat.add_zero, Nat.min_eq_left huncertain]
  | cons item items ih =>
    intro t hpeers huncertain
    rw [List.foldl_cons, matchItem_eq]
    cases hkind : kind p attempt item with
    | peer id =>
      have hlist : peers p attempt (item :: items) = id :: peers p attempt items := by
        simp [peers, hkind, Kind.peer?]
      have hcount : possibleCount p attempt (item :: items) = possibleCount p attempt items := by
        simp [possibleCount, hkind]
      rw [hlist, hcount]
      show (items.foldl (matchItem p attempt) (t.addPeer id)) = _
      unfold Tally.addPeer
      by_cases hroom : t.peers.length < maxRetainedMatches
      · have hfits : (t.peers ++ [id]).length ≤ maxRetainedMatches := by
          rw [List.length_append]
          exact hroom
        have hnext := ih (t := { t with peers := t.peers ++ [id] }) hfits huncertain
        rw [if_pos hroom, hnext, List.append_assoc]
        rfl
      · have hfull : t.peers.length = maxRetainedMatches := by omega
        rw [if_neg hroom, ih hpeers huncertain, ← hfull, List.take_left, List.take_left]
    | possible =>
      have hlist : peers p attempt (item :: items) = peers p attempt items := by
        simp [peers, hkind, Kind.peer?]
      have hcount : possibleCount p attempt (item :: items) =
          possibleCount p attempt items + 1 := by
        simp [possibleCount, hkind]
      rw [hlist, hcount]
      show (items.foldl (matchItem p attempt) t.addUncertain) = _
      have hnext := ih (t := t.addUncertain) hpeers (Nat.min_le_right _ _)
      rw [hnext]
      unfold Tally.addUncertain
      congr 1
      show min (min (t.uncertain + 1) _ + possibleCount p attempt items) _ =
        min (t.uncertain + (possibleCount p attempt items + 1)) _
      omega
    | unrelated =>
      have hlist : peers p attempt (item :: items) = peers p attempt items := by
        simp [peers, hkind, Kind.peer?]
      have hcount : possibleCount p attempt (item :: items) = possibleCount p attempt items := by
        simp [possibleCount, hkind]
      rw [hlist, hcount]
      exact ih hpeers huncertain

/-- The verdict on a snapshot, from the peers and the number of doubtful items. -/
theorem reconcile_valid (items : List Json) :
    reconcile p attempt (.valid items) =
      match peers p attempt items, possibleCount p attempt items with
      | [id], 0 => .found id
      | [], 0 => if items.isEmpty then .notFound else .ambiguous .ambiguous
      | _, _ => .ambiguous .ambiguous := by
  unfold reconcile
  have hfold : items.foldl (matchItem p attempt) {} =
      { peers := (peers p attempt items).take maxRetainedMatches
        uncertain := min (possibleCount p attempt items) maxRetainedMatches } := by
    rw [foldl_matchItem items (Nat.zero_le _) (Nat.zero_le _), List.nil_append, Nat.zero_add]
  simp only [hfold]
  have hcount : ∀ n : ℕ, min n maxRetainedMatches = 0 ↔ n = 0 := by
    intro n
    unfold maxRetainedMatches
    omega
  cases hpeers : peers p attempt items with
  | nil =>
    cases hpossible : possibleCount p attempt items with
    | zero => rfl
    | succ n =>
      have hmin : min (n + 1) maxRetainedMatches = min n 15 + 1 := by
        unfold maxRetainedMatches
        omega
      rw [hmin]
      rfl
  | cons id rest =>
    cases rest with
    | nil =>
      cases hpossible : possibleCount p attempt items with
      | zero => rfl
      | succ n =>
        have hmin : min (n + 1) maxRetainedMatches = min n 15 + 1 := by
          unfold maxRetainedMatches
          omega
        rw [hmin]
        rfl
    | cons other rest => rfl

/-- Exactly one item matches, with the peer's identity, and no other may be the thread. -/
def OneMatch (p : Platform) (attempt : Attempt) (peer : PyStr) (items : List Json) : Prop :=
  ∃ before item after, items = before ++ item :: after ∧ Matches p attempt peer item ∧
    ∀ other ∈ before ++ after, (∀ id, ¬ Matches p attempt id other) ∧ ¬ Possible p attempt other

theorem found_iff {items : List Json} {peer : PyStr} :
    reconcile p attempt (.valid items) = .found peer ↔
      peers p attempt items = [peer] ∧ possibleCount p attempt items = 0 := by
  rw [reconcile_valid]
  constructor
  · intro h
    split at h
    · rename_i id hpeers hcount
      cases h
      exact ⟨hpeers, hcount⟩
    · split_ifs at h
    · cases h
  · rintro ⟨hpeers, hcount⟩
    rw [hpeers, hcount]
    rfl

theorem notFound_iff {items : List Json} :
    reconcile p attempt (.valid items) = .notFound ↔ items = [] := by
  rw [reconcile_valid]
  constructor
  · intro h
    split at h
    · cases h
    · split_ifs at h with hempty
      exact List.isEmpty_iff.1 hempty
    · cases h
  · rintro rfl
    rfl

theorem peer?_eq_some {item : Json} {peer : PyStr} :
    (kind p attempt item).peer? = some peer ↔ Matches p attempt peer item := by
  rw [← kind_eq_peer]
  cases kind p attempt item with
  | peer id => simp [Kind.peer?]
  | possible => simp [Kind.peer?]
  | unrelated => simp [Kind.peer?]

theorem peer?_eq_none {item : Json} :
    (kind p attempt item).peer? = none ↔ ∀ id, ¬ Matches p attempt id item := by
  constructor
  · intro h id hmatch
    rw [peer?_eq_some.2 hmatch] at h
    cases h
  · intro h
    cases hpeer : (kind p attempt item).peer? with
    | none => rfl
    | some id => exact absurd (peer?_eq_some.1 hpeer) (h id)

theorem not_possible_of_matches {item : Json} {peer : PyStr} (h : Matches p attempt peer item) :
    ¬ Possible p attempt item := by
  rw [← kind_eq_possible, kind_eq_peer.2 h]
  intro hkind
  cases hkind

theorem possibleCount_eq_zero {items : List Json} :
    possibleCount p attempt items = 0 ↔ ∀ item ∈ items, ¬ Possible p attempt item := by
  unfold possibleCount
  rw [List.countP_eq_zero]
  refine forall₂_congr fun item _ => ?_
  rw [decide_eq_true_iff, kind_eq_possible]

theorem oneMatch_iff {items : List Json} {peer : PyStr} :
    OneMatch p attempt peer items ↔
      peers p attempt items = [peer] ∧ possibleCount p attempt items = 0 := by
  unfold OneMatch peers
  rw [List.filterMap_eq_cons_iff, possibleCount_eq_zero]
  constructor
  · rintro ⟨before, item, after, rfl, hmatch, hothers⟩
    have hnone : ∀ other ∈ before ++ after, (kind p attempt other).peer? = none :=
      fun other hother => peer?_eq_none.2 (hothers other hother).1
    refine ⟨⟨before, item, after, rfl, fun other hother => ?_, peer?_eq_some.2 hmatch, ?_⟩, ?_⟩
    · exact hnone other (List.mem_append_left _ hother)
    · exact List.filterMap_eq_nil_iff.2 fun other hother =>
        hnone other (List.mem_append_right _ hother)
    · intro other hother
      rcases List.mem_append.1 hother with hother | hother
      · exact (hothers other (List.mem_append_left _ hother)).2
      · rcases List.mem_cons.1 hother with rfl | hother
        · exact not_possible_of_matches hmatch
        · exact (hothers other (List.mem_append_right _ hother)).2
  · rintro ⟨⟨before, item, after, rfl, hbefore, hitem, hafter⟩, hpossible⟩
    refine ⟨before, item, after, rfl, peer?_eq_some.1 hitem, fun other hother => ?_⟩
    rcases List.mem_append.1 hother with hother | hother
    · exact ⟨peer?_eq_none.1 (hbefore other hother), hpossible other (List.mem_append_left _ hother)⟩
    · exact ⟨peer?_eq_none.1 (List.filterMap_eq_nil_iff.1 hafter other hother),
        hpossible other (List.mem_append_right _ (List.mem_cons_of_mem _ hother))⟩

theorem reconcile_perm {items items' : List Json} (h : items.Perm items') :
    reconcile p attempt (.valid items) = reconcile p attempt (.valid items') := by
  have hpeers : (peers p attempt items).Perm (peers p attempt items') := h.filterMap _
  have hcount : possibleCount p attempt items = possibleCount p attempt items' := h.countP_eq _
  have hempty : items.isEmpty = items'.isEmpty := by
    rw [Bool.eq_iff_iff, List.isEmpty_iff, List.isEmpty_iff]
    exact ⟨fun hnil => List.nil_perm.1 (hnil ▸ h), fun hnil => List.perm_nil.1 (hnil ▸ h)⟩
  rw [reconcile_valid, reconcile_valid, ← hcount, ← hempty]
  cases hlist : peers p attempt items with
  | nil =>
    rw [hlist] at hpeers
    rw [List.nil_perm.1 hpeers]
  | cons id rest =>
    rw [hlist] at hpeers
    cases rest with
    | nil => rw [List.singleton_perm.1 hpeers]
    | cons other rest =>
      have hlength := hpeers.length_eq
      cases hlist' : peers p attempt items' with
      | nil =>
        rw [hlist'] at hlength
        cases hlength
      | cons id' rest' =>
        cases rest' with
        | nil =>
          rw [hlist'] at hlength
          cases hlength
        | cons other' rest' => rfl

/-! ### What is recorded -/

/-- What the response proves of the attempt, and what the attempt is then. -/
structure Recorded (p : Platform) (attempt : Attempt) (response : Json) (recorded : Attempt) :
    Prop where
  confirmed : ∀ peer, recorded.status = .confirmed ∧ recorded.peerId = some peer ↔
    ∃ items, Supported p response items ∧ OneMatch p attempt peer items
  notFound : recorded.status = .notFound ↔ Supported p response []
  otherwise : recorded.status = .confirmed ∨ recorded.status = .notFound ∨
    recorded.status = .ambiguous ∧ recorded.blocksCreate = true

theorem candidateItems_cases (response : Json) :
    (∃ items, candidateItems p response = .valid items) ∨
      ∃ reason, ∀ attempt, reconcile p attempt (candidateItems p response) = .ambiguous reason := by
  cases candidateItems p response with
  | valid items => exact .inl ⟨items, rfl⟩
  | invalid => exact .inr ⟨.invalidSnapshot, fun _ => rfl⟩
  | oversized => exact .inr ⟨.oversizedSnapshot, fun _ => rfl⟩

theorem found_response_iff {response : Json} {peer : PyStr} :
    reconcile p attempt (candidateItems p response) = .found peer ↔
      ∃ items, Supported p response items ∧ OneMatch p attempt peer items := by
  constructor
  · intro h
    rcases candidateItems_cases (p := p) response with ⟨items, hitems⟩ | ⟨reason, hreason⟩
    · rw [hitems, found_iff, ← oneMatch_iff] at h
      exact ⟨items, candidateItems_iff.1 hitems, h⟩
    · rw [hreason attempt] at h
      cases h
  · rintro ⟨items, hitems, hone⟩
    rw [candidateItems_iff.2 hitems, found_iff, ← oneMatch_iff]
    exact hone

theorem notFound_response_iff {response : Json} :
    reconcile p attempt (candidateItems p response) = .notFound ↔ Supported p response [] := by
  constructor
  · intro h
    rcases candidateItems_cases (p := p) response with ⟨items, hitems⟩ | ⟨reason, hreason⟩
    · rw [hitems, notFound_iff] at h
      rw [← candidateItems_iff, hitems, h]
    · rw [hreason attempt] at h
      cases h
  · intro h
    rw [candidateItems_iff.2 h, notFound_iff]

theorem recorded_resolve (response : Json) :
    Recorded p attempt response
      (attempt.resolve (reconcile p attempt (candidateItems p response))) where
  confirmed := by
    intro peer
    rw [← found_response_iff]
    cases reconcile p attempt (candidateItems p response) with
    | found id => simp [Attempt.resolve]
    | notFound => simp [Attempt.resolve]
    | ambiguous reason => simp [Attempt.resolve]
  notFound := by
    have hsupported : reconcile p attempt (candidateItems p response) = .notFound ↔
      Supported p response [] := notFound_response_iff
    rw [← hsupported]
    cases reconcile p attempt (candidateItems p response) with
    | found id => simp [Attempt.resolve]
    | notFound => simp [Attempt.resolve]
    | ambiguous reason => simp [Attempt.resolve]
  otherwise := by
    cases reconcile p attempt (candidateItems p response) with
    | found id => exact .inl rfl
    | notFound => exact .inr (.inl rfl)
    | ambiguous reason => exact .inr (.inr ⟨rfl, rfl⟩)

/-- The ledger after the response, as the hook has read it before. -/
def State.record (st : State) (p : Platform) (sessionId : PyStr) (attempt : Attempt)
    (response : Json) : State :=
  st.modifyLast (matchesReserved sessionId) fun a =>
    a.resolve (reconcile p attempt (candidateItems p response))

variable {event : Dict} {st st₀ : State} {sessionId : PyStr}

theorem length_of_validateState (h : validateState st = .ok st₀) :
    st₀.attempts.length ≤ maxAttempts := by
  unfold validateState at h
  cases htrim : trimAttempts st.attempts with
  | error e =>
    rw [htrim] at h
    cases h
  | ok attempts =>
    rw [htrim] at h
    cases h
    exact length_trimAttempts htrim

/-- A response resolves the reserved attempt and writes the ledger. -/
theorem postList_eq (hread : validateState st = .ok st₀)
    (hsession : eventSessionId event = some sessionId)
    (hreserved : LastMatch.findLast (matchesReserved sessionId) st₀.attempts = some attempt) :
    postList p event st = .ok
      (.postContext (verdictContext
          (reconcile p attempt (candidateItems p (event.get (lit "tool_response"))))),
        st₀.record p sessionId attempt (event.get (lit "tool_response"))) := by
  have hresolve : resolveList p sessionId (candidateItems p (event.get (lit "tool_response"))) st₀ =
      .ok (some (reconcile p attempt (candidateItems p (event.get (lit "tool_response")))),
        st₀.record p sessionId attempt (event.get (lit "tool_response"))) := by
    unfold resolveList
    rw [hreserved]
    rfl
  have hwrite : validateState (st₀.record p sessionId attempt (event.get (lit "tool_response"))) =
      .ok (st₀.record p sessionId attempt (event.get (lit "tool_response"))) := by
    refine validateState_of_length_le ?_
    obtain ⟨before, after, hsplit, -, hmodify⟩ := LastMatch.modifyLast_split
      (f := fun a => a.resolve
        (reconcile p attempt (candidateItems p (event.get (lit "tool_response"))))) hreserved
    have hlength := length_of_validateState hread
    rw [hsplit] at hlength
    show (LastMatch.modifyLast _ _ st₀.attempts).length ≤ maxAttempts
    rw [hmodify]
    simpa using hlength
  unfold postList transaction
  rw [hsession, hread]
  have hbind : ∀ {α β : Type} (a : α) (f : α → Hooked β), (Except.ok a >>= f) = f a :=
    fun _ _ => rfl
  simp only [hbind, hresolve, hwrite]
  rfl

/-- A create of a projectless thread, waiting for the response to its list call. -/
def reservedAttempt : Attempt where
  fingerprint := lit "fingerprint"
  title := lit "peer"
  titlePresent := true
  titleIdentity := some
    { length := 4
      digest := asciiPlatform.sha256 (encodeSurrogatePass (lit "peer"))
      normalisedDigest := asciiPlatform.sha256 (encodeSurrogatePass (lit "peer")) }
  target := .projectless none
  model := []
  thinking := []
  turnId := none
  sessionId := lit "s"
  createdAt := 0
  status := .uncertain
  resultClassification := .error
  reconciliationClassification := none
  reconciliationUsed := true
  stopSurfaceUsed := false
  resumeSessions := []
  blocksCreate := true

def listEvent (response : Json) : Dict :=
  [(lit "session_id", .str (lit "s")), (lit "tool_response", response)]

/-- An item without an identity may be the thread even where its context is another one. -/
inductive PossibleAnywhere (p : Platform) (attempt : Attempt) (item : Json) : Prop
  | possible (h : Possible p attempt item)
  | nameless {candidate : Dict} (h : item.asDict = some candidate)
      (title : candidateTitleMatch p attempt candidate = .exact)
      (id : validId p (candidate.get (lit "threadId")) = none)

def peerThread : Dict :=
  [(lit "title", .str (lit "peer")), (lit "type", .str (lit "projectless")),
    (lit "threadId", .str (lit "t"))]

/-- Another thread of that title, in the cloud and without an identity. -/
def cloudThread : Dict :=
  [(lit "title", .str (lit "peer")), (lit "type", .str (lit "chatgptWorkCloud"))]

end CodexFlow.Hook
